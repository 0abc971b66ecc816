import Oboard.Controller.TrafficWindow

namespace Oboard.Controller

open GoText Calendar

variable {zone : Int} {anchor now : Time}

def boundaryAt (zone : Int) (anchor : Time) (i : Int) : Int :=
  resetAt zone (dayIn zone anchor) i+localClock zone anchor

section

variable (zone : Int) (anchor : Time)

theorem dayIn_pos : 1≤dayIn zone anchor :=
  (monthIndex_spec zone anchor).2.1

theorem boundaryAt_strictMono : StrictMono (boundaryAt zone anchor) := by
  intro i j h
  exact Int.add_lt_add_right (resetAt_strictMono zone (dayIn_pos zone anchor) h) _

theorem boundaryAt_anchor : boundaryAt zone anchor (monthIndex zone anchor)=anchor := by
  obtain ⟨hlocal,-,hfit⟩ := monthIndex_spec zone anchor
  have hday : resetDay (dayIn zone anchor) (monthIndex zone anchor)=dayIn zone anchor :=
    min_eq_left hfit
  rw [boundaryAt,resetAt,hday,← hlocal]
  exact (localDay_spec zone anchor).1.symm

end

theorem date_clamped_clock (hday : 1≤day) : date zone (yearIn zone t) (monthIn zone t)
      (clampedMonthDay (yearIn zone t) (monthIn zone t) day) hours minutes seconds nanoseconds=
      resetAt zone day (monthIndex zone t)+
        (hours*hour+minutes*(60*second)+seconds*second+nanoseconds) := by
  rw [← date_clamped hday]
  simp only [date]
  omega

theorem anniversaryBoundary_eq (anchor) (months zone) : anniversaryBoundary anchor months zone=
      boundaryAt zone anchor (monthIndex zone anchor+months) := by
  have hlen := monthLength_bounds (monthIndex zone anchor+months)
  have hmonth := (monthIndex_midnight zone (i := monthIndex zone anchor+months)
    (show (1 : Int)≤1 ∧ 1≤_ by omega) (localDay_spec zone anchor).2).1
  simp only [anniversaryBoundary,date_of_month,clock_split,
    date_clamped_clock (dayIn_pos zone anchor),hmonth]
  rfl

theorem boundaryAt_around : boundaryAt zone anchor (monthIndex zone now-1)≤now ∧
      now<boundaryAt zone anchor (monthIndex zone now+1) := by
  have hmonth i : monthIndex zone (boundaryAt zone anchor i)=i :=
    (monthIndex_midnight zone (resetDay_range (dayIn_pos zone anchor) i)
      (localDay_spec zone anchor).2).1
  exact ⟨(lt_of_monthIndex_lt zone (by rw [hmonth]; omega)).le,
    lt_of_monthIndex_lt zone (by rw [hmonth]; omega)⟩

variable {i : Int}

section

variable (hi : monthIndex zone anchor≤ i) (h0 : boundaryAt zone anchor i≤now)
  (h1 : now<boundaryAt zone anchor (i+1))
include hi h0 h1

theorem startIndex_eq :
    anchor≤now ∧ i=if now<boundaryAt zone anchor (monthIndex zone now) then monthIndex zone now-1
      else monthIndex zone now := by
  have hmono := boundaryAt_strictMono zone anchor
  obtain ⟨hlow,hhigh⟩ := boundaryAt_around
  have hnext := hmono.lt_iff_lt.mp (lt_of_le_of_lt h0 hhigh)
  have hprev := hmono.lt_iff_lt.mp (lt_of_le_of_lt hlow h1)
  constructor
  · rw [← boundaryAt_anchor zone anchor]
    exact (hmono.monotone hi).trans h0
  split_ifs with hbefore
  · have := hmono.lt_iff_lt.mp (lt_of_le_of_lt h0 hbefore)
    omega
  · have := hmono.lt_iff_lt.mp (lt_of_le_of_lt (not_lt.mp hbefore) h1)
    omega

theorem anniversaryTrafficWindow_eq : anniversaryTrafficWindow now anchor zone=
      (boundaryAt zone anchor i,boundaryAt zone anchor (i+1)) := by
  obtain ⟨hanchor,hindex⟩ := startIndex_eq hi h0 h1
  simp only [anniversaryTrafficWindow,anniversaryBoundary_eq,if_neg (not_lt.mpr hanchor)]
  have hmonths : monthIndex zone anchor+((yearIn zone now-yearIn zone anchor)*12+
      (monthIn zone now-monthIn zone anchor))=monthIndex zone now := by
    unfold monthIndex
    omega
  generalize (yearIn zone now-yearIn zone anchor)*12+(monthIn zone now-monthIn zone anchor)=
    months at *
  rw [hmonths]
  have hpick : monthIndex zone anchor+(if now<boundaryAt zone anchor (monthIndex zone now) then
      months-1 else months)=i := by
    rw [hindex]
    split_ifs <;> omega
  rw [← Int.add_assoc,hpick]

end

theorem exists_boundaryAt (zone) (h : anchor≤now) :
    ∃i,monthIndex zone anchor≤ i ∧ boundaryAt zone anchor i≤now ∧
      now<boundaryAt zone anchor (i+1) := by
  obtain ⟨hlow,hhigh⟩ := boundaryAt_around
  have hmono := boundaryAt_strictMono zone anchor
  have hfirst := boundaryAt_anchor zone anchor
  by_cases hbefore : now<boundaryAt zone anchor (monthIndex zone now)
  · refine ⟨monthIndex zone now-1,?_,hlow,by rwa [Int.sub_add_cancel]⟩
    have := hmono.lt_iff_lt.mp (hfirst.trans_lt (lt_of_le_of_lt h hbefore))
    omega
  refine ⟨monthIndex zone now,?_,not_lt.mp hbefore,hhigh⟩
  have := hmono.lt_iff_lt.mp (hfirst.trans_lt (lt_of_le_of_lt h hhigh))
  omega

theorem le_nextLocalHour (at_ zone : Int) : at_≤nextLocalHour at_ zone := by
  have hdate := date_of_month zone at_ 0 (dayIn zone at_) (hourIn zone at_) 0 0 0
  rw [Int.add_zero,Int.add_zero,← (monthIndex_spec zone at_).1] at hdate
  have hat := (localDay_spec zone at_).1
  have hpast : localClock zone at_<(hourIn zone at_+1)*hour := by
    simp only [hourIn,hour,second]
    omega
  simp only [nextLocalHour,hdate]
  split_ifs with h
  · rw [Int.add_mul] at hpast
    omega
  · exact not_lt.mp h

def cycleWindow (zone : Int) (anchor : Time) (i : Int) : TrafficWindow :=
  ⟨formatRFC3339Nano (boundaryAt zone anchor i),boundaryAt zone anchor i,
    boundaryAt zone anchor (i+1)⟩

/-- Windows that are those of one cycle from one of its boundaries on tile the time from there. -/
theorem tiles_cycle (hi : monthIndex zone anchor≤ i)
    (hwindow : ∀j t,i≤j → boundaryAt zone anchor j≤t → t<boundaryAt zone anchor (j+1) →
      window t=cycleWindow zone anchor j)
    (hnow : boundaryAt zone anchor i≤now) : Tiles window now := by
  have hmono := boundaryAt_strictMono zone anchor
  have hanchor : anchor≤now := by
    rw [← boundaryAt_anchor zone anchor]
    exact (hmono.monotone hi).trans hnow
  obtain ⟨j,-,h0,h1⟩ := exists_boundaryAt zone hanchor
  have hij : i≤j := Int.lt_add_one_iff.mp (hmono.lt_iff_lt.mp (lt_of_le_of_lt hnow h1))
  have heq := hwindow j now hij h0 h1
  constructor
  · rw [heq]
    exact h0
  · rw [heq]
    exact h1
  · rw [heq]
    exact fun t ht0 ht1 => hwindow j t hij ht0 ht1
  · rw [heq]
    have hnext := hwindow (j+1) (boundaryAt zone anchor (j+1)) (by omega) le_rfl (hmono (by omega))
    exact congrArg TrafficWindow.start hnext

section tiling

variable (day : Int)

section

variable (hmode : normalizeControllerTrafficResetMode mode=.anniversaryMonth)
include hmode

theorem trafficWindow_cycle (hanchor : anchor≠0) (hi : monthIndex (locationOr loc) anchor≤ i)
    (h0 : boundaryAt (locationOr loc) anchor i≤t) (h1 : t<boundaryAt (locationOr loc) anchor (i+1)) :
    trafficWindow t mode day anchor loc=cycleWindow (locationOr loc) anchor i := by
  simp only [trafficWindow,hmode,if_neg hanchor,anniversaryTrafficWindow_eq hi h0 h1]
  rfl

/-- With alignment the first window runs from the anchor to the second boundary of the cycle of
the next full hour. -/
theorem trafficWindowAligned_first (hanchor : anchor≠0) (haligned : aligned=nextLocalHour anchor (locationOr loc))
    (h : t<boundaryAt (locationOr loc) aligned (monthIndex (locationOr loc) aligned+1)) :
    trafficWindowAligned t mode day anchor true loc=⟨formatRFC3339Nano anchor,anchor,
      boundaryAt (locationOr loc) aligned (monthIndex (locationOr loc) aligned+1)⟩ := by
  simp only [trafficWindowAligned,hmode,anniversaryBoundary_eq,← haligned]
  rw [if_neg (by simp [hanchor]),if_pos h]

theorem trafficWindowAligned_cycle (hanchor : anchor≠0) (haligned : aligned=nextLocalHour anchor (locationOr loc))
    (hi : monthIndex (locationOr loc) aligned+1≤ i) (h0 : boundaryAt (locationOr loc) aligned i≤t)
    (h1 : t<boundaryAt (locationOr loc) aligned (i+1)) :
    trafficWindowAligned t mode day anchor true loc=cycleWindow (locationOr loc) aligned i := by
  have hlate := ((boundaryAt_strictMono (locationOr loc) aligned).monotone hi).trans h0
  simp only [trafficWindowAligned,hmode,anniversaryBoundary_eq,← haligned]
  rw [if_neg (by simp [hanchor]),if_neg (not_lt.mpr hlate),
    anniversaryTrafficWindow_eq (by omega) h0 h1]
  rfl

end

theorem trafficWindowAligned_false :
    trafficWindowAligned now mode day anchor false loc=trafficWindow now mode day anchor loc :=
  if_pos (.inl rfl)

end tiling

/-- Anniversary windows tile the time from their anchor, aligned to full hours or not. -/
theorem anniversary_windows_tile (mode : String) (day : Int) (anchor : Time) (hourAligned : Bool)
    (loc : Option Int) (hmode : normalizeControllerTrafficResetMode mode=.anniversaryMonth)
    (hanchor : anchor≠0) (now : Time) (hnow : anchor≤now) :
    Tiles (fun t => trafficWindowAligned t mode day anchor hourAligned loc) now ∧
      (trafficWindowAligned anchor mode day anchor hourAligned loc).start=anchor := by
  have hself := boundaryAt_anchor (locationOr loc) anchor
  cases hourAligned with
  | false =>
    simp only [trafficWindowAligned_false]
    refine ⟨tiles_cycle (le_refl (monthIndex (locationOr loc) anchor))
      (fun j t hj h0 h1 => trafficWindow_cycle day hmode hanchor hj h0 h1) (hself.trans_le hnow),?_⟩
    have hmono := boundaryAt_strictMono (locationOr loc) anchor
      (Int.lt_succ (monthIndex (locationOr loc) anchor))
    rw [trafficWindow_cycle day hmode hanchor le_rfl hself.le (hself.symm.trans_lt hmono)]
    exact hself
  | true =>
    obtain ⟨aligned,haligned⟩ : ∃a,a=nextLocalHour anchor (locationOr loc) := ⟨_,rfl⟩
    have hlater : anchor≤aligned := haligned ▸ le_nextLocalHour anchor (locationOr loc)
    have hmono := boundaryAt_strictMono (locationOr loc) aligned
    have hfirst : anchor<boundaryAt (locationOr loc) aligned
        (monthIndex (locationOr loc) aligned+1) := by
      have := hmono (Int.lt_succ (monthIndex (locationOr loc) aligned))
      rw [boundaryAt_anchor] at this
      exact lt_of_le_of_lt hlater this
    refine ⟨?_,by rw [trafficWindowAligned_first day hmode hanchor haligned hfirst]⟩
    by_cases hin : now<boundaryAt (locationOr loc) aligned (monthIndex (locationOr loc) aligned+1)
    · have heq := trafficWindowAligned_first day hmode hanchor haligned hin
      have hnext := trafficWindowAligned_cycle day hmode hanchor haligned le_rfl le_rfl
        (hmono (Int.lt_succ _))
      constructor
      · rw [heq]
        exact hnow
      · rw [heq]
        exact hin
      · intro t _ h1
        rw [heq] at h1 ⊢
        exact trafficWindowAligned_first day hmode hanchor haligned h1
      · rw [heq]
        exact congrArg TrafficWindow.start hnext
    · exact tiles_cycle (by omega)
        (fun j t hj h0 h1 => trafficWindowAligned_cycle day hmode hanchor haligned hj h0 h1)
        (not_lt.mp hin)

/-- A purchase at 14:11:23 with later resets at full hours. -/
theorem anniversary_windows_tile_aligned : let anchor := date (8*3600) 2026 10 14 14 11 23 0
    let now := date (8*3600) 2026 12 1 0 0 0 0
    Tiles (fun t => trafficWindowAligned t "anniversary_month" 1 anchor true none) now ∧
      (trafficWindowAligned anchor "anniversary_month" 1 anchor true none).start=anchor :=
  anniversary_windows_tile "anniversary_month" 1 _ true none (by decide) (by decide)
    _ (by decide)

/-- The zero instant is no anchor: each instant then starts a window of its own. -/
theorem zero_anchor_follows_now :
    let window := fun t => trafficWindowAligned t "anniversary_month" 1 0 true none
    (window 0).start≤1 ∧ 1<(window 0).finish ∧ window 1≠window 0 := by
  decide +kernel

end Oboard.Controller
