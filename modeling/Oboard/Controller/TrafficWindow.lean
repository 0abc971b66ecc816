import Oboard.Framework.GoTime

namespace Oboard.Controller

open GoText GoNumbers Calendar GoTime Int

inductive TrafficReset where
  | monthly | monthDay | anniversaryMonth | never
  deriving DecidableEq

def normalizeControllerTrafficResetMode (mode : String) : TrafficReset :=
  let mode := trimSpace (toLower mode)
  if mode="month_day" ∨ mode="day" ∨ mode="custom_day" then .monthDay
  else if mode="anniversary_month" then .anniversaryMonth
  else if mode="never" then .never
  else .monthly

def normalizeControllerTrafficResetDay (day : Int) : Int :=
  if day<1 then 1 else if 31<day then 31 else day

/-- The seconds by which a fixed-offset location is ahead of UTC. Without a location it is that
of Shanghai. -/
def locationOr (loc : Option Int) : Int := loc.getD (8*3600)

structure TrafficWindow where
  key : String
  start : Time
  finish : Time
  deriving DecidableEq

def clampedMonthDay (year month day : Int) : Int :=
  let last := dayIn 0 (date 0 year (month+1) 0 0 0 0 0)
  if last<day then last else if day<1 then 1 else day

def anniversaryBoundary (anchor : Time) (months zone : Int) : Time :=
  let monthStart := date zone (yearIn zone anchor) (monthIn zone anchor+months) 1 (hourIn zone anchor)
    (minuteIn zone anchor) (secondIn zone anchor) (nanosecondIn zone anchor)
  let day := clampedMonthDay (yearIn zone monthStart) (monthIn zone monthStart) (dayIn zone anchor)
  date zone (yearIn zone monthStart) (monthIn zone monthStart) day (hourIn zone anchor)
    (minuteIn zone anchor) (secondIn zone anchor) (nanosecondIn zone anchor)

def anniversaryTrafficWindow (now anchor : Time) (zone : Int) : Time×Time :=
  if now<anchor then (anchor,anniversaryBoundary anchor 1 zone)
  else
    let months := (yearIn zone now-yearIn zone anchor)*12+(monthIn zone now-monthIn zone anchor)
    let months := if now<anniversaryBoundary anchor months zone then months-1 else months
    (anniversaryBoundary anchor months zone,anniversaryBoundary anchor (months+1) zone)

def trafficWindow (now : Time) (mode : String) (day : Int) (anchor : Time) (loc : Option Int) :
    TrafficWindow :=
  let zone := locationOr loc
  let day := normalizeControllerTrafficResetDay day
  match normalizeControllerTrafficResetMode mode with
  | .never =>
    let start := if anchor=0 then now else anchor
    ⟨formatRFC3339Nano start,start,date zone 9999 12 31 23 59 59 0⟩
  | .anniversaryMonth =>
    let anchor := if anchor=0 then now else anchor
    let (start,finish) := anniversaryTrafficWindow now anchor zone
    ⟨formatRFC3339Nano start,start,finish⟩
  | .monthly =>
    let start := date zone (yearIn zone now) (monthIn zone now) 1 0 0 0 0
    ⟨formatDate zone start,start,addDate zone start 0 1 0⟩
  | .monthDay =>
    let startDay := clampedMonthDay (yearIn zone now) (monthIn zone now) day
    let start := date zone (yearIn zone now) (monthIn zone now) startDay 0 0 0 0
    let prev := addDate zone start 0 (-1) 0
    let prevDay := clampedMonthDay (yearIn zone prev) (monthIn zone prev) day
    let start := if now<start then date zone (yearIn zone prev) (monthIn zone prev) prevDay 0 0 0 0
      else start
    let next := addDate zone start 0 1 0
    let nextDay := clampedMonthDay (yearIn zone next) (monthIn zone next) day
    ⟨formatDate zone start,start,date zone (yearIn zone next) (monthIn zone next) nextDay 0 0 0 0⟩

def nextLocalHour (at_ : Time) (zone : Int) : Time :=
  let hours := date zone (yearIn zone at_) (monthIn zone at_) (dayIn zone at_) (hourIn zone at_) 0 0 0
  if hours<at_ then hours+hour else hours

def trafficWindowAligned (now : Time) (mode : String) (day : Int) (anchor : Time)
    (hourAligned : Bool) (loc : Option Int) : TrafficWindow :=
  if !hourAligned ∨ normalizeControllerTrafficResetMode mode≠.anniversaryMonth ∨ anchor=0 then
    trafficWindow now mode day anchor loc
  else
    let zone := locationOr loc
    let aligned := nextLocalHour anchor zone
    let firstEnd := anniversaryBoundary aligned 1 zone
    if now<firstEnd then ⟨formatRFC3339Nano anchor,anchor,firstEnd⟩
    else
      let (start,finish) := anniversaryTrafficWindow now aligned zone
      ⟨formatRFC3339Nano start,start,finish⟩

/-- The window of an instant contains it, is the window of each of its instants, and is followed
by a window that starts at its end. -/
structure Tiles (window : Time → TrafficWindow) (now : Time) : Prop where
  le : (window now).start≤now
  lt : now<(window now).finish
  same : ∀t,(window now).start≤t → t<(window now).finish → window t=window now
  next : (window (window now).finish).start=(window now).finish

section calendar

variable {zone : Int}

variable {day i : Int} {mode : String}

theorem clampedMonthDay_eq (h : 1≤day) :
    clampedMonthDay year month day=min day (monthLength (12*year+month-1)) := by
  have hlen := monthLength_bounds (12*year+month-1)
  have hsucc := monthStart_succ (12*year+month-1)
  have hindex : 12*year+(month+1)-1=12*year+month-1+1 := by omega
  have hdate : date 0 year (month+1) 0 0 0 0 0=
      midnight 0 (monthStart (12*year+month-1)+monthLength (12*year+month-1)-1)+0 := by
    simp only [date,hindex,hsucc,add_zero,zero_mul]
  have hlast : dayIn 0 (date 0 year (month+1) 0 0 0 0 0)=monthLength (12*year+month-1) := by
    rw [hdate]
    exact (monthIndex_midnight 0 ⟨by omega,le_rfl⟩ ⟨le_rfl,by decide⟩).2
  simp only [clampedMonthDay,hlast]
  split_ifs <;> omega

theorem normalizeControllerTrafficResetDay_range (day) :
    1≤normalizeControllerTrafficResetDay day ∧ normalizeControllerTrafficResetDay day≤31 := by
  unfold normalizeControllerTrafficResetDay
  split_ifs <;> omega

def resetDay (day i : Int) : Int := min day (monthLength i)

def resetAt (zone day i : Int) : Int := midnight zone (monthStart i+resetDay day i-1)

theorem resetDay_range (hday : 1≤day) (i) : 1≤resetDay day i ∧ resetDay day i≤ monthLength i := by
  have := monthLength_bounds i
  unfold resetDay
  omega

theorem date_clamped (hday : 1≤day) (t) : date zone (yearIn zone t) (monthIn zone t)
      (clampedMonthDay (yearIn zone t) (monthIn zone t) day) 0 0 0 0=
      resetAt zone day (monthIndex zone t) := by
  rw [date_midnight,clampedMonthDay_eq hday]
  rfl

theorem monthIndex_resetAt (hday : 1≤day) : monthIndex zone (resetAt zone day i)=i := by
  have h := (monthIndex_midnight zone (resetDay_range hday i)
    (show (0 : Int)≤0 ∧ 0<24*hour from ⟨le_rfl,by decide⟩)).1
  rwa [add_zero] at h

theorem monthIndex_addDate (hday : 1≤day ∧ day≤31) (i months) :
    monthIndex zone (addDate zone (resetAt zone day i) 0 months 0)=
      if resetDay day i≤ monthLength (i+months) then i+months else i+months+1 := by
  have hrange := resetDay_range hday.1 i
  have := monthLength_bounds i
  rw [resetAt,addDate_midnight zone hrange,monthIndex_overflow zone ⟨hrange.1,by omega⟩]

theorem resetAt_strictMono (zone) (hday : 1≤day) : StrictMono (resetAt zone day) :=
  strictMono_int_of_lt_succ fun i => by
    have := resetDay_range hday i
    have := resetDay_range hday (i+1)
    have := monthStart_succ i
    exact lt_midnight_iff.mpr (by
      rw [← add_zero (resetAt zone day i),resetAt,(localDay_midnight _ _ le_rfl (by decide)).1]
      omega)

theorem resetAt_around (zone) (hday : 1≤day) (t) :
    resetAt zone day (monthIndex zone t-1)≤t ∧ t<resetAt zone day (monthIndex zone t+1) := by
  obtain ⟨hlocal,hlow,hhigh⟩ := monthIndex_spec zone t
  have hprev := resetDay_range hday (monthIndex zone t-1)
  have hnext := resetDay_range hday (monthIndex zone t+1)
  have hsucc := monthStart_succ (monthIndex zone t-1)
  have hsucc' := monthStart_succ (monthIndex zone t)
  rw [sub_add_cancel] at hsucc
  constructor
  · exact midnight_le_iff.mpr (by omega)
  · exact lt_midnight_iff.mpr (by omega)

/-- The month whose reset the code takes as the start of the window of an instant. -/
def startMonth (zone day : Int) (now : Time) : Int :=
  let i := monthIndex zone now
  if now<resetAt zone day i then if resetDay day i≤ monthLength (i-1) then i-1 else i else i

def endMonth (day i : Int) : Int := if resetDay day i≤ monthLength (i+1) then i+1 else i+2

def resetWindow (zone day i : Int) : TrafficWindow :=
  ⟨formatDate zone (resetAt zone day i),resetAt zone day i,resetAt zone day (endMonth day i)⟩

theorem trafficWindow_monthDay (hmode : normalizeControllerTrafficResetMode mode=.monthDay) (now)
    (day) (anchor) (loc) : trafficWindow now mode day anchor loc=
      resetWindow (locationOr loc) (normalizeControllerTrafficResetDay day)
        (startMonth (locationOr loc) (normalizeControllerTrafficResetDay day) now) := by
  have hday := normalizeControllerTrafficResetDay_range day
  simp only [trafficWindow,hmode,date_clamped hday.1]
  generalize normalizeControllerTrafficResetDay day=day at *
  generalize locationOr loc=zone
  have hstart : (if now<resetAt zone day (monthIndex zone now) then
      resetAt zone day (monthIndex zone
        (addDate zone (resetAt zone day (monthIndex zone now)) 0 (-1) 0))
      else resetAt zone day (monthIndex zone now))=resetAt zone day (startMonth zone day now) := by
    rw [monthIndex_addDate hday]
    unfold startMonth
    dsimp only
    rw [← sub_eq_add_neg,sub_add_cancel]
    split_ifs <;> rfl
  rw [hstart,monthIndex_addDate hday]
  unfold resetWindow endMonth
  rw [add_assoc]
  rfl

theorem resetDay_one : resetDay 1 i=1 := by
  have := monthLength_bounds i
  unfold resetDay
  omega

theorem endMonth_one : endMonth 1 i=i+1 := by
  have := monthLength_bounds (i+1)
  rw [endMonth,resetDay_one,if_pos (by omega)]

theorem startMonth_one : startMonth zone 1 now=monthIndex zone now := by
  obtain ⟨hlocal,hlow,-⟩ := monthIndex_spec zone now
  have hle : resetAt zone 1 (monthIndex zone now)≤now := by
    rw [resetAt,resetDay_one]
    exact midnight_le_iff.mpr (by omega)
  unfold startMonth
  dsimp only
  rw [if_neg (not_lt.mpr hle)]

theorem trafficWindow_monthly (hmode : normalizeControllerTrafficResetMode mode=.monthly) :
    trafficWindow now mode day anchor loc=
      resetWindow (locationOr loc) 1 (startMonth (locationOr loc) 1 now) := by
  have hone : 1≤(1 : Int) ∧ 1≤ monthLength (monthIndex (locationOr loc) now) := by
    have := monthLength_bounds (monthIndex (locationOr loc) now)
    omega
  simp only [trafficWindow,hmode,date_midnight,resetWindow,startMonth_one,endMonth_one,resetAt,
    resetDay_one,addDate_midnight (locationOr loc) hone]

def calendarDay (mode : String) (day : Int) : Int :=
  if normalizeControllerTrafficResetMode mode=.monthly then 1
  else normalizeControllerTrafficResetDay day

theorem calendarDay_range (mode) (day) : 1≤calendarDay mode day ∧ calendarDay mode day≤31 := by
  have := normalizeControllerTrafficResetDay_range day
  unfold calendarDay
  split_ifs <;> omega

theorem trafficWindow_calendar (hmode : normalizeControllerTrafficResetMode mode=.monthly ∨
      normalizeControllerTrafficResetMode mode=.monthDay)
    (now) (day) (anchor) (loc) :
    trafficWindow now mode day anchor loc=resetWindow (locationOr loc) (calendarDay mode day)
      (startMonth (locationOr loc) (calendarDay mode day) now) := by
  rcases hmode with hmode | hmode
  · rw [trafficWindow_monthly hmode,calendarDay,if_pos hmode]
  · rw [trafficWindow_monthDay hmode,calendarDay,if_neg (by simp [hmode])]

def dueMonth (zone day : Int) (now : Time) : Int :=
  if now<resetAt zone day (monthIndex zone now) then monthIndex zone now-1 else monthIndex zone now

theorem dueMonth_spec (zone) (hday : 1≤day) (now) : resetAt zone day (dueMonth zone day now)≤now ∧
      now<resetAt zone day (dueMonth zone day now+1) := by
  have haround := resetAt_around zone hday now
  unfold dueMonth
  split_ifs with h
  · exact ⟨haround.1,by rwa [sub_add_cancel]⟩
  · exact ⟨not_lt.mp h,haround.2⟩

theorem dueMonth_eq (hday : 1≤day) (h0 : resetAt zone day i≤now)
    (h1 : now<resetAt zone day (i+1)) : dueMonth zone day now=i := by
  obtain ⟨hlow,hhigh⟩ := dueMonth_spec zone hday now
  have ha := (resetAt_strictMono zone hday).lt_iff_lt.mp (lt_of_le_of_lt h0 hhigh)
  have hb := (resetAt_strictMono zone hday).lt_iff_lt.mp (lt_of_le_of_lt hlow h1)
  omega

/-- The reset day does not change between the month in which the window of an instant is due to
start and the month after. -/
def SteadyReset (zone day : Int) (now : Time) : Prop :=
  resetDay day (dueMonth zone day now)=resetDay day (dueMonth zone day now+1)

instance (zone day : Int) (now : Time) : Decidable (SteadyReset zone day now) :=
  inferInstanceAs (Decidable (_ = _))

theorem resetDay_eq_iff (day i j) :
    resetDay day i=resetDay day j ↔ resetDay day i≤ monthLength j ∧ resetDay day j≤ monthLength i := by
  unfold resetDay
  omega

/-- The code starts the window in the due month, unless the reset day of the month before is an
earlier one. -/
theorem startMonth_eq (zone day) (now) : startMonth zone day now=
      if now<resetAt zone day (monthIndex zone now) ∧
          monthLength (dueMonth zone day now)<resetDay day (dueMonth zone day now+1) then
        dueMonth zone day now+1 else dueMonth zone day now := by
  unfold startMonth dueMonth
  dsimp only
  by_cases h : now<resetAt zone day (monthIndex zone now)
  · simp only [h,if_true,true_and,sub_add_cancel]
    split_ifs <;> omega
  · simp only [h,if_false,false_and]

theorem startMonth_resetAt (hday : 1≤day) (i) : startMonth zone day (resetAt zone day i)=i := by
  unfold startMonth
  rw [monthIndex_resetAt hday]
  simp

theorem startMonth_of_steady (hday : 1≤day) (h : resetDay day i=resetDay day (i+1))
    (h0 : resetAt zone day i≤now) (h1 : now<resetAt zone day (i+1)) :
    startMonth zone day now=i := by
  have hrange := resetDay_range hday i
  rw [startMonth_eq,dueMonth_eq hday h0 h1,if_neg (fun hn => by omega)]

/-- The first instant of a month with a later reset than the month before it has: the code
finds no window before that reset. -/
theorem startMonth_of_later (zone) (hday : 1≤day) (h : monthLength i<resetDay day (i+1)) :
    resetAt zone day i≤ midnight zone (monthStart (i+1)) ∧
    midnight zone (monthStart (i+1))<resetAt zone day (i+1) ∧
    startMonth zone day (midnight zone (monthStart (i+1)))=i+1 := by
  have hlen := monthLength_bounds i
  have hrange := resetDay_range hday i
  have hrange' := resetDay_range hday (i+1)
  have hsucc := monthStart_succ i
  have hsucc' := monthStart_succ (i+1)
  have hlocal := (localDay_midnight zone (monthStart (i+1)) le_rfl (show 0<24*hour by decide)).1
  rw [add_zero] at hlocal
  have hindex : monthIndex zone (midnight zone (monthStart (i+1)))=i+1 :=
    monthIndex_eq (by omega) (by omega)
  have hlow : resetAt zone day i≤ midnight zone (monthStart (i+1)) :=
    midnight_le_iff.mpr (by omega)
  have hhigh : midnight zone (monthStart (i+1))<resetAt zone day (i+1) :=
    lt_midnight_iff.mpr (by omega)
  refine ⟨hlow,hhigh,?_⟩
  rw [startMonth_eq,dueMonth_eq hday hlow hhigh,hindex,if_pos ⟨hhigh,h⟩]

theorem resetWindow_tiles_iff (hday : 1≤day) (now) :
    Tiles (fun t => resetWindow zone day (startMonth zone day t)) now ↔
      SteadyReset zone day now := by
  have hmono := resetAt_strictMono zone hday
  obtain ⟨hlow,hhigh⟩ := dueMonth_spec zone hday now
  unfold SteadyReset
  have hstart := startMonth_eq zone day now
  generalize dueMonth zone day now=i at *
  constructor
  · intro h
    by_contra hne
    rw [resetDay_eq_iff,not_and_or,not_le,not_le] at hne
    by_cases hlater : monthLength i<resetDay day (i+1)
    · obtain ⟨hfirst,hbefore,hjump⟩ := startMonth_of_later zone hday hlater
      have hrange := resetDay_range hday i
      have hrange' := resetDay_range hday (i+1)
      by_cases hearly : now<resetAt zone day (monthIndex zone now)
      · have hle := h.le
        rw [if_pos ⟨hearly,hlater⟩] at hstart
        simp only [hstart] at hle
        exact absurd (lt_of_lt_of_le hhigh hle) (lt_irrefl _)
      rw [if_neg (fun hn => hearly hn.1)] at hstart
      have hend : endMonth day i=i+1 := if_pos (by omega)
      have hsame := h.same (midnight zone (monthStart (i+1)))
      simp only [hstart,hjump,resetWindow,hend] at hsame
      have := congrArg TrafficWindow.start (hsame hfirst hbefore)
      exact absurd (hmono.injective this) (by omega)
    · have hlong : monthLength (i+1)<resetDay day i := hne.resolve_right hlater
      rw [if_neg (fun hn => hlater hn.2)] at hstart
      have hend : endMonth day i=i+2 := if_neg (by omega)
      have hsame := h.same (resetAt zone day (i+1))
      simp only [hstart,startMonth_resetAt hday,resetWindow,hend] at hsame
      have := congrArg TrafficWindow.start (hsame (hmono.monotone (by omega)) (hmono (by omega)))
      exact absurd (hmono.injective this) (by omega)
  · intro h
    have hrange := resetDay_range hday (i+1)
    have hend : endMonth day i=i+1 := if_pos (by omega)
    have hnow := startMonth_of_steady hday h hlow hhigh
    constructor
    · simp only [hnow]
      exact hlow
    · simpa only [hnow,resetWindow,hend] using hhigh
    · intro t h0 h1
      simp only [hnow,resetWindow,hend] at h0 h1 ⊢
      rw [startMonth_of_steady hday h h0 h1,hend]
    · simp only [hnow,resetWindow,hend,startMonth_resetAt hday]

/-- Calendar windows tile time exactly where the clamped reset day is the same in both months of a
window. -/
theorem calendar_windows_tile_iff (mode : String) (day : Int) (anchor : Time) (loc : Option Int)
    (hmode : normalizeControllerTrafficResetMode mode=.monthly ∨
      normalizeControllerTrafficResetMode mode=.monthDay) (now : Time) :
    Tiles (fun t => trafficWindow t mode day anchor loc) now ↔
      normalizeControllerTrafficResetMode mode=.monthly ∨
      SteadyReset (locationOr loc) (normalizeControllerTrafficResetDay day) now := by
  have hwindow : (fun t => trafficWindow t mode day anchor loc)=fun t =>
      resetWindow (locationOr loc) (calendarDay mode day)
        (startMonth (locationOr loc) (calendarDay mode day) t) := by
    funext t
    exact trafficWindow_calendar hmode t day anchor loc
  rw [hwindow,resetWindow_tiles_iff (calendarDay_range mode day).1]
  rcases hmode with hmode | hmode
  · simp [hmode,calendarDay,SteadyReset,resetDay_one]
  · simp [hmode,calendarDay]

/-- A reset day that every month has. -/
theorem calendar_windows_tile_fifteenth :
    Tiles (fun t => trafficWindow t "month_day" 15 0 none) (date (8*3600) 2026 3 10 12 0 0 0) :=
  (calendar_windows_tile_iff "month_day" 15 0 none (.inr (by decide)) _).mpr
    (.inr (by decide))

/-- A month back from March 31 is March 3, so the window of mid March starts after its instant. -/
theorem march_window_starts_late : let now := date (8*3600) 2026 3 15 12 0 0 0
    let window := trafficWindow now "month_day" 31 0 none
    window.start=date (8*3600) 2026 3 31 0 0 0 0 ∧ window.finish=date (8*3600) 2026 5 31 0 0 0 0 ∧
      now<window.start := by
  decide

end calendar

end Oboard.Controller
