import Oboard.Controller.AnniversaryWindow

namespace Oboard.Controller

open GoText Calendar GoTime

section

variable (now : Time) (periodKey mode : String) (day : Int) (anchor : Time)

def trafficWindowForPeriodKey (loc : Option Int) : Except String TrafficWindow :=
  let periodKey := trimSpace periodKey
  if periodKey="" then .ok (trafficWindow now mode day anchor loc)
  else if normalizeControllerTrafficResetMode mode=.anniversaryMonth ∨
      normalizeControllerTrafficResetMode mode=.never then
    match parseRFC3339Nano periodKey with
    | none => .error "traffic period_key must use RFC3339Nano for anchored reset cycles"
    | some parsed =>
      if anchor=0 then .error "traffic reset anchor is required"
      else if normalizeControllerTrafficResetMode mode=.never then
        let window := trafficWindow parsed mode day anchor loc
        if window.key≠periodKey then
          .error "traffic period_key does not match the user reset anchor"
        else .ok window
      else
        let (start,finish) := anniversaryTrafficWindow (parsed+1) anchor (locationOr loc)
        if start≠parsed then .error "traffic period_key does not match the user reset cycle"
        else .ok ⟨periodKey,start,finish⟩
  else
    match parseDate (locationOr loc) periodKey with
    | none => .error "traffic period_key must use YYYY-MM-DD"
    | some parsed =>
      let window := trafficWindow (parsed+12*hour) mode day 0 loc
      if window.key≠periodKey then .error "traffic period_key does not match the user reset cycle"
      else .ok window

def trafficWindowForPeriodKeyAligned (hourAligned : Bool) (loc : Option Int) : Except String TrafficWindow :=
  if !hourAligned ∨ normalizeControllerTrafficResetMode mode≠.anniversaryMonth then
    trafficWindowForPeriodKey now periodKey mode day anchor loc
  else if trimSpace periodKey="" then .ok (trafficWindowAligned now mode day anchor true loc)
  else
    match parseRFC3339Nano periodKey with
    | none => .error "traffic period_key must match the anchored reset cycle"
    | some parsed =>
      if anchor=0 then .error "traffic period_key must match the anchored reset cycle"
      else
        let window := trafficWindowAligned (parsed+1) mode day anchor true loc
        if window.key≠periodKey then .error "traffic period_key does not match the user reset cycle"
        else .ok window

end

variable {mode : String} {day : Int} {anchor : Time} {loc : Option Int}

theorem resetAt_succ_le (zone) (hday : 1≤day) (i) :
    resetAt zone day i+24*hour≤resetAt zone day (i+1) := by
  have hrange := resetDay_range hday i
  have hrange' := resetDay_range hday (i+1)
  have hsucc := monthStart_succ i
  simp only [resetAt,midnight,hour,second]
  omega

theorem boundaryAt_succ_le (zone) (anchor) (i) :
    boundaryAt zone anchor i+24*hour≤boundaryAt zone anchor (i+1) := by
  have := resetAt_succ_le zone (dayIn_pos zone anchor) i
  unfold boundaryAt
  omega

def cycleStart (zone : Int) (anchor t : Time) : Int :=
  if t<anchor then anchor
  else if t<boundaryAt zone anchor (monthIndex zone t) then
    boundaryAt zone anchor (monthIndex zone t-1)
  else boundaryAt zone anchor (monthIndex zone t)

theorem cycleStart_eq (hi : monthIndex zone anchor≤ i) (h0 : boundaryAt zone anchor i≤t)
    (h1 : t<boundaryAt zone anchor (i+1)) : cycleStart zone anchor t=boundaryAt zone anchor i := by
  obtain ⟨hanchor,hindex⟩ := startIndex_eq hi h0 h1
  rw [cycleStart,if_neg (not_lt.mpr hanchor),hindex]
  split_ifs <;> rfl

def alignedStart (zone : Int) (anchor t : Time) : Int :=
  let aligned := nextLocalHour anchor zone
  if t<boundaryAt zone aligned (monthIndex zone aligned+1) then anchor
  else cycleStart zone aligned t

section

variable (t : Time) (mode : String) (day : Int) (anchor : Time) (hourAligned : Bool)

/-- The key an instant gets is accepted at any later time, and gives the same window. -/
def RoundTrips (loc : Option Int) : Prop :=
  ∀now,t≤now → trafficWindowForPeriodKeyAligned now
    (trafficWindowAligned t mode day anchor hourAligned loc).key mode day anchor hourAligned loc=
    .ok (trafficWindowAligned t mode day anchor hourAligned loc)

def keyYear (loc : Option Int) : Int :=
  let zone := locationOr loc
  match normalizeControllerTrafficResetMode mode with
  | .never => yearIn 0 anchor
  | .anniversaryMonth =>
    yearIn 0 (if hourAligned then alignedStart zone anchor t else cycleStart zone anchor t)
  | _ => yearIn zone (resetAt zone (calendarDay mode day) (startMonth zone (calendarDay mode day) t))

end

def keyInstant (mode : String) (loc : Option Int) (periodKey : String) : Option Time :=
  if normalizeControllerTrafficResetMode mode=.anniversaryMonth then parseRFC3339Nano periodKey
  else parseDate (locationOr loc) periodKey

/-- If the key is accepted, it is the key of the window that contains the instant it denotes. -/
def KeySound (now : Time) (periodKey mode : String) (day : Int) (anchor : Time) (hourAligned : Bool)
    (loc : Option Int) : Prop :=
  ∀window,trafficWindowForPeriodKeyAligned now periodKey mode day anchor hourAligned loc=.ok window →
    window.key=trimSpace periodKey ∧ ∃at_,keyInstant mode loc (trimSpace periodKey)=some at_ ∧
      trafficWindowAligned at_ mode day anchor hourAligned loc=window ∧
      window.start≤at_ ∧ at_<window.finish

/-- A key that denotes a boundary of an unaligned anniversary cycle is spelled as the controller
spells it. -/
def CanonicalKey (periodKey mode : String) (anchor : Time) (hourAligned : Bool) (loc : Option Int) :
    Prop :=
  normalizeControllerTrafficResetMode mode=.anniversaryMonth → hourAligned=false → anchor≠0 →
    ∀months,0≤ months → parseRFC3339Nano (trimSpace periodKey)=
        some (anniversaryBoundary anchor months (locationOr loc)) →
      formatRFC3339Nano (anniversaryBoundary anchor months (locationOr loc))=trimSpace periodKey

variable {hourAligned : Bool}

theorem roundTrips_of_eq [Decidable p] (h : ∀now,trafficWindowForPeriodKeyAligned now
      (trafficWindowAligned t mode day anchor hourAligned loc).key mode day anchor hourAligned loc=
      if p then .ok (trafficWindowAligned t mode day anchor hourAligned loc) else .error e) :
    RoundTrips t mode day anchor hourAligned loc ↔ p := by
  constructor
  · intro hround
    by_contra hn
    have := hround t le_rfl
    rw [h,if_neg hn] at this
    cases this
  · intro hp now _
    rw [h,if_pos hp]

section

variable (h : hourAligned=false ∨ normalizeControllerTrafficResetMode mode≠.anniversaryMonth)
include h

theorem forPeriodKeyAligned_unaligned :
    trafficWindowForPeriodKeyAligned now periodKey mode day anchor hourAligned loc=
      trafficWindowForPeriodKey now periodKey mode day anchor loc :=
  if_pos (h.imp_left fun h => by simp [h])

theorem windowAligned_unaligned :
    trafficWindowAligned t mode day anchor hourAligned loc=trafficWindow t mode day anchor loc :=
  if_pos (h.imp (fun h => by simp [h]) .inl)

end

variable {periodKey : String}

section calendar

theorem parseDate_resetAt (zone day i) : parseDate zone (formatDate zone (resetAt zone day i))=
      if FourDigits (yearIn zone (resetAt zone day i)) then some (resetAt zone day i) else none := by
  have hlocal := (localDay_midnight zone (monthStart i+resetDay day i-1) le_rfl
    (show 0<24*hour by decide)).1
  rw [Int.add_zero] at hlocal
  rw [parseDate_formatDate,resetAt,hlocal]

theorem startMonth_noon (zone) (hday : 1≤day) (i) :
    startMonth zone day (resetAt zone day i+12*hour)=i := by
  have hindex : monthIndex zone (resetAt zone day i+12*hour)=i :=
    (monthIndex_midnight zone (resetDay_range hday i)
      (show 0≤12*hour ∧ 12*hour<24*hour by decide)).1
  unfold startMonth
  rw [hindex,if_neg (not_lt.mpr (Int.le_add_of_nonneg_right (by decide)))]

theorem trimSpace_resetWindow (zone day i) :
    trimSpace (resetWindow zone day i).key=(resetWindow zone day i).key ∧
      (resetWindow zone day i).key≠"" := by
  refine ⟨trimSpace_unspaced (unspaced_dateText _ _ _),?_⟩
  have := dateText_ne_empty (yearIn zone (resetAt zone day i)) (monthIn zone (resetAt zone day i))
    (dayIn zone (resetAt zone day i)) ""
  rwa [String.append_empty] at this

variable (hmode : normalizeControllerTrafficResetMode mode=.monthly ∨
  normalizeControllerTrafficResetMode mode=.monthDay)

include hmode

theorem forPeriodKey_calendar (hkey : trimSpace periodKey≠"") (now) :
    trafficWindowForPeriodKey now periodKey mode day anchor loc=
      match parseDate (locationOr loc) (trimSpace periodKey) with
      | none => .error "traffic period_key must use YYYY-MM-DD"
      | some parsed =>
        let window := trafficWindow (parsed+12*hour) mode day 0 loc
        if window.key≠trimSpace periodKey then
          .error "traffic period_key does not match the user reset cycle"
        else .ok window := by
  simp only [trafficWindowForPeriodKey]
  rw [if_neg hkey,if_neg (by rcases hmode with h | h <;> simp [h])]

theorem forPeriodKey_resetWindow (now) (i) :
    trafficWindowForPeriodKey now (resetWindow (locationOr loc) (calendarDay mode day) i).key mode day
        anchor loc=
      if FourDigits (yearIn (locationOr loc) (resetAt (locationOr loc) (calendarDay mode day) i)) then
        .ok (resetWindow (locationOr loc) (calendarDay mode day) i)
      else .error "traffic period_key must use YYYY-MM-DD" := by
  obtain ⟨htrim,hne⟩ := trimSpace_resetWindow (locationOr loc) (calendarDay mode day) i
  have hparse := parseDate_resetAt (locationOr loc) (calendarDay mode day) i
  rw [forPeriodKey_calendar hmode (by rwa [htrim]),htrim]
  change (match parseDate _ (formatDate _ (resetAt _ _ i)) with | none => _ | some parsed => _)=_
  rw [hparse]
  split_ifs with h
  · have hnoon := startMonth_noon (locationOr loc) (calendarDay_range mode day).1 i
    simp only [trafficWindow_calendar hmode,hnoon]
    exact if_neg (not_not.mpr rfl)
  · rfl

theorem forPeriodKey_calendar_sound (hkey : trimSpace periodKey≠"")
    (h : trafficWindowForPeriodKey now periodKey mode day anchor loc=.ok window) :
    window.key=trimSpace periodKey ∧
    ∃at_,parseDate (locationOr loc) (trimSpace periodKey)=some at_ ∧
      trafficWindow at_ mode day anchor loc=window ∧ window.start≤at_ ∧ at_<window.finish := by
  rw [forPeriodKey_calendar hmode hkey] at h
  cases hparse : parseDate (locationOr loc) (trimSpace periodKey) with
  | none => simp [hparse] at h
  | some parsed =>
    simp only [hparse,trafficWindow_calendar hmode] at h
    split_ifs at h with hsame
    cases h
    replace hsame := not_not.mp hsame
    have hday := (calendarDay_range mode day).1
    generalize startMonth (locationOr loc) (calendarDay mode day) (parsed+12*hour)=i at *
    -- the key is the date of the reset, so that the instant it denotes is the reset
    have hreset := parseDate_resetAt (locationOr loc) (calendarDay mode day) i
    have hat : parsed=resetAt (locationOr loc) (calendarDay mode day) i := by
      change formatDate _ (resetAt _ _ i)=_ at hsame
      rw [hsame,hparse] at hreset
      split_ifs at hreset
      exact Option.some.inj hreset
    refine ⟨hsame,parsed,rfl,?_,hat.ge,?_⟩
    · rw [trafficWindow_calendar hmode,hat,startMonth_resetAt hday]
    · rw [hat]
      exact resetAt_strictMono _ hday (by unfold endMonth; split_ifs <;> omega)

theorem roundTrips_calendar (hourAligned : Bool) : RoundTrips t mode day anchor hourAligned loc ↔
      FourDigits (keyYear t mode day anchor hourAligned loc) := by
  have hplain : hourAligned=false ∨ normalizeControllerTrafficResetMode mode≠.anniversaryMonth := by
    rcases hmode with h | h <;> simp [h]
  have hyear : keyYear t mode day anchor hourAligned loc=yearIn (locationOr loc) (resetAt
      (locationOr loc) (calendarDay mode day)
      (startMonth (locationOr loc) (calendarDay mode day) t)) := by
    rcases hmode with h | h <;> simp only [keyYear,h]
  refine roundTrips_of_eq (e := "traffic period_key must use YYYY-MM-DD") (fun now => ?_)
  rw [forPeriodKeyAligned_unaligned hplain,windowAligned_unaligned hplain,
    trafficWindow_calendar hmode,forPeriodKey_resetWindow hmode,hyear]

theorem keySound_calendar (hkey : trimSpace periodKey≠"") (hourAligned : Bool) :
    KeySound now periodKey mode day anchor hourAligned loc := by
  have hcalendar : normalizeControllerTrafficResetMode mode≠.anniversaryMonth := by
    rcases hmode with h | h <;> simp [h]
  intro window h
  rw [forPeriodKeyAligned_unaligned (.inr hcalendar)] at h
  obtain ⟨hsame,at_,hparse,hwindow,hle,hlt⟩ := forPeriodKey_calendar_sound hmode hkey h
  refine ⟨hsame,at_,?_,?_,hle,hlt⟩
  · simp only [keyInstant,if_neg hcalendar,hparse]
  · exact (windowAligned_unaligned (.inr hcalendar)).trans hwindow

end calendar

section anchored

theorem trimSpace_rfc :
    trimSpace (formatRFC3339Nano t)=formatRFC3339Nano t ∧ formatRFC3339Nano t≠"" := by
  refine ⟨trimSpace_unspaced (unspaced_formatRFC3339Nano t),?_⟩
  rw [formatRFC3339Nano_eq]
  simp only [String.append_assoc]
  exact dateText_ne_empty _ _ _ _

theorem forPeriodKey_never (hmode : normalizeControllerTrafficResetMode mode=.never)
    (hanchor : anchor≠0) :
    trafficWindowForPeriodKey now (trafficWindow t mode day anchor loc).key mode day anchor loc=
      if FourDigits (yearIn 0 anchor) then .ok (trafficWindow t mode day anchor loc)
      else .error "traffic period_key must use RFC3339Nano for anchored reset cycles" := by
  have hwindow : ∀t,trafficWindow t mode day anchor loc=
      ⟨formatRFC3339Nano anchor,anchor,date (locationOr loc) 9999 12 31 23 59 59 0⟩ := by
    intro t
    simp only [trafficWindow,hmode,if_neg hanchor]
  simp only [trafficWindowForPeriodKey,hwindow,trimSpace_rfc.1,parse_formatRFC3339Nano]
  rw [if_neg trimSpace_rfc.2,if_pos (.inr hmode)]
  by_cases h : FourDigits (yearIn 0 anchor)
  · simp only [if_pos h,if_neg hanchor,if_pos hmode]
    exact if_neg (not_not.mpr rfl)
  · simp only [if_neg h]

theorem anniversaryTrafficWindow_after (zone) (anchor) (hi : monthIndex zone anchor≤ i) :
    anniversaryTrafficWindow (boundaryAt zone anchor i+1) anchor zone=
      (boundaryAt zone anchor i,boundaryAt zone anchor (i+1)) := by
  have hgap := boundaryAt_succ_le zone anchor i
  have hday : 1<24*hour := by decide
  exact anniversaryTrafficWindow_eq hi (show boundaryAt zone anchor i≤boundaryAt zone anchor i+1 by omega)
    (show boundaryAt zone anchor i+1<boundaryAt zone anchor (i+1) by omega)

theorem boundary_of_after {anchor parsed : Int}
    (h : (anniversaryTrafficWindow (parsed+1) anchor zone).1=parsed) :
    ∃i,monthIndex zone anchor≤ i ∧ parsed=boundaryAt zone anchor i := by
  by_cases hbefore : parsed+1<anchor
  · rw [anniversaryTrafficWindow,if_pos hbefore] at h
    change anchor=parsed at h
    omega
  obtain ⟨i,hi,h0,h1⟩ := exists_boundaryAt zone (not_lt.mp hbefore)
  rw [anniversaryTrafficWindow_eq hi h0 h1] at h
  exact ⟨i,hi,h.symm⟩

variable (hmode : normalizeControllerTrafficResetMode mode=.anniversaryMonth) (hanchor : anchor≠0)

include hmode hanchor

theorem forPeriodKey_anniversary (hkey : trimSpace periodKey≠"") :
    trafficWindowForPeriodKey now periodKey mode day anchor loc=
      match parseRFC3339Nano (trimSpace periodKey) with
      | none => .error "traffic period_key must use RFC3339Nano for anchored reset cycles"
      | some parsed =>
        if (anniversaryTrafficWindow (parsed+1) anchor (locationOr loc)).1≠parsed then
          .error "traffic period_key does not match the user reset cycle"
        else .ok ⟨trimSpace periodKey,(anniversaryTrafficWindow (parsed+1) anchor (locationOr loc)).1,
          (anniversaryTrafficWindow (parsed+1) anchor (locationOr loc)).2⟩ := by
  simp only [trafficWindowForPeriodKey]
  rw [if_neg hkey,if_pos (.inl hmode)]
  cases parseRFC3339Nano (trimSpace periodKey) with
  | none => rfl
  | some parsed =>
    dsimp only
    rw [if_neg hanchor,if_neg (by simp [hmode])]

theorem forPeriodKey_boundary (hkey : trimSpace periodKey≠"")
    (hi : monthIndex (locationOr loc) anchor≤ i)
    (hparse : parseRFC3339Nano (trimSpace periodKey)=some (boundaryAt (locationOr loc) anchor i)) :
    trafficWindowForPeriodKey now periodKey mode day anchor loc=
      .ok ⟨trimSpace periodKey,boundaryAt (locationOr loc) anchor i,
        boundaryAt (locationOr loc) anchor (i+1)⟩ := by
  rw [forPeriodKey_anniversary hmode hanchor hkey,hparse]
  simp [anniversaryTrafficWindow_after (locationOr loc) anchor hi]

/-- The windows without alignment are those of the cycle, the first one before the anchor too. -/
theorem trafficWindow_mem_cycle : ∃i,monthIndex (locationOr loc) anchor≤ i ∧
      trafficWindow t mode day anchor loc=cycleWindow (locationOr loc) anchor i ∧
      cycleStart (locationOr loc) anchor t=boundaryAt (locationOr loc) anchor i := by
  have hself := boundaryAt_anchor (locationOr loc) anchor
  by_cases hbefore : t<anchor
  · refine ⟨_,le_rfl,?_,?_⟩
    · simp only [trafficWindow,hmode,if_neg hanchor,anniversaryTrafficWindow,if_pos hbefore,
        anniversaryBoundary_eq,cycleWindow,hself]
    · rw [cycleStart,if_pos hbefore,hself]
  · obtain ⟨i,hi,h0,h1⟩ := exists_boundaryAt (locationOr loc) (not_lt.mp hbefore)
    exact ⟨i,hi,trafficWindow_cycle day hmode hanchor hi h0 h1,cycleStart_eq hi h0 h1⟩

theorem forPeriodKey_cycleWindow (hi : monthIndex (locationOr loc) anchor≤ i) :
    trafficWindowForPeriodKey now (cycleWindow (locationOr loc) anchor i).key mode day anchor loc=
      if FourDigits (yearIn 0 (boundaryAt (locationOr loc) anchor i)) then
        .ok (cycleWindow (locationOr loc) anchor i)
      else .error "traffic period_key must use RFC3339Nano for anchored reset cycles" := by
  obtain ⟨htrim,hne⟩ := trimSpace_rfc
  have hparse := parse_formatRFC3339Nano (boundaryAt (locationOr loc) anchor i)
  change trafficWindowForPeriodKey now (formatRFC3339Nano _) mode day anchor loc=_
  split_ifs with h
  · rw [if_pos h,← htrim] at hparse
    rw [forPeriodKey_boundary hmode hanchor (by rwa [htrim]) hi hparse,htrim]
    rfl
  · rw [if_neg h,← htrim] at hparse
    rw [forPeriodKey_anniversary hmode hanchor (by rwa [htrim]),hparse]

theorem forPeriodKeyAligned_key (hkey : window.key=formatRFC3339Nano window.start)
    (hafter : trafficWindowAligned (window.start+1) mode day anchor true loc=window) :
    trafficWindowForPeriodKeyAligned now window.key mode day anchor true loc=
      if FourDigits (yearIn 0 window.start) then .ok window
      else .error "traffic period_key must match the anchored reset cycle" := by
  obtain ⟨htrim,hne⟩ := trimSpace_rfc
  unfold trafficWindowForPeriodKeyAligned
  rw [if_neg (by simp [hmode]),if_neg (by rwa [hkey,htrim]),hkey,parse_formatRFC3339Nano]
  by_cases h : FourDigits (yearIn 0 window.start)
  · simp only [if_pos h,if_neg hanchor,hafter]
    exact if_neg (not_not.mpr hkey)
  · simp only [if_neg h]

theorem trafficWindowAligned_start (day) (loc) (t)
    (hwindow : trafficWindowAligned t mode day anchor true loc=window) :
    window.key=formatRFC3339Nano window.start ∧ window.start<window.finish ∧
    trafficWindowAligned window.start mode day anchor true loc=window ∧
    trafficWindowAligned (window.start+1) mode day anchor true loc=window ∧
    window.start=alignedStart (locationOr loc) anchor t := by
  obtain ⟨aligned,haligned⟩ : ∃a : Int,a=nextLocalHour anchor (locationOr loc) := ⟨_,rfl⟩
  have hday : 1<24*hour := by decide
  have hgap := boundaryAt_succ_le (locationOr loc) aligned
  unfold alignedStart
  rw [← haligned]
  have hmono := boundaryAt_strictMono (locationOr loc) aligned
  have hself := boundaryAt_anchor (locationOr loc) aligned
  by_cases hin : t<boundaryAt (locationOr loc) aligned (monthIndex (locationOr loc) aligned+1)
  · rw [if_pos hin]
    rw [trafficWindowAligned_first day hmode hanchor haligned hin] at hwindow
    subst hwindow
    have hlater : anchor≤aligned := haligned ▸ le_nextLocalHour anchor (locationOr loc)
    have hroom := hgap (monthIndex (locationOr loc) aligned)
    rw [hself] at hroom
    have hfirst := lt_of_lt_of_le (Int.add_lt_add_of_le_of_lt hlater hday) hroom
    have hstart := lt_trans (Int.lt_succ anchor) hfirst
    exact ⟨rfl,hstart,trafficWindowAligned_first day hmode hanchor haligned hstart,
      trafficWindowAligned_first day hmode hanchor haligned hfirst,rfl⟩
  · rw [if_neg hin]
    have hfrom : aligned≤t := hself.symm.trans_le
      ((hmono.monotone (Int.le_add_of_nonneg_right (by decide))).trans (not_lt.mp hin))
    obtain ⟨i,hi,h0,h1⟩ := exists_boundaryAt (locationOr loc) hfrom
    have hlate : monthIndex (locationOr loc) aligned+1≤ i :=
      Int.lt_add_one_iff.mp (hmono.lt_iff_lt.mp (lt_of_le_of_lt (not_lt.mp hin) h1))
    rw [trafficWindowAligned_cycle day hmode hanchor haligned hlate h0 h1] at hwindow
    subst hwindow
    have hroom := hgap i
    have hnext : boundaryAt (locationOr loc) aligned i+1<boundaryAt (locationOr loc) aligned (i+1) := by
      omega
    have hstart := lt_trans (Int.lt_succ _) hnext
    exact ⟨rfl,hstart,trafficWindowAligned_cycle day hmode hanchor haligned hlate le_rfl hstart,
      trafficWindowAligned_cycle day hmode hanchor haligned hlate (Int.lt_succ _).le hnext,
      (cycleStart_eq hi h0 h1).symm⟩

theorem roundTrips_anniversary (hourAligned : Bool) : RoundTrips t mode day anchor hourAligned loc ↔
      FourDigits (keyYear t mode day anchor hourAligned loc) := by
  simp only [keyYear,hmode]
  cases hourAligned with
  | false =>
    obtain ⟨i,hi,hwindow,hstart⟩ := trafficWindow_mem_cycle hmode hanchor
    refine roundTrips_of_eq
      (e := "traffic period_key must use RFC3339Nano for anchored reset cycles") (fun now => ?_)
    rw [forPeriodKeyAligned_unaligned (.inl rfl),windowAligned_unaligned (.inl rfl),hwindow,
      forPeriodKey_cycleWindow hmode hanchor hi]
    simp [hstart]
  | true =>
    obtain ⟨hkey,-,-,hafter,hstart⟩ := trafficWindowAligned_start hmode hanchor day loc t rfl
    refine roundTrips_of_eq (e := "traffic period_key must match the anchored reset cycle")
      (fun now => ?_)
    rw [forPeriodKeyAligned_key hmode hanchor hkey hafter,hstart]
    simp

end anchored

theorem roundTrips_iff (hanchor : anchor≠0) (hourAligned : Bool) :
    RoundTrips t mode day anchor hourAligned loc ↔
      FourDigits (keyYear t mode day anchor hourAligned loc) := by
  cases hmode : normalizeControllerTrafficResetMode mode with
  | monthly => exact roundTrips_calendar (.inl hmode) hourAligned
  | monthDay => exact roundTrips_calendar (.inr hmode) hourAligned
  | anniversaryMonth => exact roundTrips_anniversary hmode hanchor hourAligned
  | never =>
    have hplain : hourAligned=false ∨ normalizeControllerTrafficResetMode mode≠.anniversaryMonth := by
      simp [hmode]
    simp only [keyYear,hmode]
    refine roundTrips_of_eq
      (e := "traffic period_key must use RFC3339Nano for anchored reset cycles") (fun now => ?_)
    rw [forPeriodKeyAligned_unaligned hplain,windowAligned_unaligned hplain,
      forPeriodKey_never hmode hanchor]

section

variable (hmode : normalizeControllerTrafficResetMode mode=.anniversaryMonth)
  (hkey : trimSpace periodKey≠"") (now : Time)
include hmode hkey

theorem keySound_aligned : KeySound now periodKey mode day anchor true loc := by
  intro window h
  unfold trafficWindowForPeriodKeyAligned at h
  rw [if_neg (by simp [hmode]),if_neg hkey] at h
  cases hparse : parseRFC3339Nano periodKey with
  | none => simp [hparse] at h
  | some parsed =>
    simp only [hparse] at h
    generalize hafter : trafficWindowAligned (parsed+1) mode day anchor true loc=found at h
    split_ifs at h with hanchor hsame
    replace hsame := not_not.mp hsame
    obtain rfl : found=window := Except.ok.inj h
    obtain ⟨hrfc,hlt,hat,-,-⟩ := trafficWindowAligned_start hmode hanchor day loc (parsed+1) hafter
    have hread := parse_formatRFC3339Nano found.start
    rw [← hrfc,hsame,hparse] at hread
    split_ifs at hread
    have hparsed : parsed=found.start := Option.some.inj hread
    have htrim : trimSpace periodKey=periodKey := by
      rw [← hsame,hrfc]
      exact trimSpace_rfc.1
    refine ⟨hsame.trans htrim.symm,parsed,?_,?_,?_,?_⟩
    · rw [htrim,keyInstant,if_pos hmode,hparse]
    · rw [hparsed]
      exact hat
    · exact hparsed.ge
    · rw [hparsed]
      exact hlt

/-- Without alignment a key is accepted by the instant it denotes, however it is spelled. -/
theorem keySound_unaligned : KeySound now periodKey mode day anchor false loc ↔
      CanonicalKey periodKey mode anchor false loc := by
  simp only [KeySound,forPeriodKeyAligned_unaligned (.inl rfl),windowAligned_unaligned (.inl rfl),
    keyInstant,if_pos hmode]
  constructor
  · intro h _ _ hanchor months hmonths hparse
    rw [anniversaryBoundary_eq] at hparse ⊢
    have hi : monthIndex (locationOr loc) anchor≤ monthIndex (locationOr loc) anchor+months := by omega
    obtain ⟨-,at_,hat,hwindow,-,-⟩ := h _ (forPeriodKey_boundary hmode hanchor hkey hi hparse)
    obtain rfl := Option.some.inj (hparse.symm.trans hat)
    rw [trafficWindow_cycle day hmode hanchor hi le_rfl
      (boundaryAt_strictMono (locationOr loc) anchor (Int.lt_succ _))] at hwindow
    exact (congrArg TrafficWindow.key hwindow :)
  · intro h window haccepted
    by_cases hanchor : anchor=0
    · simp only [trafficWindowForPeriodKey,if_neg hkey,hmode,true_or,if_true,hanchor] at haccepted
      split at haccepted <;> cases haccepted
    rw [forPeriodKey_anniversary hmode hanchor hkey] at haccepted
    cases hparse : parseRFC3339Nano (trimSpace periodKey) with
    | none => simp [hparse] at haccepted
    | some parsed =>
      simp only [hparse] at haccepted
      split_ifs at haccepted with hsame
      obtain ⟨i,hi,rfl⟩ := boundary_of_after (not_not.mp hsame)
      rw [anniversaryTrafficWindow_after _ _ hi] at haccepted
      obtain rfl := Except.ok.inj haccepted
      have hmono := boundaryAt_strictMono (locationOr loc) anchor (Int.lt_succ i)
      have hindex : monthIndex (locationOr loc) anchor+(i-monthIndex (locationOr loc) anchor)=i := by
        omega
      have hcanonical := h hmode rfl hanchor (i-monthIndex (locationOr loc) anchor) (by omega)
      rw [anniversaryBoundary_eq,hindex] at hcanonical
      refine ⟨rfl,_,rfl,?_,le_rfl,hmono⟩
      rw [trafficWindow_cycle day hmode hanchor hi le_rfl hmono,cycleWindow,hcanonical hparse]

end

/-- Keys round-trip exactly where the year has four digits, and are sound exactly where they are
canonical. -/
theorem period_keys_round_trip_iff (mode : String) (day : Int) (anchor : Time) (hourAligned : Bool)
    (loc : Option Int) : (anchor≠0 → ∀t,RoundTrips t mode day anchor hourAligned loc ↔
      FourDigits (keyYear t mode day anchor hourAligned loc)) ∧
    (normalizeControllerTrafficResetMode mode≠.never → ∀now periodKey,trimSpace periodKey≠"" →
      (KeySound now periodKey mode day anchor hourAligned loc ↔
        CanonicalKey periodKey mode anchor hourAligned loc)) := by
  refine ⟨fun hanchor t => roundTrips_iff hanchor hourAligned,fun hnever now periodKey hkey => ?_⟩
  cases hmode : normalizeControllerTrafficResetMode mode with
  | monthly =>
    exact iff_of_true (keySound_calendar (.inl hmode) hkey hourAligned) (by simp [CanonicalKey,hmode])
  | monthDay =>
    exact iff_of_true (keySound_calendar (.inr hmode) hkey hourAligned) (by simp [CanonicalKey,hmode])
  | never => exact absurd hmode hnever
  | anniversaryMonth =>
    cases hourAligned with
    | false => exact keySound_unaligned hmode hkey now
    | true => exact iff_of_true (keySound_aligned hmode hkey now) (by simp [CanonicalKey])

/-- The cycle of a purchase at 14:11:23 in Shanghai. -/
theorem period_keys_round_trip_anniversary : let anchor := date (8*3600) 2026 10 14 14 11 23 0
    RoundTrips (date (8*3600) 2026 12 1 0 0 0 0) "anniversary_month" 1 anchor false none ∧
      KeySound anchor "2026-10-14T06:11:23Z" "anniversary_month" 1 anchor true none := by
  intro anchor
  have hanchor : anchor≠0 := by decide
  refine ⟨((period_keys_round_trip_iff "anniversary_month" 1 anchor false none).1 hanchor _).mpr ?_,
    ((period_keys_round_trip_iff "anniversary_month" 1 anchor true none).2 ?_ _ _ ?_).mpr ?_⟩
  · decide
  · decide
  · decide
  · exact fun _ h => absurd h (by decide)

/-- A boundary spelled with its local offset is a second key of its window, and year 10000 is
refused. -/
theorem respelled_key_accepted : let anchor := date (8*3600) 2026 10 14 14 0 0 0
    let accepted := trafficWindowForPeriodKeyAligned anchor "2026-10-14T14:00:00+08:00"
      "anniversary_month" 1 anchor false none
    accepted.toOption.map TrafficWindow.key=some "2026-10-14T14:00:00+08:00" ∧
    accepted.toOption.map TrafficWindow.start=some anchor ∧
    (trafficWindowAligned anchor "anniversary_month" 1 anchor false none).key=
      "2026-10-14T06:00:00Z" ∧
    (trafficWindowForPeriodKeyAligned (date 0 10000 1 1 0 0 0 0)
      (trafficWindowAligned (date 0 10000 1 1 0 0 0 0) "monthly" 1 anchor false (some 0)).key
      "monthly" 1 anchor false (some 0)).toOption=none := by
  decide +kernel

end Oboard.Controller
