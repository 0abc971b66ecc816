import Oboard.Framework.GoText
import Mathlib.Data.Int.SuccPred
import Mathlib.Data.Int.ConditionallyCompleteOrder
import Mathlib.Tactic.IntervalCases

namespace Oboard.Calendar

open GoText

/-- The first day of a month. Months count on from January of year 0, days from the start of
year 1. -/
def monthStart (month : Int) : Int :=
  let year := (month-2)/12
  365*year+year/4-year/100+year/400+(153*((month-2)%12)+2)/5-306

def leapYear (year : Int) : Bool := year%4=0 && (year%100≠0 || year%400=0)

def monthLength (month : Int) : Int :=
  if month%12=1 then if leapYear (month/12) then 29 else 28
  else if month%12=3 ∨ month%12=5 ∨ month%12=8 ∨ month%12=10 then 30
  else 31

theorem monthLength_bounds (month) : 28≤ monthLength month ∧ monthLength month≤31 := by
  unfold monthLength
  split_ifs <;> omega

/-- A leap year adds a day. -/
theorem leapDays_succ (year : Int) : (year+1)/4-(year+1)/100+(year+1)/400=
    year/4-year/100+year/400+if leapYear (year+1) then 1 else 0 := by
  have h4 : (year+1)/4=year/4+if (year+1)%4=0 then 1 else 0 := by split_ifs <;> omega
  have h100 : (year+1)/100=year/100+if (year+1)%100=0 then 1 else 0 := by split_ifs <;> omega
  have h400 : (year+1)/400=year/400+if (year+1)%400=0 then 1 else 0 := by split_ifs <;> omega
  have hcentury : (year+1)%100=0 → (year+1)%4=0 := by omega
  have hera : (year+1)%400=0 → (year+1)%100=0 := by omega
  rw [h4,h100,h400]
  grind [leapYear]

theorem monthStart_succ (month) : monthStart (month+1)=monthStart month+monthLength month := by
  obtain ⟨year,r,rfl,h0,h12⟩ : ∃year r : Int,month=12*year+r+2 ∧ 0≤r ∧ r<12 :=
    ⟨(month-2)/12,(month-2)%12,by omega,by omega,by omega⟩
  have hyear : (12*year+r+2-2)/12=year := by omega
  have hmod : (12*year+r+2-2)%12=r := by omega
  simp only [monthStart,monthLength,hyear,hmod]
  by_cases hr : r=11
  · have hnext : (12*year+r+2+1-2)/12=year+1 := by omega
    have hmarch : (12*year+r+2+1-2)%12=0 := by omega
    have hfebruary : (12*year+r+2)/12=year+1 := by omega
    rw [hnext,hmarch,hfebruary,hr,if_pos (by omega)]
    have := leapDays_succ year
    split_ifs at this ⊢ <;> omega
  · have hnext : (12*year+r+2+1-2)/12=year := by omega
    have hsucc : (12*year+r+2+1-2)%12=r+1 := by omega
    have hmonth : (12*year+r+2)%12=(r+2)%12 := by omega
    rw [hnext,hsucc,hmonth,if_neg (by omega : ¬(r+2)%12=1)]
    interval_cases r <;> simp at hr ⊢ <;> omega

theorem monthStart_strictMono : StrictMono monthStart :=
  strictMono_int_of_lt_succ fun month => by
    have := monthStart_succ month
    have := monthLength_bounds month
    omega

/-- A day of a span of 400 years that begins in March, by centuries, leap cycles and years. -/
theorem era_digits {doe : Int} (h0 : 0≤doe) (h1 : doe<146097) :
    ∃c q y d : Int,doe=36524*c+1461*q+365*y+d ∧ 0≤c ∧ c≤3 ∧ 0≤q ∧ q≤24 ∧ 0≤y ∧ y≤3 ∧ 0≤d ∧
      (d≤364 ∨ d=365 ∧ y=3 ∧ (q<24 ∨ c=3)) := by
  obtain ⟨c,hc⟩ : ∃c,c=min (doe/36524) 3 := ⟨_,rfl⟩
  obtain ⟨q,hq⟩ : ∃q,q=(doe-36524*c)/1461 := ⟨_,rfl⟩
  obtain ⟨y,hy⟩ : ∃y,y=min ((doe-36524*c-1461*q)/365) 3 := ⟨_,rfl⟩
  exact ⟨c,q,y,doe-36524*c-1461*q-365*y,by omega⟩

theorem yearOfEra_eq {c q y d : Int} (hc : 0≤c ∧ c≤3) (hq : 0≤q ∧ q≤24) (hy : 0≤y ∧ y≤3) (hd : 0≤d)
    (hlast : d≤364 ∨ d=365 ∧ y=3 ∧ (q<24 ∨ c=3)) {doe : Int} (h : doe=36524*c+1461*q+365*y+d) :
    (doe-doe/1460+doe/36524-doe/146096)/365=100*c+4*q+y := by
  by_cases hend : doe=146096
  · subst hend
    omega
  -- the corrections count the whole leap cycles, one of them perhaps a day early
  have hcentury : doe/36524=c := by omega
  have hera : doe/146096=0 := by omega
  have hcycle : doe/1460=25*c+q ∨ doe/1460=25*c+q+1 ∧ 1340≤365*y+d := by omega
  have hsplit : doe=365*(100*c+4*q+y)+(24*c+q+d) := by omega
  rw [hcentury,hera]
  rcases hcycle with he | ⟨he,hlate⟩
  · rw [he]
    omega
  · rw [he]
    omega

theorem monthStart_era (era) {c q y mp : Int} (hc : 0≤c ∧ c≤3) (hq : 0≤q ∧ q≤24)
    (hy : 0≤y ∧ y≤3) (hmp : 0≤ mp ∧ mp≤11) : monthStart (12*(100*c+4*q+y+era*400)+mp+2)=
      146097*era+36524*c+1461*q+365*y+(153*mp+2)/5-306 := by
  have hyear : (12*(100*c+4*q+y+era*400)+mp+2-2)/12=100*c+4*q+y+era*400 := by omega
  have hmod : (12*(100*c+4*q+y+era*400)+mp+2-2)%12=mp := by omega
  simp only [monthStart,hyear,hmod]
  omega

theorem march_month {d mp : Int} (h0 : 0≤d) (h1 : d≤365) (hmp : mp=(5*d+2)/153) :
    0≤ mp ∧ mp≤11 ∧ (153*mp+2)/5≤d ∧ (mp≤10 → d<(153*(mp+1)+2)/5) := by
  omega

/-- February ends the year that begins in March, on its 366th day if it is a leap year. -/
theorem february_length {era c q y d : Int} (hq : 0≤q ∧ q≤24) (hy : 0≤y ∧ y≤3)
    (hlast : d≤364 ∨ d=365 ∧ y=3 ∧ (q<24 ∨ c=3)) :
    d-337+1≤ monthLength (12*(100*c+4*q+y+era*400)+11+2) := by
  have hmod : (12*(100*c+4*q+y+era*400)+11+2)%12=1 := by omega
  have hyear : (12*(100*c+4*q+y+era*400)+11+2)/12=100*c+4*q+y+era*400+1 := by omega
  rw [monthLength,if_pos hmod,hyear]
  rcases hlast with hd | ⟨rfl,rfl,hleap⟩
  · split_ifs <;> omega
  have hleap' : leapYear (100*c+4*q+3+era*400+1)=true := by
    simp only [leapYear,Bool.and_eq_true,Bool.or_eq_true,decide_eq_true_eq]
    omega
  rw [if_pos hleap']
  omega

theorem civil_spec {days year month day : Int} (h : civil days=(year,month,day)) :
    1≤ month ∧ month≤12 ∧ days=monthStart (12*year+month-1)+day-1 ∧
      1≤day ∧ day≤ monthLength (12*year+month-1) := by
  have hdoe : 0≤(days+306)%146097 ∧ (days+306)%146097<146097 := by omega
  have hdays : days+306=146097*((days+306)/146097)+(days+306)%146097 := by omega
  simp only [civil] at h
  generalize (days+306)/146097=era at h hdays
  generalize (days+306)%146097=doe at h hdoe hdays
  obtain ⟨c,q,y,d,hdigits,hc0,hc3,hq0,hq24,hy0,hy3,hd0,hlast⟩ := era_digits hdoe.1 hdoe.2
  have hyoe := yearOfEra_eq ⟨hc0,hc3⟩ ⟨hq0,hq24⟩ ⟨hy0,hy3⟩ hd0 hlast hdigits
  have hcycles : (100*c+4*q+y)/4=25*c+q := by omega
  have hcenturies : (100*c+4*q+y)/100=c := by omega
  have hdoy : doe-(365*(100*c+4*q+y)+(25*c+q)-c)=d := by linarith
  rw [hyoe,hcycles,hcenturies,hdoy] at h
  obtain ⟨mp,hmp⟩ : ∃mp,mp=(5*d+2)/153 := ⟨_,rfl⟩
  obtain ⟨hmp0,hmp11,hlow,hhigh⟩ := march_month hd0 (hlast.elim (·.trans (by decide)) (·.1.le)) hmp
  rw [← hmp] at h
  simp only [Prod.mk.injEq] at h
  obtain ⟨hyear,hmonth,hday⟩ := h
  have hrange : 1≤ month ∧ month≤12 := by split_ifs at hmonth <;> omega
  have hindex : 12*year+month-1=12*(100*c+4*q+y+era*400)+mp+2 := by
    split_ifs at hyear hmonth <;> omega
  have hstart := monthStart_era era ⟨hc0,hc3⟩ ⟨hq0,hq24⟩ ⟨hy0,hy3⟩ ⟨hmp0,hmp11⟩
  rw [hindex]
  refine ⟨hrange.1,hrange.2,by omega,by omega,?_⟩
  rcases hmp11.lt_or_eq with hmp' | rfl
  · have hnext := monthStart_era era ⟨hc0,hc3⟩ ⟨hq0,hq24⟩ ⟨hy0,hy3⟩
      (show 0≤ mp+1 ∧ mp+1≤11 by omega)
    have hsucc := monthStart_succ (12*(100*c+4*q+y+era*400)+mp+2)
    rw [show 12*(100*c+4*q+y+era*400)+mp+2+1=12*(100*c+4*q+y+era*400)+(mp+1)+2 by omega] at hsucc
    have := hhigh (Int.le_of_lt_add_one hmp')
    omega
  · rw [← hday]
    exact february_length ⟨hq0,hq24⟩ ⟨hy0,hy3⟩ hlast

section zone

variable {zone t : Int}

section

variable (zone t : Int)

def localDay : Int := (t+zone*second)/(24*hour)

def localClock : Int := (t+zone*second)%(24*hour)

def yearIn : Int := (civil (localDay zone t)).1
def monthIn : Int := (civil (localDay zone t)).2.1
def dayIn : Int := (civil (localDay zone t)).2.2
def hourIn : Int := localClock zone t/hour
def minuteIn : Int := localClock zone t%hour/(60*second)
def secondIn : Int := localClock zone t%(60*second)/second
def nanosecondIn : Int := localClock zone t%second

end

def midnight (zone days : Int) : Int := days*(24*hour)-zone*second

/-- The instant of a local date. A month outside 1 to 12 or a day outside its month runs over. -/
def date (zone year month day hours minutes seconds nanoseconds : Int) : Int :=
  midnight zone (monthStart (12*year+month-1)+day-1)+
    hours*hour+minutes*(60*second)+seconds*second+nanoseconds

def addDate (zone t : Int) (years months days : Int) : Int :=
  date zone (yearIn zone t+years) (monthIn zone t+months) (dayIn zone t+days) (hourIn zone t)
    (minuteIn zone t) (secondIn zone t) (nanosecondIn zone t)

def monthIndex (zone t : Int) : Int := 12*yearIn zone t+monthIn zone t-1

theorem localDay_spec (zone t) :
    t=midnight zone (localDay zone t)+localClock zone t ∧ 0≤localClock zone t ∧
      localClock zone t<24*hour := by
  simp only [localDay,localClock,midnight,hour,second]
  omega

theorem localDay_midnight (zone days) (h0 : 0≤clock) (h1 : clock<24*hour) :
    localDay zone (midnight zone days+clock)=days ∧
      localClock zone (midnight zone days+clock)=clock := by
  simp only [localDay,localClock,midnight,hour,second] at *
  omega

theorem midnight_le_iff : midnight zone days≤t ↔ days≤localDay zone t := by
  simp only [localDay,midnight,hour,second]
  omega

theorem lt_midnight_iff : t< midnight zone days ↔ localDay zone t<days := by
  rw [← not_le,midnight_le_iff,not_le]

theorem clock_split (zone t) :
    hourIn zone t*hour+minuteIn zone t*(60*second)+secondIn zone t*second+nanosecondIn zone t=
      localClock zone t := by
  have := (localDay_spec zone t).2.1
  simp only [hourIn,minuteIn,secondIn,nanosecondIn,hour,second]
  omega

theorem civil_localDay (zone t) :
    civil (localDay zone t)=(yearIn zone t,monthIn zone t,dayIn zone t) := rfl

theorem monthIndex_spec (zone t) :
    localDay zone t=monthStart (monthIndex zone t)+dayIn zone t-1 ∧ 1≤dayIn zone t ∧
      dayIn zone t≤ monthLength (monthIndex zone t) :=
  (civil_spec (civil_localDay zone t)).2.2

theorem monthIn_range (zone t) : 1≤ monthIn zone t ∧ monthIn zone t≤12 :=
  ⟨(civil_spec (civil_localDay zone t)).1,(civil_spec (civil_localDay zone t)).2.1⟩

theorem monthIndex_eq (h0 : monthStart i≤localDay zone t)
    (h1 : localDay zone t< monthStart (i+1)) : monthIndex zone t=i := by
  obtain ⟨hday,hlow,hhigh⟩ := monthIndex_spec zone t
  have hsucc := monthStart_succ (monthIndex zone t)
  have ha : i< monthIndex zone t+1 := monthStart_strictMono.lt_iff_lt.mp (by omega)
  have hb : monthIndex zone t< i+1 := monthStart_strictMono.lt_iff_lt.mp (by omega)
  omega

theorem localDay_lt_of_monthIndex_lt (zone)
    (h : monthIndex zone s< monthIndex zone t) : localDay zone s<localDay zone t := by
  obtain ⟨hs,-,hfit⟩ := monthIndex_spec zone s
  obtain ⟨ht,hlow,-⟩ := monthIndex_spec zone t
  have hsucc := monthStart_succ (monthIndex zone s)
  have hmono := monthStart_strictMono.monotone (Int.add_one_le_iff.mpr h)
  omega

theorem lt_of_monthIndex_lt (zone) (h : monthIndex zone s< monthIndex zone t) : s<t :=
  lt_of_lt_of_le (lt_midnight_iff.mpr (localDay_lt_of_monthIndex_lt zone h))
    (midnight_le_iff.mpr le_rfl)

theorem monthIndex_midnight (zone) (hday : 1≤day ∧ day≤ monthLength i)
    (hclock : 0≤clock ∧ clock<24*hour) :
    monthIndex zone (midnight zone (monthStart i+day-1)+clock)=i ∧
      dayIn zone (midnight zone (monthStart i+day-1)+clock)=day := by
  have hlocal := (localDay_midnight zone (monthStart i+day-1) hclock.1 hclock.2).1
  have hsucc := monthStart_succ i
  have hindex : monthIndex zone (midnight zone (monthStart i+day-1)+clock)=i :=
    monthIndex_eq (by omega) (by omega)
  have hspec := (monthIndex_spec zone (midnight zone (monthStart i+day-1)+clock)).1
  rw [hindex] at hspec
  exact ⟨hindex,by omega⟩

theorem monthIndex_overflow (zone) (hday : 1≤day ∧ day≤31) :
    monthIndex zone (midnight zone (monthStart i+day-1))=
      if day≤ monthLength i then i else i+1 := by
  have hlocal := (localDay_midnight zone (monthStart i+day-1) le_rfl (show 0<24*hour by decide)).1
  have hlen := monthLength_bounds i
  have hnext := monthLength_bounds (i+1)
  have hsucc := monthStart_succ i
  have hsucc' := monthStart_succ (i+1)
  rw [Int.add_zero] at hlocal
  split_ifs with hfit
  · exact monthIndex_eq (by omega) (by omega)
  · exact monthIndex_eq (by omega) (by omega)

theorem date_of_month (zone t months day hours minutes seconds nanoseconds) :
    date zone (yearIn zone t) (monthIn zone t+months) day hours minutes seconds nanoseconds=
      midnight zone (monthStart (monthIndex zone t+months)+day-1)+
        (hours*hour+minutes*(60*second)+seconds*second+nanoseconds) := by
  have hindex : 12*yearIn zone t+(monthIn zone t+months)-1=monthIndex zone t+months := by
    unfold monthIndex
    omega
  rw [date,hindex]
  omega

theorem date_midnight (zone t day) : date zone (yearIn zone t) (monthIn zone t) day 0 0 0 0=
      midnight zone (monthStart (monthIndex zone t)+day-1) := by
  have h := date_of_month zone t 0 day 0 0 0 0
  simpa using h

theorem addDate_midnight (zone) (hday : 1≤day ∧ day≤ monthLength i) (months) :
    addDate zone (midnight zone (monthStart i+day-1)) 0 months 0=
      midnight zone (monthStart (i+months)+day-1) := by
  have hzero : (0 : Int)≤0 ∧ 0<24*hour := ⟨le_rfl,by decide⟩
  obtain ⟨hindex,hdayIn⟩ := monthIndex_midnight zone hday hzero
  have hclock := clock_split zone (midnight zone (monthStart i+day-1)+0)
  rw [(localDay_midnight _ _ hzero.1 hzero.2).2] at hclock
  rw [Int.add_zero] at hindex hdayIn hclock
  simp only [addDate,Int.add_zero]
  rw [date_of_month,hclock,hindex,hdayIn,Int.add_zero]

end zone

end Oboard.Calendar
