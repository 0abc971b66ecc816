import Oboard.Framework.Calendar
import Oboard.Framework.GoNumbers

namespace Oboard.GoTime

open GoText GoNumbers Calendar List Option Char

def formatDate (zone : Int) (t : Time) : String :=
  formatYear (yearIn zone t)++"-"++padNat 2 (monthIn zone t).toNat++"-"++
  padNat 2 (dayIn zone t).toNat

def readFixed : Nat → Nat → List Char → Option (Nat×List Char)
  | 0,n,cs => some (n,cs)
  | _+1,_,[] => none
  | width+1,n,c::cs => if c.isDigit then readFixed width (10*n+(c.toNat-48)) cs else none

def expect (c : Char) : List Char → Option (List Char)
  | [] => none
  | d::cs => if d = c then some cs else none

def readDate (cs : List Char) : Option ((Int×Int×Int)×List Char) := do
  let (year,cs) ← readFixed 4 0 cs
  let cs ← expect '-' cs
  let (month,cs) ← readFixed 2 0 cs
  let cs ← expect '-' cs
  let (day,cs) ← readFixed 2 0 cs
  if 1≤ month ∧ month≤12 ∧ 1≤day ∧ (day : Int)≤ monthLength (12*year+month-1) then
    return ((year,month,day),cs)
  else none

def parseDate (zone : Int) (s : String) : Option Time := do
  let ((year,month,day),cs) ← readDate s.toList
  if cs=[] then return date zone year month day 0 0 0 0 else none

/-- Hours may have one digit or two. -/
def readHour (cs : List Char) : Option (Nat×List Char) :=
  (readFixed 2 0 cs).or (readFixed 1 0 cs)

/-- A fraction of a second after a dot or a comma, cut off after nine digits. -/
def readFraction : List Char → Nat×List Char
  | p::c::cs =>
    if (p = '.' ∨ p = ',') ∧ c.isDigit then
      let digits := (c::cs).takeWhile isDigit
      (Nat.ofDigitChars 10 (digits.take 9) 0*10^(9-digits.length),(c::cs).dropWhile isDigit)
    else (0,p::c::cs)
  | cs => (0,cs)

/-- The seconds by which a zone is ahead of UTC. -/
def readZone : List Char → Option (Int×List Char)
  | [] => none
  | sign::cs =>
    if sign = 'Z' then some (0,cs)
    else if sign = '+' ∨ sign = '-' then do
      let (hours,cs) ← readFixed 2 0 cs
      let cs ← expect ':' cs
      let (minutes,cs) ← readFixed 2 0 cs
      if 24<hours ∨ 60< minutes then none
      else
        let offset : Int := (hours*60+minutes)*60
        return (if sign = '-' then -offset else offset,cs)
    else none

/-- The instant of an RFC 3339 text, as leniently as the standard library of Go reads it. -/
def parseRFC3339Nano (s : String) : Option Time := do
  let ((year,month,day),cs) ← readDate s.toList
  let cs ← expect 'T' cs
  let (hours,cs) ← readHour cs
  let cs ← expect ':' cs
  let (minutes,cs) ← readFixed 2 0 cs
  let cs ← expect ':' cs
  let (seconds,cs) ← readFixed 2 0 cs
  let (nanoseconds,cs) := readFraction cs
  let (zone,cs) ← readZone cs
  if hours<24 ∧ minutes<60 ∧ seconds<60 ∧ cs=[] then
    return date zone year month day hours minutes seconds nanoseconds
  else none

section digits

theorem toList_padNat (width n) : (padNat width n).toList=
      replicate (width-(Nat.toDigits 10 n).length) '0'++Nat.toDigits 10 n := by
  simp [padNat,← String.length_toList]

theorem isDigit_padNat (width n) : ∀c∈(padNat width n).toList,c.isDigit := by
  intro c hc
  rw [toList_padNat,mem_append] at hc
  rcases hc with hc | hc
  · rw [eq_of_mem_replicate hc]
    rfl
  · exact isDigit_toDigits c hc

theorem length_padNat (hw : 0<width) (h : n<10^width) : (padNat width n).toList.length=width := by
  have := (Nat.length_toDigits_le_iff (by decide) hw).mpr h
  rw [toList_padNat,length_append,length_replicate]
  omega

theorem ofDigitChars_padNat (width n) : Nat.ofDigitChars 10 (padNat width n).toList 0=n := by
  rw [toList_padNat,Nat.ofDigitChars_append,Nat.ofDigitChars_replicate_zero,Nat.mul_zero,
    Nat.ofDigitChars_ten_toDigits]

theorem readFixed_digits (h : ∀c∈digits,c.isDigit) (n) (rest) :
    readFixed digits.length n (digits++rest)=some (Nat.ofDigitChars 10 digits n,rest) := by
  induction digits generalizing n with
  | nil => rfl
  | cons c digits ih =>
    rw [length_cons,cons_append,readFixed,if_pos (h c mem_cons_self),
      ih (fun d hd => h d (mem_cons_of_mem _ hd))]
    rfl

theorem readFixed_padNat (hw : 0<width) (h : n<10^width) (rest) :
    readFixed width 0 ((padNat width n).toList++rest)=some (n,rest) := by
  have hread := readFixed_digits (isDigit_padNat width n) 0 rest
  rwa [length_padNat hw h,ofDigitChars_padNat] at hread

end digits

section dates

/-- A year that its text shows with four digits and no sign. -/
def FourDigits (year : Int) : Prop := 0≤year ∧ year≤9999

instance (year : Int) : Decidable (FourDigits year) := inferInstanceAs (Decidable (_ ∧ _))

theorem expect_self (c) (rest) : expect c (c::rest)=some rest := if_pos rfl

theorem readFixed_formatYear (h : FourDigits year) (rest) :
    readFixed 4 0 ((formatYear year).toList++rest)=some (year.toNat,rest) := by
  obtain ⟨h0,h1⟩ := h
  rw [formatYear,if_neg (not_lt.mpr h0)]
  exact readFixed_padNat (by decide) (by omega) rest

theorem readYear_formatYear (h : ¬FourDigits year) (rest) :
    ((readFixed 4 0 ((formatYear year).toList++rest)).bind (fun r => expect '-' r.2))=none := by
  unfold formatYear
  split_ifs with hneg
  · have hsign : ("-"++padNat 4 year.natAbs).toList=('-' :: (padNat 4 year.natAbs).toList) := by
      simp
    rw [hsign,cons_append,readFixed]
    rfl
  have hbig : 10^4≤year.toNat := by
    unfold FourDigits at h
    omega
  have hlong : 4<(padNat 4 year.toNat).toList.length := by
    have := mt (Nat.length_toDigits_le_iff (by decide) (by decide)).mp
      (not_lt.mpr hbig)
    rw [toList_padNat,length_append]
    omega
  have hdigits := isDigit_padNat 4 year.toNat
  generalize (padNat 4 year.toNat).toList=digits at *
  match digits,hlong with
  | a::b::c::d::e::digits,_ =>
    have hfour : ∀x∈[a,b,c,d],x.isDigit :=
      fun x hx => hdigits x (by simp only [mem_cons] at hx ⊢; tauto)
    have hread := readFixed_digits hfour 0 (e::digits++rest)
    have he : e ≠ '-' := by
      rintro rfl
      exact absurd (hdigits '-' (by simp)) (by decide)
    simp only [cons_append,nil_append,length_cons,length_nil,Nat.zero_add] at hread ⊢
    rw [hread]
    simp [expect,he]

def dateText (year month day : Int) : String :=
  formatYear year++"-"++padNat 2 month.toNat++"-"++padNat 2 day.toNat

theorem readDate_dateText (hmonth : 1≤ month ∧ month≤12)
    (hday : 1≤day ∧ day≤ monthLength (12*year+month-1)) (rest) :
    readDate ((dateText year month day).toList++rest)=
      if FourDigits year then some ((year,month,day),rest) else none := by
  have hlen := monthLength_bounds (12*year+month-1)
  have hdash : "-".toList=[ '-'] := rfl
  simp only [dateText,String.toList_append,append_assoc,readDate,hdash,cons_append, nil_append]
  split_ifs with h
  · have h0 := h.1
    have hyear : year.toNat=year := by omega
    have hmonth' : month.toNat=month := by omega
    have hday' : day.toNat=day := by omega
    have hmonthr := readFixed_padNat (n := month.toNat) (by decide : 0<2) (by omega)
    have hdayr := readFixed_padNat (n := day.toNat) (by decide : 0<2) (by omega)
    simp only [readFixed_formatYear h,expect_self,hmonthr,hdayr,bind_eq_bind,
      bind_some,hyear,hmonth',hday']
    rw [if_pos ⟨by omega,by omega,by omega,hday.2⟩]
    rfl
  · have hstop := readYear_formatYear h ('-' :: ((padNat 2 month.toNat).toList++
      ('-' :: ((padNat 2 day.toNat).toList++rest))))
    rw [bind_eq_none_iff] at hstop
    refine bind_eq_none_iff.mpr (fun r hr => ?_)
    simp only [hstop r hr,bind_eq_bind,bind_none]

theorem formatDate_eq (zone) (t) :
    formatDate zone t=dateText (yearIn zone t) (monthIn zone t) (dayIn zone t) := rfl

theorem parseDate_formatDate (zone) (t) : parseDate zone (formatDate zone t)=
      if FourDigits (yearIn zone t) then some (midnight zone (localDay zone t)) else none := by
  obtain ⟨hlocal,hday⟩ := monthIndex_spec zone t
  have hread := readDate_dateText (monthIn_range zone t) hday []
  rw [append_nil] at hread
  simp only [parseDate,formatDate_eq,hread]
  split_ifs with h
  · have hdate := date_midnight zone t (dayIn zone t)
    rw [← hlocal] at hdate
    simp [hdate]
  · rfl

end dates

section instants

/-- Digits with their trailing zeros dropped, and how many they were. -/
theorem dropZeros_append (digits) :
    ∃k,digits=(digits.reverse.dropWhile (fun c => c = '0')).reverse++replicate k '0' := by
  refine ⟨(digits.reverse.takeWhile (fun c => c = '0')).length,?_⟩
  have hzeros : digits.reverse.takeWhile (fun c => c = '0')=
      replicate (digits.reverse.takeWhile (fun c => c = '0')).length '0' :=
    eq_replicate_of_mem (fun c hc => by simpa using mem_takeWhile_imp hc)
  have hsplit := congrArg reverse
    (takeWhile_append_dropWhile (p := fun c => decide (c = '0')) (l := digits.reverse))
  rw [reverse_append,reverse_reverse,hzeros,reverse_replicate] at hsplit
  exact hsplit.symm

theorem fraction_kept (n) :
    ∃kept k,(padNat 9 n).toList=kept++replicate k '0' ∧ (∀c∈kept,c.isDigit) ∧
      (fraction n).toList=if n=0 then [] else '.' :: kept := by
  obtain ⟨k,hk⟩ := dropZeros_append (padNat 9 n).toList
  refine ⟨_,k,hk,fun c hc => isDigit_padNat 9 n c (hk ▸ mem_append_left _ hc),?_⟩
  unfold fraction
  split_ifs <;> simp

theorem readFraction_fraction (h : n<10^9) (rest) :
    readFraction ((fraction n).toList++ 'Z' :: rest)=(n,'Z' :: rest) := by
  by_cases hn : n=0
  · subst hn
    cases rest <;> rfl
  obtain ⟨kept,k,hk,hkept,htext⟩ := fraction_kept n
  have hlen := length_padNat (by decide) h
  have hvalue := ofDigitChars_padNat 9 n
  rw [htext,if_neg hn]
  rw [hk] at hlen hvalue
  rw [Nat.ofDigitChars_append,Nat.ofDigitChars_replicate_zero] at hvalue
  rw [length_append,length_replicate] at hlen
  match kept with
  | [] =>
    rw [Nat.ofDigitChars_nil] at hvalue
    exact absurd hvalue.symm hn
  | c::kept =>
    have hc := hkept c mem_cons_self
    have htake : (c::(kept++ 'Z' :: rest)).takeWhile isDigit=c::kept := by
      rw [← cons_append,takeWhile_append_of_pos hkept,takeWhile_cons_of_neg (by decide), append_nil]
    have hdrop : (c::(kept++ 'Z' :: rest)).dropWhile isDigit=('Z' :: rest) := by
      rw [← cons_append,dropWhile_append_of_pos hkept,dropWhile_cons_of_neg (by decide)]
    simp only [cons_append,readFraction,hc,true_or,and_self,if_true,htake,hdrop]
    rw [take_of_length_le (by omega)]
    have hpow : 9-(c::kept).length=k := by omega
    rw [hpow,Nat.mul_comm,hvalue]

theorem formatRFC3339Nano_eq (t : Int) :
    formatRFC3339Nano t=dateText (yearIn 0 t) (monthIn 0 t) (dayIn 0 t)++"T"++
      padNat 2 (hourIn 0 t).toNat++":"++padNat 2 (minuteIn 0 t).toNat++":"++
      padNat 2 (secondIn 0 t).toNat++fraction (nanosecondIn 0 t).toNat++"Z" := by
  have hday : t/second/86400=localDay 0 t := by
    simp only [localDay,second,hour]
    omega
  have hclock : ((t/second%86400).toNat/3600=(hourIn 0 t).toNat ∧
      (t/second%86400).toNat/60%60=(minuteIn 0 t).toNat) ∧
      (t/second%86400).toNat%60=(secondIn 0 t).toNat ∧ t%second=nanosecondIn 0 t := by
    simp only [hourIn,minuteIn,secondIn,nanosecondIn,localClock,second,hour]
    omega
  simp only [formatRFC3339Nano,hday,hclock,civil_localDay,dateText]

theorem clock_range (zone) (t) :
    (0≤hourIn zone t ∧ hourIn zone t<24) ∧ (0≤ minuteIn zone t ∧ minuteIn zone t<60) ∧
      (0≤ secondIn zone t ∧ secondIn zone t<60) ∧
      0≤nanosecondIn zone t ∧ nanosecondIn zone t<10^9 := by
  have h := (localDay_spec zone t).2
  simp only [hourIn,minuteIn,secondIn,nanosecondIn,hour,second] at *
  omega

theorem date_parts (t) :
    date 0 (yearIn 0 t) (monthIn 0 t) (dayIn 0 t) (hourIn 0 t) (minuteIn 0 t) (secondIn 0 t)
      (nanosecondIn 0 t)=t := by
  have hdate := date_of_month 0 t 0 (dayIn 0 t) (hourIn 0 t) (minuteIn 0 t) (secondIn 0 t)
    (nanosecondIn 0 t)
  rw [Int.add_zero,Int.add_zero,← (monthIndex_spec 0 t).1,clock_split] at hdate
  rw [hdate]
  exact (localDay_spec 0 t).1.symm

theorem parse_formatRFC3339Nano (t) :
    parseRFC3339Nano (formatRFC3339Nano t)=if FourDigits (yearIn 0 t) then some t else none := by
  have hread := readDate_dateText (monthIn_range 0 t) (monthIndex_spec 0 t).2
  obtain ⟨hh,hm,hs,hn⟩ := clock_range 0 t
  have hT : "T".toList=[ 'T'] := rfl
  have hcolon : ":".toList=[ ':'] := rfl
  have hZ : "Z".toList=[ 'Z'] := rfl
  rw [formatRFC3339Nano_eq]
  simp only [String.toList_append,append_assoc,parseRFC3339Nano,hT,hcolon,hZ,cons_append,
    nil_append,hread]
  split_ifs with h
  · have hhour := readFixed_padNat (n := (hourIn 0 t).toNat) (by decide : 0<2) (by omega)
    have hminute := readFixed_padNat (n := (minuteIn 0 t).toNat) (by decide : 0<2) (by omega)
    have hsecond := readFixed_padNat (n := (secondIn 0 t).toNat) (by decide : 0<2) (by omega)
    have hfraction := readFraction_fraction (n := (nanosecondIn 0 t).toNat) (by omega) []
    have hzone : readZone [ 'Z']=some (0,[]) := rfl
    simp only [bind_eq_bind,bind_some,expect_self,readHour,hhour,some_or,hminute,
      hsecond,hfraction,hzone]
    rw [if_pos ⟨by omega,by omega,by omega,trivial⟩]
    simp only [Int.toNat_of_nonneg,hh.1,hm.1,hs.1,hn.1,date_parts]
    rfl
  · rfl

end instants

section trimmed

def Unspaced (s : String) : Prop := ∀c∈s.toList,isSpace c=false

instance (s : String) : Decidable (Unspaced s) :=
  decidableBAll (isSpace · =false) s.toList

theorem trimSpace_unspaced (h : Unspaced s) : trimSpace s=s := by
  have hdrop : ∀cs : List Char,(∀c∈cs,isSpace c=false) → cs.dropWhile isSpace=cs := by
    intro cs hcs
    cases cs with
    | nil => rfl
    | cons c cs => exact dropWhile_cons_of_neg (by simp [hcs c mem_cons_self])
  rw [trimSpace,hdrop _ h,hdrop _ (fun c hc => h c (mem_reverse.mp hc)),reverse_reverse,
    String.ofList_toList]

theorem Unspaced.append (hs : Unspaced s) (ht : Unspaced t) : Unspaced (s++t) := by
  intro c hc
  rw [String.toList_append,mem_append] at hc
  exact hc.elim (hs c) (ht c)

theorem unspaced_padNat (width n) : Unspaced (padNat width n) :=
  fun c hc => isSpace_of_isDigit (isDigit_padNat width n c hc)

theorem unspaced_formatYear : Unspaced (formatYear year) := by
  unfold formatYear
  split_ifs
  · exact Unspaced.append (by decide) (unspaced_padNat _ _)
  · exact unspaced_padNat _ _

theorem unspaced_fraction (n) : Unspaced (fraction n) := by
  unfold fraction
  split_ifs
  · exact fun c hc => by simp at hc
  refine Unspaced.append (by decide) (fun c hc => unspaced_padNat 9 n c ?_)
  rw [String.toList_ofList,mem_reverse] at hc
  exact mem_reverse.mp ((dropWhile_suffix _).subset hc)

theorem unspaced_dateText (year month day) : Unspaced (dateText year month day) :=
  (((unspaced_formatYear.append (by decide)).append (unspaced_padNat _ _)).append
    (by decide)).append (unspaced_padNat _ _)

theorem unspaced_formatRFC3339Nano (t) : Unspaced (formatRFC3339Nano t) := by
  exact ((((((((unspaced_dateText _ _ _).append (by decide)).append (unspaced_padNat _ _)).append
    (by decide)).append (unspaced_padNat _ _)).append (by decide)).append
    (unspaced_padNat _ _)).append (unspaced_fraction _)).append (by decide)

theorem dateText_ne_empty (year month day) (rest) : dateText year month day++rest≠"" := by
  intro h
  have := congrArg String.toList h
  simp [dateText] at this

end trimmed

section order

variable {p q r s : List Char}

theorem append_lt_append (h : p.length=q.length) : p++r<q++s ↔ p<q ∨ p=q ∧ r<s := by
  induction p generalizing q with
  | nil =>
    cases q with
    | nil => simp
    | cons => cases h
  | cons c p ih =>
    cases q with
    | nil => cases h
    | cons d q =>
      simp only [cons_append,cons_lt_cons_iff,ih (Nat.succ.inj h),cons.injEq]
      tauto

/-- Texts that part before either ends are compared where they part. -/
theorem append_lt_append_of_part (hp : ¬p <+: q) (hq : ¬q <+: p) : p++r<q++s ↔ p<q := by
  induction p generalizing q with
  | nil => exact absurd nil_prefix hp
  | cons c p ih =>
    cases q with
    | nil => exact absurd nil_prefix hq
    | cons d q =>
      simp only [cons_append,cons_lt_cons_iff]
      refine or_congr_right (and_congr_right fun hc => ?_)
      subst hc
      exact ih (fun h => hp (cons_prefix_cons.mpr ⟨rfl,h⟩)) (fun h => hq (cons_prefix_cons.mpr ⟨rfl,h⟩))

theorem ofDigitChars_lt (hp : ∀c∈p,c.isDigit) (hq : ∀c∈q,c.isDigit) (h : p.length=q.length)
    (m n) : Nat.ofDigitChars 10 p m<Nat.ofDigitChars 10 q n ↔ m<n ∨ m=n ∧ p<q := by
  induction p generalizing q m n with
  | nil =>
    cases q with
    | nil => simp
    | cons => cases h
  | cons c p ih =>
    cases q with
    | nil => cases h
    | cons d q =>
      rw [Nat.ofDigitChars_cons,Nat.ofDigitChars_cons,ih (fun x hx => hp x (mem_cons_of_mem _ hx))
        (fun x hx => hq x (mem_cons_of_mem _ hx)) (Nat.succ.inj h),cons_lt_cons_iff]
      have hc := hp c mem_cons_self
      have hd := hq d mem_cons_self
      rw [isDigit_iff_toNat] at hc hd
      rw [show c<d ↔ c.toNat<d.toNat from Iff.rfl,← toNat_inj]
      change 48≤c.toNat ∧ c.toNat≤57 at hc
      change 48≤d.toNat ∧ d.toNat≤57 at hd
      change 10*m+(c.toNat-48)<10*n+(d.toNat-48) ∨ 10*m+(c.toNat-48)=10*n+(d.toNat-48) ∧ _ ↔ _
      by_cases hlt : p<q <;> simp only [hlt,and_true,and_false,or_false] <;> omega

theorem padNat_lt {width : Nat} {m n : Int} (hw : 0<width) (hm : 0≤ m ∧ m<10^width)
    (hn : 0≤n ∧ n<10^width) :
    (padNat width m.toNat).toList++r<(padNat width n.toNat).toList++s ↔ m<n ∨ m=n ∧ r<s := by
  obtain ⟨m,rfl⟩ := Int.eq_ofNat_of_zero_le hm.1
  obtain ⟨n,rfl⟩ := Int.eq_ofNat_of_zero_le hn.1
  have hlen := (length_padNat hw (by exact_mod_cast hm.2)).trans
    (length_padNat hw (n := n) (by exact_mod_cast hn.2)).symm
  have hval := ofDigitChars_lt (isDigit_padNat width m) (isDigit_padNat width n) hlen 0 0
  have hinj : (padNat width m).toList=(padNat width n).toList ↔ m=n := by
    refine ⟨fun h => ?_,fun h => by rw [h]⟩
    rw [← ofDigitChars_padNat width m,h,ofDigitChars_padNat]
  rw [ofDigitChars_padNat,ofDigitChars_padNat] at hval
  simp only [Int.toNat_natCast,append_lt_append hlen,hinj,hval,Nat.cast_lt,Nat.cast_inj,
    lt_irrefl,false_or,true_and]

/-- A digit of base k behind a number. -/
theorem lex_digit {k x y c d : Int} (hc : 0≤c ∧ c<k) (hd : 0≤d ∧ d<k) :
    (x<y ∨ x=y ∧ (c<d ∨ c=d ∧ P)) ↔ (k*x+c<k*y+d ∨ k*x+c=k*y+d ∧ P) := by
  have hstep {x y} (h : x<y) : k*x+k≤k*y := by
    rw [← mul_add_one]
    exact mul_le_mul_of_nonneg_left h (by omega)
  rcases lt_trichotomy x y with h | rfl | h
  · have := hstep h
    exact iff_of_true (.inl h) (.inl (by omega))
  · simp
  · have := hstep h
    exact iff_of_false (by omega) (by omega)

theorem lex_date : (yearIn 0 a<yearIn 0 b ∨ yearIn 0 a=yearIn 0 b ∧ (monthIn 0 a< monthIn 0 b ∨
      monthIn 0 a=monthIn 0 b ∧ (dayIn 0 a<dayIn 0 b ∨ dayIn 0 a=dayIn 0 b ∧ P))) ↔
    (localDay 0 a<localDay 0 b ∨ localDay 0 a=localDay 0 b ∧ P) := by
  have hma := monthIn_range 0 a
  have hmb := monthIn_range 0 b
  rcases lt_trichotomy (monthIndex 0 a) (monthIndex 0 b) with h | h | h
  · refine iff_of_true ?_ (.inl (localDay_lt_of_monthIndex_lt 0 h))
    unfold monthIndex at h
    omega
  · have ha := (monthIndex_spec 0 a).1
    have hb := (monthIndex_spec 0 b).1
    rw [h] at ha
    unfold monthIndex at h
    have hyear : yearIn 0 a=yearIn 0 b := by omega
    have hmonth : monthIn 0 a=monthIn 0 b := by omega
    simp only [hyear,hmonth,lt_irrefl,false_or,true_and]
    rw [show localDay 0 a<localDay 0 b ↔ dayIn 0 a<dayIn 0 b by omega,
      show localDay 0 a=localDay 0 b ↔ dayIn 0 a=dayIn 0 b by omega]
  · have hday := localDay_lt_of_monthIndex_lt 0 h
    unfold monthIndex at h
    exact iff_of_false (by omega) (by omega)

/-- The order of two texts is that of the seconds, and within a second that of the fractions. -/
theorem formatRFC3339Nano_lt {a b : Int} (ha : FourDigits (yearIn 0 a)) (hb : FourDigits (yearIn 0 b)) :
    formatRFC3339Nano a<formatRFC3339Nano b ↔ a/second<b/second ∨ a/second=b/second ∧
      (fraction (a%second).toNat).toList++[ 'Z']<(fraction (b%second).toNat).toList++[ 'Z'] := by
  have hparts t : t/second=60*(60*(24*localDay 0 t+hourIn 0 t)+minuteIn 0 t)+secondIn 0 t ∧
      t%second=nanosecondIn 0 t := by
    simp only [localDay,hourIn,minuteIn,secondIn,nanosecondIn,localClock,hour,second]
    omega
  obtain ⟨hha,hna,hsa,-⟩ := clock_range 0 a
  obtain ⟨hhb,hnb,hsb,-⟩ := clock_range 0 b
  have hda := (monthIndex_spec 0 a).2
  have hdb := (monthIndex_spec 0 b).2
  have hma := monthIn_range 0 a
  have hmb := monthIn_range 0 b
  have hlena := monthLength_bounds (monthIndex 0 a)
  have hlenb := monthLength_bounds (monthIndex 0 b)
  unfold FourDigits at ha hb
  have hdash : "-".toList=[ '-'] := rfl
  have hT : "T".toList=[ 'T'] := rfl
  have hcolon : ":".toList=[ ':'] := rfl
  have hZ : "Z".toList=[ 'Z'] := rfl
  rw [formatRFC3339Nano_eq,formatRFC3339Nano_eq,dateText,dateText,formatYear,formatYear,
    if_neg (not_lt.mpr ha.1),if_neg (not_lt.mpr hb.1),String.lt_iff,(hparts a).1,(hparts a).2,
    (hparts b).1,(hparts b).2,← lex_digit hsa hsb,← lex_digit hna hnb,← lex_digit hha hhb,← lex_date]
  simp only [String.toList_append,append_assoc,hdash,hT,hcolon,hZ,cons_append,nil_append]
  rw [padNat_lt (by decide) (by omega) (by omega),cons_lt_cons_self,
    padNat_lt (by decide) (by omega) (by omega),cons_lt_cons_self,
    padNat_lt (by decide) (by omega) (by omega),cons_lt_cons_self,
    padNat_lt (by decide) (by omega) (by omega),cons_lt_cons_self,
    padNat_lt (by decide) (by omega) (by omega),cons_lt_cons_self,
    padNat_lt (by decide) (by omega) (by omega)]

theorem padNat_lt_iff (hw : 0<width) (hm : m<10^width) (hn : n<10^width) :
    (padNat width m).toList<(padNat width n).toList ↔ m<n := by
  have h := @padNat_lt [] [] width m n hw ⟨by omega,by exact_mod_cast hm⟩ ⟨by omega,by exact_mod_cast hn⟩
  simpa using h

/-- A fraction that goes on is the larger number and the smaller text. -/
theorem fraction_start (hm : m<10^9) (hn : n<10^9) (hne : m≠n)
    (h : (fraction m).toList <+: (fraction n).toList) :
    m<n ∧ (fraction n).toList++[ 'Z']<(fraction m).toList++[ 'Z'] := by
  obtain ⟨kept,k,hk,-,hf⟩ := fraction_kept m
  obtain ⟨kept',k',hk',hd,hf'⟩ := fraction_kept n
  obtain ⟨rest,hrest⟩ := h
  constructor
  · refine lt_of_le_of_ne ?_ hne
    by_cases hzero : m=0
    · omega
    rw [hf,hf'] at hrest
    split_ifs at hrest
    · cases hrest
    have hkept : kept'=kept++rest := (cons.inj hrest).2.symm
    have hlen := (length_padNat (by decide) hn).trans (length_padNat (by decide) hm).symm
    rw [← ofDigitChars_padNat 9 m,← ofDigitChars_padNat 9 n]
    rw [hk,hk',hkept,append_assoc] at hlen ⊢
    rw [Nat.ofDigitChars_append,Nat.ofDigitChars_append,Nat.ofDigitChars_replicate_zero,
      Nat.ofDigitChars_eq_ofDigitChars_zero (l := rest++_)]
    simp only [length_append,length_replicate,Nat.add_left_cancel_iff] at hlen ⊢
    rw [hlen]
    exact Nat.le_add_right _ _
  · rw [← hrest,append_assoc,append_lt_append rfl]
    refine .inr ⟨rfl,?_⟩
    cases rest with
    | nil =>
      rw [append_nil] at hrest
      have hread := readFraction_fraction hm []
      rw [hrest,readFraction_fraction hn] at hread
      exact absurd (congrArg Prod.fst hread).symm hne
    | cons c rest =>
      have hc : c∈(fraction n).toList := hrest ▸ mem_append_right _ mem_cons_self
      refine cons_lt_cons_iff.mpr (.inl ?_)
      rw [hf'] at hc
      split_ifs at hc
      · cases hc
      rcases mem_cons.mp hc with rfl | hc
      · decide
      · have := (isDigit_iff_toNat.mp (hd c hc)).2
        exact lt_of_le_of_lt this (by decide)

/-- The fractions of a second are compared like the numbers exactly where neither is the start of
the other. -/
theorem fraction_lt (hm : m<10^9) (hn : n<10^9) (hne : m≠n) :
    ((fraction m).toList++[ 'Z']<(fraction n).toList++[ 'Z'] ↔ m<n) ↔
      ¬(fraction m).toList <+: (fraction n).toList ∧ ¬(fraction n).toList <+: (fraction m).toList := by
  refine ⟨fun h => ⟨fun hp => ?_,fun hp => ?_⟩,fun ⟨hp,hq⟩ => ?_⟩
  · obtain ⟨hlt,htext⟩ := fraction_start hm hn hne hp
    exact List.lt_asymm (h.mpr hlt) htext
  · obtain ⟨hlt,htext⟩ := fraction_start hn hm hne.symm hp
    exact Nat.lt_asymm (h.mp htext) hlt
  · obtain ⟨kept,k,hk,-,hf⟩ := fraction_kept m
    obtain ⟨kept',k',hk',-,hf'⟩ := fraction_kept n
    rw [hf,hf'] at hp hq ⊢
    split_ifs at hp hq ⊢
    · exact absurd nil_prefix hp
    · exact absurd nil_prefix hp
    · exact absurd nil_prefix hq
    rw [cons_prefix_cons,and_iff_right rfl] at hp hq
    rw [cons_append,cons_append,cons_lt_cons_self,append_lt_append_of_part hp hq,
      ← append_lt_append_of_part hp hq,← hk,← hk',padNat_lt_iff (by decide) hm hn]

end order
end Oboard.GoTime
