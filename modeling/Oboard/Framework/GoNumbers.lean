import Oboard.Framework.GoText
import Mathlib.Data.List.TakeWhile
import Mathlib.Tactic.IntervalCases

namespace Oboard.GoNumbers

open GoText List Nat Char

def formatInt : Int → List Char
  | .ofNat n => toDigits 10 n
  | .negSucc n => '-' :: toDigits 10 (n+1)

def lowerChar (c : Char) : Char := if 'A'≤c ∧ c ≤ 'Z' then ofNat (c.toNat+32) else c

/-- Lower case as far as a comparison with an ASCII word can tell: two letters beyond ASCII have
an ASCII one. -/
def toLower (s : String) : String :=
  String.ofList (s.toList.map (fun c =>
    if c.toNat=0x130 then 'i' else if c.toNat=0x212A then 'k' else lowerChar c))

def digitValue (c : Char) : Option Nat :=
  if '0'≤c ∧ c ≤ '9' then some (c.toNat-48)
  else if 'a'≤lowerChar c ∧ lowerChar c ≤ 'z' then some ((lowerChar c).toNat-87)
  else none

/-- Digits of a base. Underscores are skipped where the base was read from the text. -/
def readDigits (base : Nat) (separated : Bool) (n : Nat) : List Char → Option Nat
  | [] => some n
  | c::cs =>
    if separated ∧ c = '_' then readDigits base separated n cs
    else match digitValue c with
      | none => none
      | some d => if d<base then readDigits base separated (n*base+d) cs else none

/-- What the last character was: nothing yet, a digit or prefix, an underscore, another one. -/
inductive Before where
  | start
  | digit
  | underscore
  | other
  deriving DecidableEq

/-- Underscores stand between digits, or between a base prefix and a digit. -/
def underscoresBetween (hex : Bool) : Before → List Char → Bool
  | before,[] => before≠.underscore
  | before,c::cs =>
    if ('0'≤c ∧ c ≤ '9') ∨ (hex ∧ 'a'≤lowerChar c ∧ lowerChar c ≤ 'f') then
      underscoresBetween hex .digit cs
    else if c = '_' then before=.digit && underscoresBetween hex .underscore cs
    else before≠.underscore && underscoresBetween hex .other cs

def underscoreOK : List Char → Bool
  | '0'::p::cs =>
    if lowerChar p∈['b','o','x'] then underscoresBetween (lowerChar p = 'x') .digit cs
    else underscoresBetween false .start ('0'::p::cs)
  | cs => underscoresBetween false .start cs

/-- The base that a prefix announces, and the digits behind the prefix. -/
def basePrefix : List Char → Nat×List Char
  | '0'::p::c::cs =>
    if lowerChar p = 'b' then (2,c::cs)
    else if lowerChar p = 'o' then (8,c::cs)
    else if lowerChar p = 'x' then (16,c::cs)
    else (8,p::c::cs)
  | '0'::cs => (8,cs)
  | cs => (10,cs)

/-- An unsigned number of base 10, or of the base that its prefix says. -/
def parseUint (prefixed : Bool) (s : List Char) : Option Nat :=
  if s=[] then none
  else if prefixed then
    let (base,digits) := basePrefix s
    if '_'∈digits ∧ ¬underscoreOK s then none else readDigits base true 0 digits
  else readDigits 10 false 0 s

def maxInt64 : Int := 9223372036854775807

/-- A sign and a number that fits into 64 bits. -/
def parseInt (prefixed : Bool) : List Char → Option Int
  | '-'::s => (parseUint prefixed s).bind (fun n => if n≤ maxInt64+1 then some (-n) else none)
  | '+'::s => (parseUint prefixed s).bind (fun n => if n≤ maxInt64 then some n else none)
  | s => (parseUint prefixed s).bind (fun n => if n≤ maxInt64 then some n else none)

def decimalDigits : List Char := "0123456789_".toList
def octalDigits : List Char := "01234567_".toList
def binaryDigits : List Char := "01_".toList
def hexadecimalDigits : List Char := "0123456789aAbBcCdDeEfF_".toList

/-- The token of a scanned number behind its sign: a prefix decides on the digits that follow,
and without a leading zero there is at least one of them. The rest of the text is not read. -/
def scanToken : List Char → Option (List Char)
  | '0'::p::cs =>
    if lowerChar p = 'b' then some ('0'::p::cs.takeWhile (· ∈ binaryDigits))
    else if lowerChar p = 'o' then some ('0'::p::cs.takeWhile (· ∈ octalDigits))
    else if lowerChar p = 'x' then some ('0'::p::cs.takeWhile (· ∈ hexadecimalDigits))
    else some ('0'::(p::cs).takeWhile (· ∈ octalDigits))
  | ['0'] => some ['0']
  | cs => if cs.takeWhile (· ∈ decimalDigits)=[] then none
    else some (cs.takeWhile (· ∈ decimalDigits))

/-- A 64-bit integer at the start of a text, after white space, in any base. -/
def scanInt64 (s : String) : Option Int :=
  match s.toList.dropWhile isSpace with
  | '-'::cs => (scanToken cs).bind (fun token => parseInt true ('-' :: token))
  | '+'::cs => (scanToken cs).bind (fun token => parseInt true ('+' :: token))
  | cs => (scanToken cs).bind (parseInt true)

variable {c : Char} {n : Nat}

theorem digitValue_isDigit (h : c.isDigit) : digitValue c=some (c.toNat-48) := by
  unfold digitValue
  rw [if_pos]
  simpa [isDigit,le_def] using h

theorem isDigit_lt (h : c.isDigit) : c.toNat-48<10 := by
  have hc : 48≤c.toNat ∧ c.toNat≤57 := by
    simpa [isDigit,UInt32.le_iff_toNat_le] using h
  omega

theorem isDigit_ne_underscore (h : c.isDigit) : c ≠ '_' := by
  rintro rfl
  simp at h

theorem readDigits_isDigit (h : ∀c∈cs,c.isDigit) :
    readDigits 10 separated n cs=some (ofDigitChars 10 cs n) := by
  induction cs generalizing n with
  | nil => rfl
  | cons c cs ih =>
    have hc := h c mem_cons_self
    unfold readDigits
    rw [if_neg (fun hu => isDigit_ne_underscore hc hu.2),digitValue_isDigit hc]
    dsimp only
    rw [if_pos (isDigit_lt hc),ih (fun d hd => h d (mem_cons_of_mem _ hd)),
      ofDigitChars_cons,mul_comm]
    rfl

theorem isDigit_toDigits : ∀c∈toDigits 10 n,c.isDigit :=
  fun _ hc => isDigit_of_mem_toDigits (by decide) (by decide) hc

theorem readDigits_toDigits : readDigits 10 separated 0 (toDigits 10 n)=some n := by
  rw [readDigits_isDigit isDigit_toDigits,ofDigitChars_ten_toDigits]

/-- A positive number does not start with a zero. -/
theorem toDigits_head (h : 0<n) (heq : toDigits 10 n=c::cs) : c ≠ '0' := by
  induction n using Nat.strong_induction_on generalizing cs with
  | _ n ih =>
    by_cases hn : n<10
    · rw [toDigits_of_lt_base hn] at heq
      cases heq
      intro hz
      exact h.ne' (digitChar_eq_zero.mp hz)
    rw [toDigits_of_base_le (by decide) (not_lt.mp hn)] at heq
    cases hq : toDigits 10 (n/10) with
    | nil => exact absurd hq toDigits_ne_nil
    | cons d ds =>
      rw [hq,cons_append] at heq
      cases heq
      exact ih (n/10) (by omega) (by omega) hq

theorem parseUint_toDigits : parseUint false (toDigits 10 n)=some n := by
  unfold parseUint
  rw [if_neg toDigits_ne_nil]
  exact readDigits_toDigits

def FitsInt64 (n : Int) : Prop := -maxInt64-1≤n ∧ n≤ maxInt64

theorem parseInt_fits {n : Int} (h : parseInt separated s=some n) : FitsInt64 n := by
  have hmax : 0≤ maxInt64 := by decide
  unfold FitsInt64
  unfold parseInt at h
  split at h
  all_goals
    obtain ⟨m,-,hm⟩ := Option.bind_eq_some_iff.mp h
    split_ifs at hm with hle
    cases hm
  · exact ⟨by linarith,by linarith [Int.natCast_nonneg m]⟩
  · exact ⟨by linarith [Int.natCast_nonneg m],hle⟩
  · exact ⟨by linarith [Int.natCast_nonneg m],hle⟩

theorem scanInt64_fits {n : Int} (h : scanInt64 s=some n) : FitsInt64 n := by
  unfold scanInt64 at h
  split at h
  all_goals
    obtain ⟨token,-,ht⟩ := Option.bind_eq_some_iff.mp h
    exact parseInt_fits ht

theorem parseInt_toDigits (h : parseUint separated (toDigits 10 n)=some n)
    (hhi : (n : Int)≤ maxInt64) : parseInt separated (toDigits 10 n)=some (n : Int) := by
  unfold parseInt
  split
  case h_1 s hs => exact absurd (isDigit_toDigits '-' (hs ▸ mem_cons_self)) (by decide)
  case h_2 s hs => exact absurd (isDigit_toDigits '+' (hs ▸ mem_cons_self)) (by decide)
  case h_3 =>
    rw [h,Option.bind_some]
    exact if_pos hhi

/-- What is printed is read back. -/
theorem parseInt_formatInt {n : Int} (h : FitsInt64 n) : parseInt false (formatInt n)=some n := by
  obtain ⟨hlo,hhi⟩ := h
  cases n with
  | negSucc n =>
    have hle : ((n+1 : Nat) : Int)≤ maxInt64+1 := by
      rw [Int.negSucc_eq] at hlo
      push_cast
      linarith
    change (parseUint false (toDigits 10 (n+1))).bind _=_
    rw [parseUint_toDigits,Option.bind_some,if_pos hle,Int.neg_ofNat_succ]
  | ofNat n => exact parseInt_toDigits parseUint_toDigits hhi

theorem isDigit_decimalDigits (h : c.isDigit) : c∈decimalDigits := by
  have hc : 48≤c.toNat ∧ c.toNat≤57 := by
    simpa [isDigit,UInt32.le_iff_toNat_le] using h
  have hof : ofNat c.toNat=c := ofNat_toNat c
  obtain ⟨hlo,hhi⟩ := hc
  generalize c.toNat=m at hlo hhi hof
  subst hof
  interval_cases m <;> decide

theorem isSpace_of_isDigit (h : c.isDigit) : isSpace c=false := by
  have hmem := isDigit_decimalDigits h
  have hall : decimalDigits.all (fun d => !isSpace d) := by decide
  simpa using all_eq_true.mp hall c hmem

theorem basePrefix_of_ne (h : c ≠ '0') : basePrefix (c::cs)=(10,c::cs) := by
  unfold basePrefix
  split
  case h_1 heq => exact absurd (List.cons.inj heq).1 h
  case h_2 heq => exact absurd (List.cons.inj heq).1 h
  case h_3 => rfl

theorem parseInt_prefixed (hpos : 0<n) (hhi : (n : Int)≤ maxInt64) :
    parseInt true (toDigits 10 n)=some (n : Int) := by
  refine parseInt_toDigits ?_ hhi
  unfold parseUint
  rw [if_neg toDigits_ne_nil]
  have hbase : basePrefix (toDigits 10 n)=(10,toDigits 10 n) := by
    cases hcs : toDigits 10 n with
    | nil => exact absurd hcs toDigits_ne_nil
    | cons c cs => exact basePrefix_of_ne (toDigits_head hpos hcs)
  simp only [if_true,hbase]
  rw [if_neg (fun hu => underscore_not_in_toDigits hu.1)]
  exact readDigits_toDigits

theorem scanToken_toDigits (hpos : 0<n) : scanToken (toDigits 10 n)=some (toDigits 10 n) := by
  have htake : (toDigits 10 n).takeWhile (· ∈ decimalDigits)=toDigits 10 n :=
    takeWhile_eq_self_iff.mpr
      (fun c hc => by simpa using isDigit_decimalDigits (isDigit_toDigits c hc))
  unfold scanToken
  split
  case h_1 hcs => exact absurd rfl (toDigits_head hpos hcs)
  case h_2 hcs => exact absurd rfl (toDigits_head hpos hcs)
  case h_3 => rw [htake,if_neg toDigits_ne_nil]

/-- A positive decimal is scanned as itself. -/
theorem scanInt64_formatInt {n : Int} (hpos : 0<n) (hhi : n≤ maxInt64) :
    scanInt64 (String.ofList (formatInt n))=some n := by
  obtain ⟨m,rfl⟩ := Int.eq_ofNat_of_zero_le hpos.le
  have hm : 0< m := by exact_mod_cast hpos
  have hdigits := @isDigit_toDigits m
  have hspace : (toDigits 10 m).dropWhile isSpace=toDigits 10 m := by
    cases hcs : toDigits 10 m with
    | nil => rfl
    | cons c cs =>
      exact dropWhile_cons_of_neg (by simp [isSpace_of_isDigit (hdigits c (hcs ▸ mem_cons_self))])
  unfold scanInt64
  have hformat : formatInt (m : Int)=toDigits 10 m := rfl
  rw [String.toList_ofList,hformat,hspace]
  split
  case h_1 cs hcs => exact absurd (hdigits '-' (hcs ▸ mem_cons_self)) (by decide)
  case h_2 cs hcs => exact absurd (hdigits '+' (hcs ▸ mem_cons_self)) (by decide)
  case h_3 =>
    rw [scanToken_toDigits hm,Option.bind_some]
    exact parseInt_prefixed hm hhi

end Oboard.GoNumbers
