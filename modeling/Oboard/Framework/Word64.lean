import Mathlib.Data.Int.Basic
import Mathlib.Data.Nat.Log
import Mathlib.Tactic.Linarith
import Mathlib.Tactic.Ring

namespace Oboard.Word64

open Nat

def Fits (n : Int) : Prop := -2^63≤n ∧ n<2^63

instance (n : Int) : Decidable (Fits n) := inferInstanceAs (Decidable (_ ∧ _))

/-- Two's complement result of a 64-bit signed operation. -/
def wrap (n : Int) : Int := n.bmod (2^64)

variable {n : Int}

theorem wrap_of_fits (h : Fits n) : wrap n=n := by
  obtain ⟨hl,hu⟩ := h
  apply Int.bmod_eq_of_le <;> norm_num at * <;> omega

theorem fits_wrap (n) : Fits (wrap n) := by
  have hl := Int.le_bmod (x := n) (m := 2^64) (by decide)
  have hu := Int.bmod_lt (x := n) (m := 2^64) (by decide)
  unfold wrap
  constructor <;> norm_num at * <;> omega

theorem fits_of_bounds (h0 : 0≤n) (hm : n ≤ m) (hf : m<2^63) : Fits n :=
  ⟨by omega,by omega⟩

/-- Distance of neighbouring doubles in the binade of n. -/
def ulp (n : Nat) : Nat := 2^(n.log2-52)

/-- A natural number as an IEEE double, ties to even. -/
def roundNat (n : Nat) : Nat :=
  if 2*(n%ulp n)<ulp n ∨ (2*(n%ulp n)=ulp n ∧ n/ulp n%2=0) then n/ulp n*ulp n
  else (n/ulp n+1)*ulp n

def realRound (n : Int) : Int :=
  if n<0 then -roundNat n.natAbs else roundNat n.natAbs

/-- SQLite addition stored in an integer column. A sum outside 64 bits is computed
on doubles and stays a real, so such a column value is outside the integer range. -/
def sqlAdd (a b : Int) : Int :=
  if Fits a ∧ Fits b ∧ Fits (a+b) then a+b else realRound (realRound a+realRound b)

variable {a b : Int}

theorem sqlAdd_of_fits (ha : Fits a) (hb : Fits b) (h : Fits (a+b)) :
    sqlAdd a b=a+b := if_pos ⟨ha,hb,h⟩

theorem sqlAdd_zero_left (h : Fits b) : sqlAdd 0 b=b := by
  rw [sqlAdd_of_fits (by decide) h (by rwa [zero_add]),zero_add]

theorem ulp_pos (n) : 0<ulp n := Nat.two_pow_pos _

theorem ulp_dvd_roundNat (n) : ulp n∣roundNat n := by
  unfold roundNat
  split_ifs
  · exact Dvd.intro_left _ rfl
  · exact Dvd.intro_left _ rfl

theorem floor_le_roundNat (n) : n/ulp n*ulp n≤roundNat n := by
  unfold roundNat
  split_ifs
  · exact le_rfl
  · exact mul_le_mul_right _ (le_succ _)

theorem two_mul_le_roundNat (n) : 2*n≤2*roundNat n+ulp n := by
  have hn := div_add_mod n (ulp n)
  have hr := mod_lt n (ulp_pos n)
  rw [mul_comm] at hn
  unfold roundNat
  split_ifs with h
  · omega
  · rw [add_mul]
    omega

/-- Rounding never crosses a power of two downwards. -/
theorem two_pow_le_roundNat {k n : Nat} (h : 2^k≤n) : 2^k≤roundNat n := by
  have hn : n≠0 := by
    have := Nat.two_pow_pos k
    omega
  have hk : k≤n.log2 := (le_log2 hn).mpr h
  apply le_trans _ (floor_le_roundNat n)
  by_cases hs : n.log2-52≤k
  · have hd : 2^(k-(n.log2-52))*ulp n=2^k := by
      unfold ulp
      rw [← Nat.pow_add,Nat.sub_add_cancel hs]
    have hq : 2^(k-(n.log2-52))≤n/ulp n :=
      (le_div_iff_mul_le (ulp_pos n)).mpr (hd.symm ▸ h)
    exact hd ▸ mul_le_mul_right _ hq
  · have hu : 2^k≤ulp n := Nat.pow_le_pow_right (by decide) (by omega)
    have hun : ulp n≤n := le_trans (Nat.pow_le_pow_right (by decide) (Nat.sub_le _ _))
      (log2_self_le hn)
    have hq : 1≤n/ulp n := (one_le_div_iff (ulp_pos n)).mpr hun
    calc 2^k ≤ ulp n := hu
      _ = 1*ulp n := (one_mul _).symm
      _ ≤ n/ulp n*ulp n := mul_le_mul_right _ hq

theorem ulp_of_top_binade {n : Nat} (hl : 2^62≤n) (hu : n<2^63) : ulp n=1024 := by
  have hn : n≠0 := by omega
  have h1 : 62≤n.log2 := (le_log2 hn).mpr hl
  have h2 : n.log2<63 := (log2_lt hn).mpr hu
  have h3 : n.log2=62 := by omega
  simp [ulp,h3]

theorem ulp_dvd_of_lt {n : Nat} (h : n<2^62) : ulp n∣512 := by
  by_cases hn : n=0
  · subst n
    decide
  · have h2 : n.log2<62 := (log2_lt hn).mpr h
    exact pow_dvd_pow 2 (show n.log2-52≤9 by omega)

private theorem roundNat_add_of_ge {a b : Nat} (ha : a<2^63) (hb : b≤a) (h : 2^63≤a+b) :
    2^63≤roundNat (roundNat a+roundNat b) := by
  have ha2 : 2^62≤a := by omega
  by_cases hb2 : 2^62≤b
  · apply two_pow_le_roundNat
    have h1 := two_pow_le_roundNat ha2
    have h2 := two_pow_le_roundNat hb2
    omega
  have hua := ulp_of_top_binade ha2 ha
  have hea := two_mul_le_roundNat a
  have heb := two_mul_le_roundNat b
  have hda := ulp_dvd_roundNat a
  rw [hua] at hea hda
  have hub : ulp b∣512 := ulp_dvd_of_lt (by omega)
  have hpos := ulp_pos b
  -- Both roundings are multiples of the finer spacing, which fixes the lost half unit.
  have hd : ulp b∣roundNat a+roundNat b :=
    Nat.dvd_add (dvd_trans (dvd_trans hub (by decide)) hda) (ulp_dvd_roundNat b)
  have hgap : 2^63-512≤roundNat a+roundNat b := by
    by_contra hlt
    have hdd : ulp b∣2^63-512-(roundNat a+roundNat b) :=
      dvd_sub (dvd_trans hub (by decide)) hd
    have := le_of_dvd (by omega) hdd
    omega
  by_cases hs : 2^63≤roundNat a+roundNat b
  · exact two_pow_le_roundNat hs
  generalize roundNat a+roundNat b=s at hgap hs
  have hus := ulp_of_top_binade (n := s) (by omega) (by omega)
  unfold roundNat
  rw [hus]
  split_ifs
  · omega
  · omega

theorem roundNat_add {a b : Nat} (ha : a<2^63) (hb : b<2^63) (h : 2^63≤a+b) :
    2^63≤roundNat (roundNat a+roundNat b) := by
  rcases le_total b a with hba | hab
  · exact roundNat_add_of_ge ha hba h
  · rw [add_comm]
    exact roundNat_add_of_ge hb hab (by omega)

theorem realRound_natCast (n : Nat) : realRound n=roundNat n := by
  simp [realRound]

/-- A non-negative column that left the integer range never comes back into it. -/
theorem sqlAdd_overflow (ha : 0≤a) (hb : 0≤b) (h : 2^63≤a+b) : 2^63 ≤ sqlAdd a b := by
  have hn : ¬Fits (a+b) := fun hf => absurd hf.2 (by omega)
  rw [sqlAdd,if_neg (fun hc => hn hc.2.2)]
  lift a to Nat using ha
  lift b to Nat using hb
  rw [realRound_natCast,realRound_natCast,← cast_add,realRound_natCast]
  have hab : 2^63≤a+b := by exact_mod_cast h
  have hr : 2^63≤roundNat (roundNat a+roundNat b) := by
    by_cases ha : 2^63≤a
    · exact two_pow_le_roundNat (le_trans (two_pow_le_roundNat ha) (le_add_right _ _))
    by_cases hb : 2^63≤b
    · exact two_pow_le_roundNat (le_trans (two_pow_le_roundNat hb) (le_add_left _ _))
    · exact roundNat_add (by omega) (by omega) hab
  exact_mod_cast hr

/-- A sum of non-negative columns is exact or out of the integer range. -/
theorem sqlAdd_cases (ha : 0≤a) (hb : 0≤b) :
    2^63≤a+b ∧ 2^63 ≤ sqlAdd a b ∨ a+b<2^63 ∧ sqlAdd a b=a+b := by
  by_cases h : a+b<2^63
  · exact .inr ⟨h,sqlAdd_of_fits ⟨by omega,by omega⟩ ⟨by omega,by omega⟩ ⟨by omega,h⟩⟩
  · exact .inl ⟨not_lt.mp h,sqlAdd_overflow ha hb (not_lt.mp h)⟩

theorem sqlAdd_nonneg (ha : 0≤a) (hb : 0≤b) : 0 ≤ sqlAdd a b := by
  have := sqlAdd_cases ha hb
  omega

section

variable (hn : n<2^63) (ha : 0≤a) (hb : 0≤b)
include hn ha hb

/-- Integers compare with a sum of columns as with the exact sum, rounded or not. -/
theorem le_sqlAdd_add (hc : 0≤c) : n ≤ sqlAdd a b+c ↔ n≤a+b+c := by
  have := sqlAdd_cases ha hb
  omega

theorem le_sqlAdd : n ≤ sqlAdd a b ↔ n≤a+b := by
  simpa using le_sqlAdd_add hn ha hb le_rfl

/-- Four columns added in a row or in pairs are on the same side of an integer. -/
theorem le_sqlAdd_sum (hc : 0≤c)
    (hd : 0≤d) : n ≤ sqlAdd (sqlAdd (sqlAdd a b) c) d ↔ n ≤ sqlAdd a c+sqlAdd b d := by
  have hall : n ≤ sqlAdd (sqlAdd (sqlAdd a b) c) d ↔ n≤a+b+(c+d) := by
    have hab := sqlAdd_nonneg ha hb
    rw [le_sqlAdd hn (sqlAdd_nonneg hab hc) hd,le_sqlAdd_add hn hab hc hd,add_assoc,
      le_sqlAdd_add hn ha hb (add_nonneg hc hd)]
  have hpair : n ≤ sqlAdd a c+sqlAdd b d ↔ n≤a+b+(c+d) := by
    rw [le_sqlAdd_add hn ha hc (sqlAdd_nonneg hb hd),add_comm,
      le_sqlAdd_add hn hb hd (add_nonneg ha hc)]
    omega
  rw [hall,hpair]

end

end Oboard.Word64
