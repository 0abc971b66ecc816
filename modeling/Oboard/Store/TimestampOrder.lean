import Oboard.Framework.GoTime

namespace Oboard.Store

open GoText GoTime Calendar List

/-- The text that a column keeps of an instant. -/
def Timestamp.now (t : Time) : String := formatRFC3339Nano t

/-- The guards `valid_until<?` and `lease_bound_until<?`. -/
def textBefore (stored at_ : Time) : Bool := Timestamp.now stored<Timestamp.now at_

/-- The guard `next_retry_at<=?`. -/
def textDue (stored at_ : Time) : Bool := ¬Timestamp.now at_<Timestamp.now stored

/-- Within one second neither fraction is the start of the other. -/
def FractionsPart (a b : Time) : Prop :=
  ¬(fraction (a%second).toNat).toList <+: (fraction (b%second).toNat).toList ∧
    ¬(fraction (b%second).toNat).toList <+: (fraction (a%second).toNat).toList

theorem now_lt_iff {a b : Int} (ha : FourDigits (yearIn 0 a)) (hb : FourDigits (yearIn 0 b))
    (hsame : a/second=b/second) (hne : a≠b) : (Timestamp.now a<Timestamp.now b ↔ a<b) ↔ FractionsPart a b := by
  have hm : 0≤a%second ∧ a%second<10^9 ∧ 0≤b%second ∧ b%second<10^9 := by
    unfold second
    omega
  have horder : (a%second).toNat<(b%second).toNat ↔ a<b := by
    unfold second at hsame ⊢
    omega
  have hdiff : (a%second).toNat≠(b%second).toNat := by
    unfold second at hsame ⊢
    omega
  have htext := fraction_lt (m := (a%second).toNat) (n := (b%second).toNat) (by omega) (by omega) hdiff
  rw [horder] at htext
  unfold Timestamp.now
  rw [formatRFC3339Nano_lt ha hb,hsame]
  simp only [lt_irrefl,false_or,true_and]
  exact htext

/-- The texts order two instants of one second where their fractions part, and all others. -/
theorem text_guards_select_iff {a b : Int} (ha : FourDigits (yearIn 0 a))
    (hb : FourDigits (yearIn 0 b)) : ((textBefore a b=true ↔ a<b) ∧ (textDue a b=true ↔ a≤b)) ↔
      (a=b ∨ a/second≠b/second ∨ FractionsPart a b) := by
  have hle : a≤b ↔ ¬b<a := not_lt.symm
  simp only [textBefore,textDue,decide_eq_true_eq,hle,not_iff_not]
  by_cases hab : a=b
  · subst hab
    simp
  by_cases hsame : a/second=b/second
  · have hflip : FractionsPart b a ↔ FractionsPart a b := and_comm
    rw [now_lt_iff ha hb hsame hab,now_lt_iff hb ha hsame.symm (Ne.symm hab),hflip]
    simp [hab,hsame]
  have hlt x y (h : x/second≠y/second) : x/second<y/second ↔ x<y := by
    unfold second at h ⊢
    omega
  unfold Timestamp.now
  rw [formatRFC3339Nano_lt ha hb,formatRFC3339Nano_lt hb ha]
  simp only [hsame,Ne.symm hsame,false_and,or_false,hlt a b hsame,hlt b a (Ne.symm hsame)]
  simp [hsame]

theorem quarter_text_is_before :
    (textBefore (63871286400*second+250000000) (63871286400*second+500000000)=true ↔
      63871286400*second+250000000<63871286400*second+500000000) ∧
    (textDue (63871286400*second+250000000) (63871286400*second+500000000)=true ↔
      63871286400*second+250000000≤63871286400*second+500000000) :=
  (text_guards_select_iff (by decide +kernel) (by decide +kernel)).mpr
    (.inr (.inr ⟨by decide +kernel,by decide +kernel⟩))

/-- A lease that ended with a second is not past its end half a second later. -/
theorem whole_second_text_is_after :
    textBefore (63871286400*second) (63871286400*second+500000000)=false ∧
      63871286400*second<63871286400*second+500000000 := by
  decide +kernel

end Oboard.Store
