import Mathlib.Algebra.Ring.Nat
import Mathlib.Order.Lattice

namespace Oboard.Core

open List

/-- The entry of the table for two suffixes of the hop sequences. -/
def middleLengths : List String → List String → Nat
  | x::a,y::b =>
    if x=y then 1+middleLengths a b else max (middleLengths a (y::b)) (middleLengths (x::a) b)
  | [],_ => 0
  | _,[] => 0
termination_by a b => a.length+b.length

/-- The walk through the table. -/
def commonProxyPathMiddle : List String → List String → List String
  | x::a,y::b =>
    if x=y then x::commonProxyPathMiddle a b
    else if middleLengths (x::a) b≤ middleLengths a (y::b) then commonProxyPathMiddle a (y::b)
    else commonProxyPathMiddle (x::a) b
  | [],_ => []
  | _,[] => []
termination_by a b => a.length+b.length

theorem length_commonProxyPathMiddle (a b) :
    (commonProxyPathMiddle a b).length=middleLengths a b := by
  fun_induction commonProxyPathMiddle a b with
  | case1 a y b ih => rw [length_cons,ih,middleLengths,if_pos rfl,add_comm]
  | case2 x a y b hne hle ih => rw [ih,middleLengths,if_neg hne,max_eq_left hle]
  | case3 x a y b hne hle ih => rw [ih,middleLengths,if_neg hne,max_eq_right (not_le.mp hle).le]
  | case4 => rw [middleLengths,length_nil]
  | case5 a => cases a <;> simp [middleLengths]

theorem commonProxyPathMiddle_sublist (a b) :
    commonProxyPathMiddle a b <+ a ∧ commonProxyPathMiddle a b <+ b := by
  fun_induction commonProxyPathMiddle a b with
  | case1 a y b ih => exact ⟨ih.1.cons_cons y,ih.2.cons_cons y⟩
  | case2 x a y b hne hle ih => exact ⟨ih.1.cons x,ih.2⟩
  | case3 x a y b hne hle ih => exact ⟨ih.1,ih.2.cons y⟩
  | case4 | case5 => exact ⟨nil_sublist _,nil_sublist _⟩

theorem length_le_middleLengths {c : List String} (ha : c <+ a) (hb : c <+ b) :
    c.length≤ middleLengths a b := by
  fun_induction middleLengths a b generalizing c with
  | case1 a y b ih =>
    have htail := ih ha.tail hb.tail
    rw [length_tail] at htail
    omega
  | case2 x a y b hne iha ihb =>
    rcases sublist_cons_iff.mp ha with ha' | ⟨rest,rfl,-⟩
    · exact (iha ha' hb).trans (le_max_left _ _)
    -- the first hop is the one that the other sequence does not begin with
    rcases sublist_cons_iff.mp hb with hb' | ⟨rest',heq,-⟩
    · exact (ihb ha hb').trans (le_max_right _ _)
    · exact absurd (cons.inj heq).1 hne
  | case3 => exact ha.length_le
  | case4 => exact hb.length_le

/-- The common middle is a longest common subsequence. -/
theorem common_middle_longest (a b : List String) :
    commonProxyPathMiddle a b <+ a ∧ commonProxyPathMiddle a b <+ b ∧
      ∀c,c <+ a → c <+ b → c.length≤(commonProxyPathMiddle a b).length := by
  obtain ⟨ha,hb⟩ := commonProxyPathMiddle_sublist a b
  refine ⟨ha,hb,fun c hca hcb => ?_⟩
  rw [length_commonProxyPathMiddle]
  exact length_le_middleLengths hca hcb

end Oboard.Core
