import Mathlib.Data.List.Destutter
import Mathlib.Data.List.Sort
import Mathlib.Order.Basic

namespace Oboard.Ascending

open List

variable {α : Type} [LinearOrder α]

def compact (l : List α) : List α := l.destutter (· ≠ ·)

def sortUnique (l : List α) : List α := compact (l.insertionSort (· ≤ ·))

private theorem mem_destutter_ne (x a : α) (l : List α) : x∈l.destutter' (· ≠ ·) a ↔ x∈a::l := by
  induction l generalizing a with
  | nil => simp
  | cons b l ih =>
    by_cases h : a=b
    · subst h
      rw [destutter'_cons_neg _ (by simp),ih]
      simp
    · rw [destutter'_cons_pos _ h,mem_cons,ih,mem_cons (l := b::l)]

theorem mem_compact {l : List α} : x∈compact l ↔ x∈l := by
  cases l with
  | nil => rfl
  | cons a l => exact mem_destutter_ne x a l

theorem compact_ascending {l : List α} (h : l.Pairwise (· ≤ ·)) : (compact l).Pairwise (· < ·) := by
  have hle : (compact l).Pairwise (· ≤ ·) := h.sublist (destutter_sublist _ l)
  have hne : (compact l).IsChain (· ≠ ·) := isChain_destutter _ l
  refine isChain_iff_pairwise.mp (isChain_iff_forall_rel_of_append_cons_cons.mpr ?_)
  intro a b l1 l2 heq
  exact lt_of_le_of_ne (isChain_iff_forall_rel_of_append_cons_cons.mp hle.isChain heq)
    (isChain_iff_forall_rel_of_append_cons_cons.mp hne heq)

theorem mem_sortUnique {l : List α} : x∈sortUnique l ↔ x∈l := by
  rw [sortUnique,mem_compact,mem_insertionSort]

theorem sortUnique_ascending (l : List α) : (sortUnique l).Pairwise (· < ·) :=
  compact_ascending (pairwise_insertionSort _ l)

/-- Ascending lists are determined by their members. -/
theorem ascending_ext {l m : List α} (hl : l.Pairwise (· < ·)) (hm : m.Pairwise (· < ·))
    (h : ∀x,x∈l ↔ x∈m) : l=m := by
  have hp : l.Perm m := (perm_ext_iff_of_nodup (hl.imp (fun h => ne_of_lt h))
    (hm.imp (fun h => ne_of_lt h))).mpr h
  exact hp.eq_of_pairwise (fun a b _ _ hab hba => absurd hab (lt_asymm hba)) hl hm

theorem sortUnique_congr {l m : List α} (h : ∀x,x∈l ↔ x∈m) : sortUnique l=sortUnique m :=
  ascending_ext (sortUnique_ascending l) (sortUnique_ascending m)
    (fun x => by rw [mem_sortUnique,mem_sortUnique,h])

theorem mem_take_of_le {l : List α} (hl : l.Pairwise (· < ·)) (hx : x∈l)
    (hy : (l.take n).getLast?=some y) (hxy : x≤y) : x∈l.take n := by
  rw [← take_append_drop n l] at hl hx
  rcases mem_append.mp hx with hx|hx
  · exact hx
  · have hlt := (pairwise_append.mp hl).2.2 y (mem_of_getLast? hy) x hx
    exact absurd hxy (not_le_of_gt hlt)

end Oboard.Ascending
