import Mathlib.Order.Basic
import Mathlib.Data.List.Basic

namespace Oboard.Segments

variable {α : Type}

def endOf (start : α) : List (α×α) → α
  | [] => start
  | seg::segs => endOf seg.2 segs

/-- Each segment begins where the one before it ended, the first one at the start point. -/
def Contiguous [LE α] (start : α) : List (α×α) → Prop
  | [] => True
  | seg::segs => seg.1=start ∧ seg.1 ≤ seg.2 ∧ Contiguous seg.2 segs

theorem endOf_append (start : α) (segs rest : List (α×α)) :
    endOf start (segs++rest)=endOf (endOf start segs) rest := by
  induction segs generalizing start with
  | nil => rfl
  | cons seg segs ih => exact ih seg.2

theorem contiguous_append [LE α] (start : α) (segs rest : List (α×α)) :
    Contiguous start (segs++rest) ↔ Contiguous start segs ∧ Contiguous (endOf start segs) rest := by
  induction segs generalizing start with
  | nil => simp [Contiguous,endOf]
  | cons seg segs ih =>
    simp only [List.cons_append,Contiguous,ih,endOf]
    tauto

theorem Contiguous.le_endOf [Preorder α] {segs : List (α×α)}
    (h : Contiguous start segs) : start≤endOf start segs := by
  induction segs generalizing start with
  | nil => exact le_rfl
  | cons seg segs ih =>
    obtain ⟨rfl,hle,hrest⟩ := h
    exact le_trans hle (ih hrest)

theorem Contiguous.mem_bounds [Preorder α] {segs : List (α×α)} (h : Contiguous start segs)
    (hm : seg∈segs) : start ≤ seg.1 ∧ seg.1 ≤ seg.2 ∧ seg.2≤endOf start segs := by
  induction segs generalizing start with
  | nil => simp at hm
  | cons head segs ih =>
    obtain ⟨rfl,hle,hrest⟩ := h
    rcases List.mem_cons.mp hm with rfl | hm
    · exact ⟨le_rfl,hle,hrest.le_endOf⟩
    · obtain ⟨h1,h2,h3⟩ := ih hrest hm
      exact ⟨le_trans hle h1,h2,h3⟩

end Oboard.Segments
