import Mathlib.Order.Lattice
import Mathlib.Data.List.Basic

namespace Oboard.Spans

open List

variable {α : Type} [LinearOrder α]

/-- A half-open stretch of time. Without an end it never stops. -/
structure Span (α : Type) where
  start : α
  stop : Option α

def Span.covers (i : Span α) (t : α) : Bool := i.start≤t && i.stop.all (fun e => t<e)

/-- The stretches in which a sampled condition holds. The first argument is the start of
the stretch still open. -/
def spans : Option α → List (α×Bool) → List (Span α)
  | none,[] => []
  | some s,[] => [⟨s,none⟩]
  | none,(t,true)::rest => spans (some t) rest
  | none,(_,false)::rest => spans none rest
  | some s,(_,true)::rest => spans (some s) rest
  | some s,(t,false)::rest => ⟨s,some t⟩::spans none rest

def sampleAt (current : Bool) : List (α×Bool) → α → Bool
  | [],_ => current
  | (s,b)::rest,t => if s≤t then sampleAt b rest t else current

theorem not_covers_of_lt : ∀{o : Option α} {samples : List (α×Bool)},
    (∀s∈o,t<s) → (∀e∈samples,t<e.1) → ∀i∈spans o samples,i.covers t=false := by
  have hstart (i : Span α) (h : t < i.start) : i.covers t=false := by
    simp [Span.covers,not_le.mpr h]
  intro o samples ho hs
  induction samples generalizing o with
  | nil =>
    cases o with
    | none => simp [spans]
    | some s => simpa [spans] using hstart ⟨s,none⟩ (ho s rfl)
  | cons e rest ih =>
    obtain ⟨he,hrest⟩ := forall_mem_cons.mp hs
    obtain ⟨u,b⟩ := e
    cases o <;> cases b <;> simp only [spans]
    · exact ih (by simp) hrest
    · exact ih (by simpa using he) hrest
    · rename_i s
      exact forall_mem_cons.mpr ⟨hstart ⟨s,some u⟩ (ho s rfl),ih (by simp) hrest⟩
    · exact ih ho hrest

variable {samples : List (α×Bool)}

theorem sampleAt_of_lt (h : ∀e∈samples,t<e.1) : sampleAt current samples t=current := by
  cases samples with
  | nil => rfl
  | cons e rest => exact if_neg (not_le.mpr (h e mem_cons_self))

/-- The stretches cover an instant exactly when the latest sample holds. -/
theorem exists_covers_iff : ∀{o : Option α} {samples : List (α×Bool)},
    (∀s∈o,s≤t) → samples.Pairwise (fun a b => a.1<b.1) →
    ((∃i∈spans o samples,i.covers t=true) ↔ sampleAt o.isSome samples t=true) := by
  intro o samples ho hs
  induction samples generalizing o with
  | nil =>
    cases o with
    | none => simp [spans,sampleAt]
    | some s => simpa [spans,sampleAt,Span.covers] using ho s rfl
  | cons e rest ih =>
    obtain ⟨hlt,hrest⟩ := pairwise_cons.mp hs
    obtain ⟨u,b⟩ := e
    simp only [sampleAt]
    by_cases hu : u≤t
    · rw [if_pos hu]
      cases o <;> cases b <;> simp only [spans]
      · exact ih (by simp) hrest
      · exact ih (by simpa using hu) hrest
      · rename_i s
        have hno : (⟨s,some u⟩ : Span α).covers t=false := by
          simp [Span.covers,not_lt.mpr hu]
        simp only [exists_mem_cons_iff,hno,Bool.false_eq_true,false_or]
        exact ih (by simp) hrest
      · exact ih ho hrest
    · -- all remaining samples lie in the future, so the open stretch decides
      rw [if_neg hu]
      have hafter : ∀e∈rest,t<e.1 := fun e he => lt_trans (not_le.mp hu) (hlt e he)
      cases o with
      | none =>
        have hno : ∀i∈spans none ((u,b)::rest),i.covers t=false :=
          not_covers_of_lt (by simp) (forall_mem_cons.mpr ⟨not_le.mp hu,hafter⟩)
        simpa using hno
      | some s =>
        cases b <;> simp only [spans,Option.isSome_some,iff_true]
        · exact ⟨_,mem_cons_self,by simpa [Span.covers,not_le.mp hu] using ho s rfl⟩
        · exact (ih ho hrest).mpr (sampleAt_of_lt hafter)

theorem sampleAt_true
    (h : sampleAt current samples t=true) : current=true ∨ ∃e∈samples,e.2=true := by
  induction samples generalizing current with
  | nil => exact .inl h
  | cons e rest ih =>
    simp only [sampleAt] at h
    split_ifs at h
    · rcases ih h with h | ⟨e',he',h⟩
      · exact .inr ⟨e,mem_cons_self,h⟩
      · exact .inr ⟨e',mem_cons_of_mem _ he',h⟩
    · exact .inl h

/-- A condition that changes only at events is known from its samples at them. -/
theorem sampleAt_eq {f : α → Bool} {event : α → Prop}
    (hconst : ∀a s,a ≤ s → (∀e,event e → ¬(a<e ∧ e ≤ s)) → f a=f s) :
    ∀{times : List α} {a : α},a≤t → (a::times).Pairwise (· < ·) →
      (∀e,event e → a<e → e≤t → e∈times) →
      sampleAt (f a) (times.map (fun s => (s,f s))) t=f t := by
  intro times
  induction times with
  | nil =>
    intro a ha _ hevents
    exact hconst a t ha (fun e he h => by simpa using hevents e he h.1 h.2)
  | cons s times ih =>
    intro a ha hasc hevents
    obtain ⟨hlt,hrest⟩ := pairwise_cons.mp hasc
    have hlt' := (pairwise_cons.mp hrest).1
    simp only [map_cons,sampleAt]
    by_cases hs : s≤t
    · rw [if_pos hs]
      refine ih hs hrest (fun e he h1 h2 => ?_)
      rcases mem_cons.mp (hevents e he (lt_trans (hlt s mem_cons_self) h1) h2) with h | h
      · exact absurd h h1.ne'
      · exact h
    · rw [if_neg hs]
      refine hconst a t ha (fun e he h => ?_)
      have hle : s≤e := by
        rcases mem_cons.mp (hevents e he h.1 h.2) with h' | h'
        · exact h'.ge
        · exact (hlt' e h').le
      exact hs (hle.trans h.2)

/-- Within a covering stretch an instant stays covered until it stops. -/
theorem Span.covers_of_le {i : Span α} (h : i.covers t=true) (hts : t ≤ s)
    (hs : ∀e∈i.stop,s<e) : i.covers s=true := by
  simp only [Span.covers,Bool.and_eq_true,decide_eq_true_eq,Option.all_eq_true] at h ⊢
  exact ⟨h.1.trans hts,fun e he => by simpa using hs e he⟩

end Oboard.Spans
