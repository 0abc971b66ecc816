import Mathlib.Logic.Relation
import Mathlib.Tactic.SplitIfs

namespace Oboard.Redirects

open Relation

variable {α : Type} {f : α → Option α} {a b s t : α}

/-- No redirect leads to a point that is redirected itself. -/
def Flat (f : α → Option α) : Prop := ∀⦃a b⦄,f a=some b → f b=none

/-- Where a point leads, itself unless it is redirected. -/
def finish (f : α → Option α) (a : α) : α := (f a).getD a

theorem Flat.finish_stays (h : Flat f) (a) : f (finish f a)=none := by
  unfold finish
  cases ha : f a with
  | none => exact ha
  | some b => exact h ha

theorem finish_of_none (h : f a=none) : finish f a=a := by rw [finish,h]; rfl

theorem finish_of_some (h : f a=some b) : finish f a=b := by rw [finish,h]; rfl

theorem Flat.acyclic (h : Flat f) (a) : ¬TransGen (fun x y => f x=some y) a a := by
  intro hcycle
  obtain ⟨b,hb,hrest⟩ := TransGen.head'_iff.mp hcycle
  have hstay := h hb
  rcases hrest.cases_head with rfl | ⟨c,hc,-⟩
  · rw [hb] at hstay
    cases hstay
  · rw [hc] at hstay
    cases hstay

variable [DecidableEq α]

/-- Redirects a point, and everything that led to it, to another one. -/
def redirect (f : α → Option α) (s t a : α) : Option α :=
  if a=s ∨ f a=some s then some t else f a

theorem Flat.redirect (h : Flat f) (ht : f t=none) (hne : t≠s) : Flat (redirect f s t) := by
  intro a b hab
  have htarget : Redirects.redirect f s t t=none := by simp [Redirects.redirect,ht,hne]
  unfold Redirects.redirect at hab
  split_ifs at hab with hmoved
  · cases hab
    exact htarget
  have hbs : b≠s := by
    rintro rfl
    exact hmoved (.inr hab)
  simp [Redirects.redirect,h hab,hbs]

end Oboard.Redirects
