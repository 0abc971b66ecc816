import Mathlib.Logic.Relation

namespace Oboard.Links

open Relation

variable {α : Type} {r r' : α → α → Prop} {a b x y : α}

/-- Two points are joined once the class of one point is merged with that of another. -/
def Merged (r : α → α → Prop) (a b x y : α) : Prop :=
  EqvGen r x y ∨ (EqvGen r x a ∧ EqvGen r b y) ∨ (EqvGen r x b ∧ EqvGen r a y)

theorem Merged.symm (h : Merged r a b x y) : Merged r a b y x := by
  rcases h with h | ⟨h1,h2⟩ | ⟨h1,h2⟩
  · exact .inl (h.symm _ _)
  · exact .inr (.inr ⟨h2.symm _ _,h1.symm _ _⟩)
  · exact .inr (.inl ⟨h2.symm _ _,h1.symm _ _⟩)

theorem Merged.trans (h : Merged r a b x y) (h' : Merged r a b y z) : Merged r a b x z := by
  rcases h with h | ⟨h1,h2⟩ | ⟨h1,h2⟩ <;> rcases h' with h' | ⟨h1',h2'⟩ | ⟨h1',h2'⟩
  · exact .inl (h.trans _ _ _ h')
  · exact .inr (.inl ⟨h.trans _ _ _ h1',h2'⟩)
  · exact .inr (.inr ⟨h.trans _ _ _ h1',h2'⟩)
  · exact .inr (.inl ⟨h1,h2.trans _ _ _ h'⟩)
  · exact .inr (.inl ⟨h1,h2'⟩)
  · exact .inl (h1.trans _ _ _ h2')
  · exact .inr (.inr ⟨h1,h2.trans _ _ _ h'⟩)
  · exact .inl (h1.trans _ _ _ h2')
  · exact .inr (.inr ⟨h1,h2'⟩)

/-- New links inside the old classes or from the first class to the second point join
no more than the two classes. -/
theorem eqvGen_merged (h : ∀x y,r' x y → Merged r a b x y) (hxy : EqvGen r' x y) :
    Merged r a b x y := by
  induction hxy with
  | rel x y hr => exact h x y hr
  | refl x => exact .inl (.refl x)
  | symm x y _ ih => exact ih.symm
  | trans x y z _ _ ih1 ih2 => exact ih1.trans ih2

end Oboard.Links
