import Oboard.Framework.Table

namespace Oboard

open Table

/-- A table whose integer keys are handed out in ascending order and never twice. -/
structure Serial (ρ : Type) where
  rows : Table Int ρ := ∅
  next : Int := 1
  below : ∀id row,rows.lookup id=some row → id<next := by simp

namespace Serial

variable {ρ : Type}

def lookup (t : Serial ρ) (id : Int) : Option ρ := t.rows.lookup id

def add (t : Serial ρ) (row : ρ) : Serial ρ where
  rows := t.rows.insert t.next row
  next := t.next+1
  below := forall_insert (fun id row h => lt_trans (t.below id row h) (Int.lt_succ _))
    (Int.lt_succ _)

theorem lookup_add (t : Serial ρ) (row : ρ) (id) :
    (t.add row).lookup id=if id=t.next then some row else t.lookup id :=
  lookup_insert_eq ..

theorem lookup_add_of_some {t : Serial ρ} {id : Int} (h : t.lookup id=some found) :
    (t.add row).lookup id=some found := by
  rw [lookup_add,if_neg (t.below id found h).ne]
  exact h

def update (t : Serial ρ) (f : Int → ρ → ρ) : Serial ρ where
  rows := t.rows.mapRows f
  next := t.next
  below := by
    intro id row h
    rw [lookup_mapRows,Option.map_eq_some_iff] at h
    obtain ⟨old,hold,-⟩ := h
    exact t.below id old hold

theorem lookup_update (t : Serial ρ) (f : Int → ρ → ρ) (id) :
    (t.update f).lookup id=(t.lookup id).map (f id) :=
  lookup_mapRows ..

end Serial

end Oboard
