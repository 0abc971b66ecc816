import Mathlib.Algebra.Ring.Int.Defs
import Mathlib.Algebra.BigOperators.Group.List.Basic
import Mathlib.Algebra.Order.BigOperators.Group.List
import Mathlib.Data.List.Induction

namespace Oboard.Runs

open List

variable {σ ι ω ε : Type}

theorem bind_ok {f : α → Except ε β} (h : x >>= f=.ok b) : ∃a,x=.ok a ∧ f a=.ok b := by
  cases x with
  | error e => simp [bind,Except.bind] at h
  | ok a => exact ⟨a,rfl,h⟩

theorem bind_error {f : α → Except ε β}
    (h : x >>= f=.error err) : x=.error err ∨ ∃a,x=.ok a ∧ f a=.error err := by
  cases x with
  | error e => exact .inl (congrArg Except.error (Except.error.inj h))
  | ok a => exact .inr ⟨a,rfl,h⟩

/-- A failed call leaves the state as it was. -/
def keepOnError {α : Type} (a : α) (result : Except ε α) : α :=
  match result with
  | .error _ => a
  | .ok b => b

/-- A loop that stops at the first error and collects one answer per input. -/
def collect (step : σ → ι → Except ε (σ×ω)) : σ → List ι → Except ε (σ×List ω)
  | s,[] => .ok (s,[])
  | s,i::is =>
    match step s i with
    | .error e => .error e
    | .ok (s1,o) =>
      match collect step s1 is with
      | .error e => .error e
      | .ok (s2,os) => .ok (s2,o::os)

variable {step : σ → ι → Except ε (σ×ω)} {s s' : σ} {is : List ι} {G : σ → ι → Prop}

theorem collect_nil (h : collect step s []=.ok (s',os)) : s'=s ∧ os=[] := by
  simp only [collect,Except.ok.injEq,Prod.mk.injEq] at h
  exact ⟨h.1.symm,h.2.symm⟩

theorem collect_cons (h : collect step s (i::is)=.ok (s',os)) :
    ∃s1 o os1,step s i=.ok (s1,o) ∧ collect step s1 is=.ok (s',os1) ∧ os=o::os1 := by
  unfold collect at h
  cases h1 : step s i with
  | error e => simp [h1] at h
  | ok p =>
    obtain ⟨s1,o⟩ := p
    cases h2 : collect step s1 is with
    | error e => simp [h1,h2] at h
    | ok q =>
      obtain ⟨s2,os1⟩ := q
      simp only [h1,h2,Except.ok.injEq,Prod.mk.injEq] at h
      obtain ⟨rfl,rfl⟩ := h
      exact ⟨s1,o,os1,rfl,h2,rfl⟩

theorem collect_mem (Q : ι → ω → Prop) (hstep : ∀{s i s' o},step s i=.ok (s',o) → Q i o) :
    ∀{is : List ι} {s s' : σ} {os : List ω},collect step s is=.ok (s',os) → ∀o∈os,∃i∈is,Q i o := by
  intro is
  induction is with
  | nil =>
    intro s s' os h
    obtain ⟨-,rfl⟩ := collect_nil h
    simp
  | cons i is ih =>
    intro s s' os h
    obtain ⟨s1,o,os1,h1,h2,rfl⟩ := collect_cons h
    refine forall_mem_cons.mpr ⟨⟨i,mem_cons_self,hstep h1⟩,fun o' ho' => ?_⟩
    obtain ⟨i',hi',hq⟩ := ih h2 o' ho'
    exact ⟨i',mem_cons_of_mem _ hi',hq⟩

theorem collect_forall (Q : ω → Prop) (hstep : ∀{s i s' o},step s i=.ok (s',o) → Q o)
    (h : collect step s is=.ok (s',os)) : ∀o∈os,Q o := by
  intro o ho
  obtain ⟨i,-,hq⟩ := collect_mem (fun _ => Q) hstep h o ho
  exact hq

theorem collect_pure (hstep : ∀i,step s i=.ok (s,g i)) (is) :
    collect step s is=.ok (s,is.map g) := by
  induction is with
  | nil => rfl
  | cons i is ih => simp only [collect,hstep,ih,map_cons]

/-- Each input meets a condition in the state it is processed in. -/
def Guarded (step : σ → ι → Except ε (σ×ω)) (G : σ → ι → Prop) : σ → List ι → Prop
  | _,[] => True
  | s,i::is => G s i ∧ ∀s1 o,step s i=.ok (s1,o) → Guarded step G s1 is

theorem guarded_of_forall (step : σ → ι → Except ε (σ×ω)) (h : ∀i∈is,∀s,G s i) (s : σ) :
    Guarded step G s is := by
  induction is generalizing s with
  | nil => trivial
  | cons i is ih =>
    exact ⟨h i mem_cons_self s,fun s1 _ _ => ih (fun j hj => h j (mem_cons_of_mem _ hj)) s1⟩

theorem guarded_of_invariant (P : σ → Prop)
    (hstep : ∀{s i s' o},i∈is → P s → step s i=.ok (s',o) → P s')
    (hg : ∀{s i},i∈is → P s → G s i) (hs : P s) : Guarded step G s is := by
  induction is generalizing s with
  | nil => trivial
  | cons i is ih =>
    refine ⟨hg mem_cons_self hs,fun s1 o h => ?_⟩
    exact ih (fun hj => hstep (mem_cons_of_mem _ hj)) (fun hj => hg (mem_cons_of_mem _ hj))
      (hstep mem_cons_self hs h)

theorem Guarded.and (hg : Guarded step G s is) (hh : Guarded step H s is) :
    Guarded step (fun s i => G s i ∧ H s i) s is := by
  induction is generalizing s with
  | nil => trivial
  | cons i is ih => exact ⟨⟨hg.1,hh.1⟩,fun s1 o h => ih (hg.2 s1 o h) (hh.2 s1 o h)⟩

/-- What one input preserves of a state and the log of answered inputs, the loop preserves. -/
theorem collect_invariant (P : σ → List (ι×ω) → Prop) (G : σ → ι → Prop)
    (hstep : ∀{s log i s' o},G s i → P s log → step s i=.ok (s',o) → P s' (log++[(i,o)])) :
    ∀{s s' : σ} {w : List (ι×ω)} {is : List ι} {os : List ω},Guarded step G s is → P s w →
      collect step s is=.ok (s',os) → P s' (w++is.zip os) := by
  intro s s' w is
  induction is generalizing s w with
  | nil =>
    intro os _ hp h
    obtain ⟨rfl,rfl⟩ := collect_nil h
    simpa using hp
  | cons i is ih =>
    intro os hg hp h
    obtain ⟨s1,o,os1,h1,h2,rfl⟩ := collect_cons h
    have hp1 := hstep hg.1 hp h1
    have := ih (hg.2 s1 o h1) hp1 h2
    simpa using this

/-- What relates the states around one turn of a loop relates those around the loop. -/
theorem foldl_related {R : σ → σ → Prop} (hrefl : ∀s,R s s)
    (htrans : ∀{a b c},R a b → R b c → R a c) (hf : ∀s i,R s (f s i))
    (is : List ι) (s : σ) : R s (is.foldl f s) := by
  induction is generalizing s with
  | nil => exact hrefl s
  | cons i is ih => exact htrans (hf s i) (ih (f s i))

theorem foldlM_related {R : σ → σ → Prop} (hrefl : ∀s,R s s)
    (htrans : ∀{s t u},R s t → R t u → R s u) {f : σ → ι → Except ε σ}
    (hstep : ∀{s i s'},f s i=.ok s' → R s s') (h : is.foldlM f s=.ok s') : R s s' := by
  induction is generalizing s with
  | nil =>
    cases h
    exact hrefl _
  | cons i is ih =>
    rw [foldlM_cons] at h
    obtain ⟨t,hone,h⟩ := bind_ok h
    exact htrans (hstep hone) (ih h)

theorem foldlM_ok {f : σ → ι → Except ε σ} (h : ∀i∈is,∀s,∃s',f s i=.ok s') (s) :
    ∃s',is.foldlM f s=.ok s' := by
  induction is generalizing s with
  | nil => exact ⟨s,rfl⟩
  | cons i is ih =>
    obtain ⟨t,hone⟩ := h i mem_cons_self s
    rw [foldlM_cons,hone]
    exact ih (fun j hj => h j (mem_cons_of_mem _ hj)) t

/-- A whole run, with the answers of all its steps in order. -/
def run (step : σ → ι → σ×List ω) : σ → List ι → σ×List ω
  | s,[] => (s,[])
  | s,i::is =>
    let first := step s i
    let rest := run step first.1 is
    (rest.1,first.2++rest.2)

theorem run_append (step : σ → ι → σ×List ω) (s : σ) (is js : List ι) : run step s (is++js)=
      ((run step (run step s is).1 js).1,(run step s is).2++(run step (run step s is).1 js).2) := by
  induction is generalizing s with
  | nil => simp [run]
  | cons i is ih => simp [run,ih]

def RunGuarded (step : σ → ι → σ×List ω) (G : σ → ι → Prop) : σ → List ι → Prop
  | _,[] => True
  | s,i::is => G s i ∧ RunGuarded step G (step s i).1 is

instance instDecidableRunGuarded (step : σ → ι → σ×List ω) (G : σ → ι → Prop) [∀s i,Decidable (G s i)] :
    ∀s is,Decidable (RunGuarded step G s is)
  | _,[] => .isTrue trivial
  | s,i::is =>
    have : Decidable (RunGuarded step G (step s i).1 is) :=
      instDecidableRunGuarded step G (step s i).1 is
    inferInstanceAs (Decidable (G s i ∧ RunGuarded step G (step s i).1 is))

theorem runGuarded_of_forall (step : σ → ι → σ×List ω) (h : ∀i∈is,∀s,G s i) (s : σ) :
    RunGuarded step G s is := by
  induction is generalizing s with
  | nil => trivial
  | cons i is ih =>
    exact ⟨h i mem_cons_self s,ih (fun j hj => h j (mem_cons_of_mem _ hj)) _⟩

section steps

variable {step : σ → ι → σ×List ω}

theorem runGuarded_append :
    RunGuarded step G s (is++js) ↔ RunGuarded step G s is ∧ RunGuarded step G (run step s is).1 js := by
  induction is generalizing s with
  | nil => simp [RunGuarded,run]
  | cons i is ih => simp [RunGuarded,run,ih,and_assoc]

theorem RunGuarded.and (hg : RunGuarded step G s is)
    (hh : RunGuarded step H s is) : RunGuarded step (fun s i => G s i ∧ H s i) s is := by
  induction is generalizing s with
  | nil => trivial
  | cons i is ih => exact ⟨⟨hg.1,hh.1⟩,ih hg.2 hh.2⟩

theorem run_invariant (P : σ → List ω → Prop) (G : σ → ι → Prop)
    (hstep : ∀{s log i},G s i → P s log → P (step s i).1 (log++(step s i).2)) :
    ∀{is : List ι} {s : σ} {w : List ω},RunGuarded step G s is → P s w →
      P (run step s is).1 (w++(run step s is).2) := by
  intro is
  induction is with
  | nil =>
    intro s w _ hp
    simpa [run] using hp
  | cons i is ih =>
    intro s w hg hp
    have := ih hg.2 (hstep hg.1 hp)
    simpa [run] using this

variable (step) in
theorem run_keeps (P : σ → List ω → Prop)
    (hstep : ∀{s log i},P s log → P (step s i).1 (log++(step s i).2)) (h : P s []) (is) :
    P (run step s is).1 (run step s is).2 :=
  run_invariant P (fun _ _ => True) (fun _ => hstep)
    (runGuarded_of_forall step (fun _ _ _ => trivial) s) h

/-- Where a guard says when a step keeps a property, it does so for a whole run. -/
theorem throughout_iff_runGuarded_of {P : σ → Prop}
    (hstep : ∀s i,H s i → P s → (P (step s i).1 ↔ G s i)) (hs : P s)
    (hrun : RunGuarded step H s is) :
    (∀before,before<+:is → P (run step s before).1) ↔ RunGuarded step G s is := by
  induction is generalizing s with
  | nil => simpa [RunGuarded,run] using hs
  | cons i is ih =>
    obtain ⟨hi,hrest⟩ := hrun
    constructor
    · intro h
      have hp : P (step s i).1 := by simpa [run] using h [i] (by simp)
      refine ⟨(hstep s i hi hs).mp hp,(ih hp hrest).mp fun before hb => ?_⟩
      simpa [run] using h (i::before) (prefix_cons_inj i |>.mpr hb)
    rintro ⟨hg,hgs⟩ before hb
    cases before with
    | nil => simpa [run] using hs
    | cons j before =>
      obtain ⟨rfl,hbs⟩ := cons_prefix_cons.mp hb
      simpa [run] using (ih ((hstep s j hi hs).mpr hg) hrest).mpr hgs before hbs

theorem throughout_iff_runGuarded {P : σ → Prop}
    (hstep : ∀s i,P s → (P (step s i).1 ↔ G s i)) (hs : P s) (is : List ι) :
    (∀before,before<+:is → P (run step s before).1) ↔ RunGuarded step G s is :=
  throughout_iff_runGuarded_of (H := fun _ _ => True) (fun s i _ => hstep s i) hs
    (runGuarded_of_forall step (fun _ _ _ => trivial) s)

/-- A guard that keeps an invariant, and that a property which follows from the invariant needs. -/
theorem logged_iff_runGuarded {I P : σ → List ω → Prop}
    (hstep : ∀{s log i},G s i → I s log → I (step s i).1 (log++(step s i).2))
    (hof : ∀{s log},I s log → P s log)
    (hneed : ∀{s log i},P (step s i).1 (log++(step s i).2) → G s i) (hs : I s []) (is : List ι) :
    (∀before,before<+:is → P (run step s before).1 (run step s before).2) ↔ RunGuarded step G s is := by
  constructor
  · intro h
    induction is using List.reverseRecOn with
    | nil => trivial
    | append_singleton is i ih =>
      have hlast := h (is++[i]) (prefix_refl _)
      simp only [run_append,run,append_nil] at hlast
      have hbefore := ih (fun before hb => h before (hb.trans (prefix_append _ _)))
      exact runGuarded_append.mpr ⟨hbefore,hneed hlast,trivial⟩
  · rintro hg before ⟨rest,rfl⟩
    have hi := run_invariant I G hstep (runGuarded_append.mp hg).1 hs
    rw [nil_append] at hi
    exact hof hi

end steps

/-- Every entry of a log is allowed after the entries before it. -/
def Admissible (allowed : List ω → ω → Prop) (log : List ω) : Prop :=
  ∀before e after,log=before++e::after → allowed before e

theorem admissible_nil (allowed : List ω → ω → Prop) : Admissible allowed [] := by
  intro before e after h
  simp at h

theorem Admissible.snoc
    (h : Admissible allowed log) (he : allowed log e) : Admissible allowed (log++[e]) := by
  intro before x after heq
  rcases eq_nil_or_concat after with rfl | ⟨rest,last,rfl⟩
  · obtain ⟨rfl,hx⟩ := append_inj' heq rfl
    cases hx
    exact he
  · have heq' : log++[e]=(before++x::rest)++[last] := by simpa using heq
    exact h before x rest (append_inj' heq' rfl).1

def sumWhere (p : ω → Bool) (f : ω → Int) (log : List ω) : Int := ((log.filter p).map f).sum

theorem sumWhere_snoc (p : ω → Bool) (f : ω → Int) (log : List ω) (a : ω) :
    sumWhere p f (log++[a])=sumWhere p f log+if p a then f a else 0 := by
  unfold sumWhere
  by_cases h : p a <;> simp [filter_append,h]

theorem sumWhere_nonneg (h : ∀a∈log,0≤f a) : 0 ≤ sumWhere p f log := by
  apply sum_nonneg
  intro x hx
  obtain ⟨a,ha,rfl⟩ := mem_map.mp hx
  exact h a (mem_filter.mp ha).1

end Oboard.Runs
