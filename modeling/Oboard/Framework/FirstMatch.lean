import Mathlib.Data.List.Basic
import Mathlib.Tactic.Common

namespace Oboard.FirstMatch

open List

variable {ρ X ω : Type}

/-- What one rule does with a request: nothing, a rewrite that lets it pass on, or a decision. -/
inductive Verdict (X ω : Type) where
  | skip
  | pass (x : X)
  | final (out : ω)

/-- First-match evaluation. A request no rule decides comes out rewritten. -/
def eval (judge : ρ → X → Verdict X ω) : List ρ → X → X⊕ω
  | [],x => .inl x
  | r::rs,x =>
    match judge r x with
    | .skip => eval judge rs x
    | .pass y => eval judge rs y
    | .final out => .inr out

theorem eval_append (judge : ρ → X → Verdict X ω) (rs ts : List ρ) (x : X) :
    eval judge (rs++ts) x=(eval judge rs x).elim (eval judge ts) .inr := by
  induction rs generalizing x with
  | nil => rfl
  | cons r rs ih =>
    simp only [cons_append,eval]
    cases judge r x with
    | skip => exact ih x
    | pass y => exact ih y
    | final out => rfl

variable {judge : ρ → X → Verdict X ω}

theorem eval_filter (h : ∀r∈rs,keep r=false → ∀x,judge r x=.skip) (x) :
    eval judge (rs.filter keep) x=eval judge rs x := by
  induction rs generalizing x with
  | nil => rfl
  | cons r rs ih =>
    have hrs := ih (fun r' hr' => h r' (mem_cons_of_mem _ hr'))
    cases hk : keep r with
    | true =>
      rw [filter_cons_of_pos hk]
      simp only [eval]
      cases judge r x with
      | skip => exact hrs x
      | pass y => exact hrs y
      | final out => rfl
    | false =>
      rw [filter_cons_of_neg (by simp [hk])]
      simp only [eval,h r mem_cons_self hk x]
      exact hrs x

theorem eval_inr_final (h : eval judge rs x=.inr out) : ∃r∈rs,∃z,judge r z=.final out := by
  induction rs generalizing x with
  | nil => simp [eval] at h
  | cons t rs ih =>
    simp only [eval] at h
    cases ht : judge t x with
    | skip =>
      obtain ⟨r,hr,hz⟩ := ih (by simpa [ht] using h)
      exact ⟨r,mem_cons_of_mem _ hr,hz⟩
    | pass y =>
      obtain ⟨r,hr,hz⟩ := ih (by simpa [ht] using h)
      exact ⟨r,mem_cons_of_mem _ hr,hz⟩
    | final o =>
      simp only [ht,Sum.inr.injEq] at h
      exact ⟨t,mem_cons_self,x,by rw [ht,h]⟩

theorem eval_inl_not_final
    (h : eval judge rs x=.inl y) (hr : r∈rs) (hf : ∀z,∃out,judge r z=.final out) : False := by
  induction rs generalizing x with
  | nil => simp at hr
  | cons t rs ih =>
    simp only [eval] at h
    rcases mem_cons.mp hr with rfl | hr
    · obtain ⟨out,ho⟩ := hf x
      simp [ho] at h
    cases ht : judge t x with
    | skip => exact ih (by simpa [ht] using h) hr
    | pass z => exact ih (by simpa [ht] using h) hr
    | final out => simp [ht] at h

/-- Either some rule of a kind occurs, and then there is a first one, or none does. -/
theorem first_split (p : ρ → Prop) [DecidablePred p] (rs : List ρ) :
    (∀r∈rs,¬p r) ∨ ∃pre r post,rs=pre++r::post ∧ p r ∧ ∀t∈pre,¬p t := by
  induction rs with
  | nil => exact .inl (by simp)
  | cons r rs ih =>
    by_cases h : p r
    · exact .inr ⟨[],r,rs,rfl,h,by simp⟩
    rcases ih with hno | ⟨pre,t,post,rfl,ht,hpre⟩
    · exact .inl (forall_mem_cons.mpr ⟨h,hno⟩)
    · exact .inr ⟨r::pre,t,post,rfl,ht,forall_mem_cons.mpr ⟨h,hpre⟩⟩

end Oboard.FirstMatch
