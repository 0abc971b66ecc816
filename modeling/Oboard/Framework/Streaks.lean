import Mathlib.Data.List.Chain

namespace Oboard.Streaks

open List

variable {α : Type} (follows : α → α → Bool) (p : α → Bool)

/-- Whether an entry follows the newest one of a history, which is listed newest first. -/
def linked (history : List α) (a : α) : Bool := history.head?.any (fun b => follows b a)

/-- How many entries at the end of a history meet a test, each following the one before. -/
def streak : List α → Nat
  | [] => 0
  | a::history => if p a then (if linked follows history a then streak history else 0)+1 else 0

/-- The last entries of a history meet a test, each following the one before. -/
def Recent (n : Nat) (history : List α) : Prop :=
  ∃recent,recent<+:history ∧ recent.length=n ∧ recent.IsChain (fun a b => follows b a=true) ∧
    ∀a∈recent,p a=true

variable {follows p}

theorem streak_of_not (history : List α) (h : p a=false) : streak follows p (a::history)=0 := by
  simp [streak,h]

theorem Recent.nil (history : List α) : Recent follows p 0 history :=
  ⟨[], nil_prefix,rfl,.nil,by simp⟩

theorem recent_cons : Recent follows p (n+1) (a::history) ↔
      p a=true ∧ (n=0 ∨ linked follows history a=true ∧ Recent follows p n history) := by
  constructor
  · rintro ⟨recent,hpre,hlength,hchain,hall⟩
    obtain ⟨b,rest,rfl⟩ := exists_cons_of_length_eq_add_one hlength
    obtain ⟨rfl,hrest⟩ := cons_prefix_cons.mp hpre
    refine ⟨hall b mem_cons_self,?_⟩
    cases rest with
    | nil => exact .inl (by simpa using hlength.symm)
    | cons c rest =>
      obtain ⟨tail,rfl⟩ := hrest
      refine .inr ⟨(isChain_cons_cons.mp hchain).1,c::rest,⟨tail,rfl⟩,by simpa using hlength,
        (isChain_cons_cons.mp hchain).2,fun x hx => hall x (mem_cons_of_mem _ hx)⟩
  · rintro ⟨ha,hn⟩
    rcases hn with rfl | ⟨hlink,recent,hpre,hlength,hchain,hall⟩
    · exact ⟨[a],⟨history,rfl⟩,rfl,.singleton a,by simpa using ha⟩
    refine ⟨a::recent,cons_prefix_cons.mpr ⟨rfl,hpre⟩,by simp [hlength],?_,?_⟩
    · cases recent with
      | nil => exact .singleton a
      | cons b recent =>
        obtain ⟨tail,rfl⟩ := hpre
        exact .cons_cons hlink hchain
    · exact forall_mem_cons.mpr ⟨ha,hall⟩

theorem le_streak_iff : n≤ streak follows p history ↔ Recent follows p n history := by
  induction history generalizing n with
  | nil =>
    rw [streak,Nat.le_zero]
    constructor
    · rintro rfl
      exact .nil []
    · rintro ⟨recent,hpre,hlength,-⟩
      rw [← hlength,prefix_nil.mp hpre,length_nil]
  | cons a history ih =>
    cases n with
    | zero => exact ⟨fun _ => .nil _,fun _ => Nat.zero_le _⟩
    | succ n =>
      rw [recent_cons,← ih,streak]
      by_cases ha : p a=true
      · by_cases hlink : linked follows history a=true
        · simp only [ha,hlink,if_true,true_and]
          omega
        · simp only [ha,hlink,if_true,true_and,Bool.false_eq_true,if_false,false_and,or_false]
          omega
      · simp [ha]

/-- A counter that stops at its bound and starts anew where the chain breaks counts the streak. -/
theorem min_streak_cons (hb : 0<bound) (a) (history : List α) :
    min bound (streak follows p (a::history))=
      if p a then min ((if linked follows history a then min bound (streak follows p history) else 0)+1)
        bound else 0 := by
  rw [streak]
  split_ifs <;> omega

end Oboard.Streaks
