import Mathlib.Data.List.Sort
import Oboard.Framework.Redirects
import Oboard.Store.TrafficMigration

namespace Oboard.Store

open Runs Word64 GoText Redirects List Table

/-- Follows at most the given number of transitions and says whether it followed any. -/
def resolveChain (next : String → Option String) :
    Nat → String → Bool → Except TrafficError (String×Bool)
  | 0,_,_ => .error .transitionChainTooDeep
  | hops+1,current,changed =>
    match next current with
    | none => .ok (current,changed)
    | some key => if key="" ∨ key=current then .ok (current,changed) else
      resolveChain next hops key true

theorem resolveChain_flat {next} (hf : Flat next) (hn : ∀p q,next p=some q → q≠"") (hops : Nat)
    (p) : resolveChain next (hops+2) p false=.ok (finish next p,(next p).isSome) := by
  cases hp : next p with
  | none => simp [resolveChain,hp,finish_of_none hp]
  | some q =>
    have hq := hf hp
    have hstop : ¬(q="" ∨ q=p) := by
      rintro (h | rfl)
      · exact hn p q hp h
      · rw [hp] at hq
        cases hq
    simp [resolveChain,hp,hq,hstop,finish_of_some hp]

structure TrafficPeriodTransitionSet where
  forward : Table String String := ∅

def TrafficPeriodTransitionSet.resolve (set : TrafficPeriodTransitionSet) (periodKey : String) :
    Except TrafficError (String×Bool) := resolveChain set.forward.lookup 16 periodKey false

namespace Ledger

section

variable (l : Ledger) (userID : Int) (periodKey : String)

def nextPeriod : Option String :=
  (l.transitions.lookup ⟨userID,periodKey⟩).map Transition.targetPeriodKey

def resolveTrafficPeriodKey :
    Except TrafficError (String×Bool) := resolveChain (l.nextPeriod userID) 16 periodKey false

end

def addTransition (sets : Table Int TrafficPeriodTransitionSet) (row : PeriodKey×Transition) :
    Table Int TrafficPeriodTransitionSet :=
  let set := (sets.lookup row.1.userID).getD {}
  sets.insert row.1.userID ⟨set.forward.insert row.1.periodKey row.2.targetPeriodKey⟩

section

variable (l : Ledger) (userIDs : List Int)

/-- The rows of the requested users, oldest first. Ids that are not positive are not asked for. -/
def transitionRows : List (PeriodKey×Transition) :=
  (l.transitions.rows.filter (fun row => 0<row.1.userID && userIDs.contains row.1.userID)).insertionSort
    (fun a b => a.2.createdAt≤b.2.createdAt)

def trafficPeriodTransitions :
    Table Int TrafficPeriodTransitionSet := (l.transitionRows userIDs).foldl addTransition ∅

/-- A user without transitions has the empty set. -/
def transitionSet (userID : Int) : TrafficPeriodTransitionSet :=
  ((l.trafficPeriodTransitions userIDs).lookup userID).getD {}

end

theorem resolveHops_resolveChain (l : Ledger) (u) (hops : Nat) (p) (changed) :
    l.resolveHops u hops p=(resolveChain (l.nextPeriod u) hops p changed).map Prod.fst := by
  induction hops generalizing p changed with
  | zero => rfl
  | succ hops ih =>
    unfold resolveHops resolveChain nextPeriod
    cases l.transitions.lookup ⟨u,p⟩ with
    | none => rfl
    | some row =>
      simp only [Option.map_some]
      split_ifs
      · rfl
      · exact ih row.targetPeriodKey true

theorem resolveTrafficPeriodKeyTx_eq (l : Ledger) (u) (p) :
    l.resolveTrafficPeriodKeyTx u p=(l.resolveTrafficPeriodKey u p).map Prod.fst :=
  resolveHops_resolveChain l u 16 p false

theorem lookup_foldl_addTransition (rows : List (PeriodKey×Transition))
    (sets : Table Int TrafficPeriodTransitionSet) :
    (((rows.foldl addTransition sets).lookup u).getD {}).forward.lookup p=
      ((rows.reverse.find? (fun row => row.1=⟨u,p⟩)).map (·.2.targetPeriodKey)).or
        (((sets.lookup u).getD {}).forward.lookup p) := by
  induction rows generalizing sets with
  | nil => simp
  | cons row rows ih =>
    have hstep : (((addTransition sets row).lookup u).getD {}).forward.lookup p=
        if row.1=⟨u,p⟩ then some row.2.targetPeriodKey
        else ((sets.lookup u).getD {}).forward.lookup p := by
      obtain ⟨⟨v,q⟩,t⟩ := row
      simp only [addTransition,lookup_insert_eq,PeriodKey.mk.injEq]
      by_cases hu : u=v
      · subst hu
        simp only [if_true,Option.getD_some,lookup_insert_eq,true_and]
        by_cases hp : p=q
        · simp [hp]
        · simp [hp,Ne.symm hp]
      · simp [hu,Ne.symm hu]
    rw [foldl_cons,ih,hstep,reverse_cons,find?_append]
    cases rows.reverse.find? (fun row => row.1=⟨u,p⟩) with
    | some found => simp
    | none =>
      by_cases h : row.1=⟨u,p⟩
      · simp [h]
      · simp [h]

theorem transitionSet_lookup (l : Ledger) (hu : u∈userIDs)
    (hpos : ∀p q,l.nextPeriod u p=some q → 0<u) (p) :
    (l.transitionSet userIDs u).forward.lookup p=l.nextPeriod u p := by
  have hrows : ∀row,row∈(l.transitionRows userIDs).reverse ↔
      row∈l.transitions.rows ∧ 0<row.1.userID ∧ row.1.userID∈userIDs := by
    intro row
    simp [transitionRows,mem_insertionSort]
  have hrow : ∀r,l.transitions.lookup ⟨u,p⟩=some r → (⟨u,p⟩,r)∈(l.transitionRows userIDs).reverse := by
    intro r hr
    exact (hrows _).mpr ⟨mem_rows.mpr hr,hpos p r.targetPeriodKey (by simp [nextPeriod,hr]),hu⟩
  unfold transitionSet trafficPeriodTransitions nextPeriod
  rw [lookup_foldl_addTransition,find_row (fun row h => ((hrows row).mp h).1) hrow]
  cases l.transitions.lookup ⟨u,p⟩ <;> simp

theorem transitionSet_resolve (l : Ledger) (hu : u∈userIDs)
    (hpos : ∀p q,l.nextPeriod u p=some q → 0<u) (p) :
    (l.transitionSet userIDs u).resolve p=l.resolveTrafficPeriodKey u p := by
  unfold TrafficPeriodTransitionSet.resolve resolveTrafficPeriodKey
  rw [funext (l.transitionSet_lookup hu hpos)]

end Ledger

end Oboard.Store
