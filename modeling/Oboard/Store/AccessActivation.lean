import Oboard.Store.AccessChanges

namespace Oboard.Store

open GoText Oboard.Core List Table

/-- The rows of a deleted plan go with it. -/
def PlanBindings.deletePlan (t : PlanBindings) (planID : Int) : PlanBindings where
  rows := t.rows.deleteRows (fun _ row => row.planID=planID)
  nextID := t.nextID
  fresh := by
    intro id row h
    rw [lookup_deleteRows] at h
    exact t.fresh id row (Option.filter_eq_some_iff.mp h).1
  oneEnabled := by
    intro id row id' row' h h'
    rw [lookup_deleteRows] at h h'
    exact t.oneEnabled id row id' row' (Option.filter_eq_some_iff.mp h).1
      (Option.filter_eq_some_iff.mp h').1

inductive AccessChangePhase where
  | prepare
  | finalize
  deriving DecidableEq

def AccessChangeTarget.taskID (v : AccessChangeTarget) : AccessChangePhase → Int
  | .prepare => v.prepareTaskID
  | .finalize => v.finalizeTaskID

def AccessChangeTarget.setTask (v : AccessChangeTarget) (taskID : Int)
    (status : AccessChangeTargetStatus) : AccessChangePhase → AccessChangeTarget
  | .prepare => {v with prepareTaskID := taskID,status := status}
  | .finalize => {v with finalizeTaskID := taskID,status := status}

def setAccessChangeTargetTask (s : AccessStore) (changeID serverID taskID : Int)
    (phase : AccessChangePhase) (status : AccessChangeTargetStatus) : AccessStore :=
  {s with targets := s.targets.modify (changeID,serverID) (·.setTask taskID status phase)}

def listAccessChangesByStatus (s : AccessStore) (statuses : List AccessChangeStatus) :
    List (Int×AccessChange) :=
  (s.changes.rows.filter (fun r => statuses.contains r.2.status)).insertionSort (·.1 ≤ ·.1)

def listAccessChangeTargets (s : AccessStore) (changeID : Int) : List (Int×AccessChangeTarget) :=
  ((s.targets.rows.filter (fun r => r.1.1=changeID)).map
    (fun r => (r.1.2,r.2))).insertionSort (·.1 ≤ ·.1)

theorem mem_listAccessChangesByStatus : r∈listAccessChangesByStatus s statuses ↔
      s.changes.lookup r.1=some r.2 ∧ r.2.status∈statuses := by
  rw [listAccessChangesByStatus,mem_insertionSort,mem_filter,← mem_rows, contains_iff_mem]

theorem mem_listAccessChangeTargets : r∈listAccessChangeTargets s changeID ↔
      s.targets.lookup (changeID,r.1)=some r.2 := by
  rw [listAccessChangeTargets,mem_insertionSort,← mem_rows]
  simp only [mem_map,mem_filter,decide_eq_true_eq]
  constructor
  · rintro ⟨⟨⟨id,serverID⟩,v⟩,⟨hr,rfl⟩,rfl⟩
    exact hr
  · intro hr
    exact ⟨_,⟨hr,rfl⟩,rfl⟩

def errPlanRevisionConflict : String :=
  "plan revision conflict: the plan changed since preview; re-preview and retry"

def PlanRow.activate (plan : PlanRow) (candidateRevisionID : Int) : PlanRow :=
  {plan with
    currentRevisionID := candidateRevisionID
    activeRevisionID := candidateRevisionID
    pendingRevisionID := if plan.pendingRevisionID=candidateRevisionID then 0
      else plan.pendingRevisionID}

section

variable (s : AccessStore)

/-- Offers the candidate to the plan's users. The pending column and the change's own status are
not looked at. -/
def activatePlanVersionGuarded (planID expectedCurrentRevisionID
    candidateRevisionID accessChangeID : Int) : Except String AccessStore :=
  match s.plans.lookup planID with
  | none => .error "sql: no rows in result set"
  | some plan =>
    if plan.currentRevisionID≠expectedCurrentRevisionID then .error errPlanRevisionConflict
    else if s.planRevisions.lookup candidateRevisionID≠some planID then
      .error errPlanRevisionConflict
    else if 0<accessChangeID ∧ ((s.changes.lookup accessChangeID).map
        (·.candidateRevisionID)).getD candidateRevisionID≠candidateRevisionID then
      .error errPlanRevisionConflict
    else .ok {s with plans := s.plans.insert planID (plan.activate candidateRevisionID)}

def setSubscriptionPlanEnabled (id : Int) (enabled : Bool) : AccessStore :=
  {s with plans := s.plans.modify id (fun plan => {plan with enabled := enabled})}

def setUserNodeExceptionStatus (id : Int) (status : UserNodeExceptionStatus) : AccessStore :=
  {s with exceptions := s.exceptions.modify id (fun _ => status)}

/-- The change that deletes a plan is detached first and survives the cascade. -/
def remainingChanges (planID changeID : Int) : Table Int AccessChange :=
  let detached := if 0<changeID then
    s.changes.modify changeID (fun v => {v with sourcePlanID := 0}) else s.changes
  detached.deleteRows (fun _ v => v.sourcePlanID=planID && planID≠0)

/-- Revisions, bindings, changes and their targets cascade with the plan. -/
def deleteSubscriptionPlanTx (planID changeID : Int) : AccessStore :=
  let changes := remainingChanges s planID changeID
  {s with
    planBindings := s.planBindings.deletePlan planID
    plans := s.plans.erase planID
    planRevisions := s.planRevisions.deleteRows (fun _ plan => plan=planID)
    changes := changes
    targets := s.targets.deleteRows (fun k _ =>
      (s.changes.lookup k.1).isSome && (changes.lookup k.1).isNone)}

end

end Oboard.Store
