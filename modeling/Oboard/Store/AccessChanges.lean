import Oboard.Store.PlanBindings

namespace Oboard.Store

open GoText Oboard.Core

namespace PlanBindings

section

variable (t : PlanBindings)

/-- Activation of an assignment: pending rows of the users become active, also disabled ones. -/
def setUserPlanBindingsActiveForUsers (userIDs : List Int) (ts : Time) : PlanBindings :=
  t.update (fun row => if userIDs.contains row.userID && row.status=.pending then
      {row with
        status := .active
        deployedAt := some (row.deployedAt.getD ts)
        trafficResetAnchorAt := some (row.trafficResetAnchorAt.getD ts)} else row)
    (fun row => by split_ifs <;> rfl)
    (fun row => by split_ifs <;> exact id)

def clearUserPlanBindingsForPlan (planID : Int) : PlanBindings :=
  t.update (fun row => if row.planID=planID then {row with enabled := false} else row)
    (fun row => by split_ifs <;> rfl)
    (fun row => by split_ifs <;> simp)

/-- The rows after an assignment is undone: its pending rows go, the previous rows are enabled. -/
def revertedRows (userIDs previousIDs : List Int) : Table Int PlanBindingRow :=
  (t.rows.deleteRows (fun _ row => row.status=.pending && row.enabled &&
    userIDs.contains row.userID)).mapRows
      (fun id row => if previousIDs.contains id then {row with enabled := true} else row)

/-- The unique index rejects the whole transaction when two enabled rows of a user meet. -/
def revertPendingUserPlanBindings (userIDs previousIDs : List Int) : Except String PlanBindings :=
  if userIDs=[] then .ok t
  else if h : OneEnabled (t.revertedRows userIDs previousIDs) then
    .ok { rows := t.revertedRows userIDs previousIDs
          nextID := t.nextID
          fresh := by
            intro id row hrow
            rw [revertedRows,Table.lookup_mapRows,Table.lookup_deleteRows] at hrow
            obtain ⟨row0,h0,-⟩ := Option.map_eq_some_iff.mp hrow
            exact t.fresh id row0 (Option.filter_eq_some_iff.mp h0).1
          oneEnabled := h }
  else .error "UNIQUE constraint failed: user_plan_bindings.user_id"

end

end PlanBindings

inductive AccessChangeType where
  | planPublish
  | planRestore
  | planDisable
  | planDelete
  | userBindings
  | exceptions
  deriving DecidableEq

inductive AccessChangeStatus where
  | preparing
  | activating
  | finalizing
  | finalized
  | failed
  | cancelled
  deriving DecidableEq

def AccessChangeStatus.text : AccessChangeStatus → String
  | .preparing => "preparing"
  | .activating => "activating"
  | .finalizing => "finalizing"
  | .finalized => "finalized"
  | .failed => "failed"
  | .cancelled => "cancelled"

inductive AccessChangeTargetStatus where
  | pending
  | preparing
  | prepared

/-- One row of access_changes, without the projections that only deployments read. -/
structure AccessChange where
  changeType : AccessChangeType
  sourcePlanID : Int := 0
  candidateRevisionID : Int := 0
  expectedActiveRevisionID : Int := 0
  status : AccessChangeStatus := .preparing
  activateAt : Option Time := none
  userIDs : List Int := []
  exceptionIDs : List Int := []
  targetStatus : UserNodeExceptionStatus := .unset
  error : String := ""
  activatedAt : Option Time := none
  finalizedAt : Option Time := none
  failedAt : Option Time := none

/-- Only an assignment activates bindings: all pending ones of its users. -/
def AccessChange.boundUsers (v : AccessChange) : List Int :=
  if v.changeType=.userBindings then v.userIDs else []

/-- One row of access_change_targets. A task id of zero means no task. -/
structure AccessChangeTarget where
  prepareTaskID : Int := 0
  finalizeTaskID : Int := 0
  status : AccessChangeTargetStatus := .pending

/-- The revision columns of a plan. A null revision is zero. -/
structure PlanRow where
  enabled : Bool
  currentRevisionID : Int
  activeRevisionID : Int
  latestRevisionID : Int
  pendingRevisionID : Int
  lockVersion : Int

structure AccessStore where
  planBindings : PlanBindings
  plans : Table Int PlanRow := ∅
  planRevisions : Table Int Int := ∅
  exceptions : Table Int UserNodeExceptionStatus := ∅
  changes : Table Int AccessChange := ∅
  nextChangeID : Int := 1
  targets : Table (Int×Int) AccessChangeTarget := ∅

/-- The change with its targets and the pending bindings it is to activate, in one transaction. -/
def createAccessChangeWithPendingBindings (s : AccessStore) (v : AccessChange)
    (serverIDs : List Int) (bindings : List UserPlanBinding) (expected : Option (Table Int Int))
    (ts : Time) : Except (List Int) (AccessStore×Int) :=
  match s.planBindings.setUserPlanBindingsTx bindings .pending ts expected with
  | .error conflicts => .error conflicts
  | .ok staged => .ok ( {s with
        planBindings := staged
        changes := s.changes.insert s.nextChangeID v
        nextChangeID := s.nextChangeID+1
        targets := Table.putAll s.targets
          (serverIDs.map (fun serverID => ((s.nextChangeID,serverID),{})))},
      s.nextChangeID)

def errAccessChangeNotActive : String := "access change is not in the expected state"

def AccessChange.moved (v : AccessChange) (target : AccessChangeStatus) (errorText : String)
    (ts : Time) : AccessChange :=
  {v with
    status := target
    error := if trimSpace errorText="" then "" else errorText
    activatedAt := if target=.finalizing then some ts else v.activatedAt
    finalizedAt := if target=.finalized then some ts else v.finalizedAt
    failedAt := if target=.failed then some ts else v.failedAt}

/-- A transition that only a change in one of the source states takes. -/
def updateAccessChangeStatus (s : AccessStore) (id : Int) (source : List AccessChangeStatus)
    (target : AccessChangeStatus) (errorText : String) (ts : Time) : Except String AccessStore :=
  if source=[] then .error "at least one source status required"
  else match s.changes.lookup id with
    | none => .error errAccessChangeNotActive
    | some v =>
      if source.contains v.status then
        .ok {s with changes := s.changes.insert id (v.moved target errorText ts)}
      else .error errAccessChangeNotActive

def AccessChange.isPlanRevision (v : AccessChange) : Bool :=
  v.changeType=.planPublish || v.changeType=.planRestore

/-- A change that was not activated can be cancelled, a failed one only if it offers a revision. -/
def AccessChange.cancellable (v : AccessChange) : Bool :=
  (v.status=.preparing || v.status=.activating || (v.status=.failed && v.isPlanRevision)) &&
    v.activatedAt.isNone

/-- Only a failed change keeps its error text. -/
def AccessChange.cancel (v : AccessChange) : AccessChange :=
  {v with
    status := .cancelled
    error := if v.status=.failed then v.error else ""}

def releaseCandidate (plans : Table Int PlanRow) (v : AccessChange) : Option (Table Int PlanRow) :=
  match plans.lookup v.sourcePlanID with
  | none => none
  | some plan =>
    if plan.pendingRevisionID=v.candidateRevisionID ∧ plan.pendingRevisionID≠0 then
      some (plans.insert v.sourcePlanID {plan with
          latestRevisionID := plan.currentRevisionID
          pendingRevisionID := 0
          lockVersion := plan.lockVersion+1})
    else none

def markAccessChangeCancelled (s : AccessStore) (id : Int) : Except String AccessStore :=
  match s.changes.lookup id with
  | none => .error "sql: no rows in result set"
  | some v =>
    if v.cancellable then
      let cancelled := {s with changes := s.changes.insert id v.cancel}
      if v.isPlanRevision then
        match releaseCandidate s.plans v with
        | none => .error ("access change "++toString id++" plan candidate is no longer pending")
        | some plans => .ok {cancelled with plans := plans}
      else .ok cancelled
    else .error ("access change "++toString id++" cannot be cancelled in status "++v.status.text)

section specs

variable {id : Int}

theorem updateAccessChangeStatus_ok
    (h : updateAccessChangeStatus s id source target errorText ts=.ok s') :
    ∃v,s.changes.lookup id=some v ∧ v.status∈source ∧
      s'={s with changes := s.changes.insert id (v.moved target errorText ts)} := by
  unfold updateAccessChangeStatus at h
  split_ifs at h
  split at h
  · cases h
  rename_i v hv
  split_ifs at h with hs
  exact ⟨v,hv,List.contains_iff_mem.mp hs,(Except.ok.inj h).symm⟩

theorem createAccessChangeWithPendingBindings_ok
    (h : createAccessChangeWithPendingBindings s v serverIDs bindings expected ts=.ok (s',id)) :
    s'.changes=s.changes.insert s.nextChangeID v ∧ s'.nextChangeID=s.nextChangeID+1 ∧
      s'.targets=Table.putAll s.targets
        (serverIDs.map (fun serverID => ((s.nextChangeID,serverID),{}))) := by
  unfold createAccessChangeWithPendingBindings at h
  split at h
  · cases h
  · cases h
    exact ⟨rfl,rfl,rfl⟩

theorem markAccessChangeCancelled_ok (h : markAccessChangeCancelled s id=.ok s') :
    ∃v,s.changes.lookup id=some v ∧ v.cancellable=true ∧
      ∃plans,s'={s with changes := s.changes.insert id v.cancel,plans := plans} := by
  unfold markAccessChangeCancelled at h
  split at h
  · cases h
  rename_i v hv
  simp only at h
  split_ifs at h with hc
  · split at h
    · cases h
    · rename_i plans _
      exact ⟨v,hv,hc,plans,(Except.ok.inj h).symm⟩
  · exact ⟨v,hv,hc,s.plans,(Except.ok.inj h).symm⟩

end specs

end Oboard.Store
