import Oboard.Core.AccessProjection
import Oboard.Store.PlanBindings

namespace Oboard.Controller

open GoText Oboard.Core Store

structure StoredAccess where
  users : List User
  subscriptionPlans : List SubscriptionPlan
  activePlanNodes : List SubscriptionPlanNode
  userNodeExceptions : List UserNodeException
  proxyPaths : List ProxyPath
  inbounds : List Inbound
  planBindings : PlanBindings

def StoredAccess.input (data : StoredAccess) (bindings : List UserPlanBinding) (at_ : Time) :
    EffectiveAccessInput :=
  ⟨data.users,bindings,data.subscriptionPlans,data.activePlanNodes,data.userNodeExceptions,
    data.proxyPaths,data.inbounds,at_⟩

section

variable (order : IterationOrder) (clock : Time) (data : StoredAccess)

/-- Resolves a snapshot from explicit bindings with the stored nodes and exceptions. -/
def snapshotFromConfig (bindings : List UserPlanBinding) (at_ : Time) : EffectiveAccessSnapshot :=
  buildEffectiveAccessSnapshot order clock (data.input bindings at_)

def storedSnapshot (at_ : Time) : EffectiveAccessSnapshot :=
  snapshotFromConfig order clock data
    (data.planBindings.listEffectiveUserPlanBindings (effectiveNow clock at_)) at_

end

def effectiveWindow (at_ : Time) (startsAt expiresAt : Option Time) : Time :=
  let at_ := match startsAt with
    | some s => if at_<s then s else at_
    | none => at_
  match expiresAt with
  | some e => if at_<e then at_ else e-second
  | none => at_

def filterEffectiveBindings (bindings : List UserPlanBinding) (at_ : Time) : List UserPlanBinding :=
  bindings.filter (fun b => withinWindow b.startsAt b.expiresAt at_)

structure AccessChangeDraft where
  userIDs : List Int
  activateAt : Time
  prepareProjection : AccessProjection
  oldProjection : AccessProjection
  finalizeProjection : AccessProjection
  pendingBindings : List UserPlanBinding
  previousBinding : List Int
  expectedBinding : Option (Table Int Int)

/-- The two-phase projections of one assignment. The two snapshots may walk their maps in
different orders. -/
def createUserBindingChange (oldOrder newOrder : IterationOrder) (now : Time) (data : StoredAccess)
    (userIDs : List Int) (oldEnabled newBindings : List UserPlanBinding)
    (startsAt expiresAt : Option Time) (expectedPlans : Option (Table Int Int)) :
    AccessChangeDraft :=
  let oldSnap := snapshotFromConfig oldOrder now data (filterEffectiveBindings oldEnabled now) now
  let at_ := effectiveWindow now startsAt expiresAt
  let newSnap := snapshotFromConfig newOrder now data (filterEffectiveBindings newBindings at_) at_
  { userIDs := userIDs
    activateAt := at_
    prepareProjection := mergeProjections oldSnap.projection newSnap.projection
    oldProjection := oldSnap.projection
    finalizeProjection := newSnap.projection
    pendingBindings := newBindings
    previousBinding := oldEnabled.map UserPlanBinding.id
    expectedBinding := expectedPlans }

structure AssignmentRequest where
  userIDs : List Int
  planID : Int
  startsAt : Option Time
  expiresAt : Option Time
  expectedPlanIDs : Option (Table Int Int)

def uniquePositiveIDs (ids : List Int) : List Int :=
  (ids.filter (fun id => 0 < id)).eraseDups.insertionSort (· ≤ ·)

def splitAssignmentConflicts (userIDs : List Int) (previous : List UserPlanBinding)
    (expected : Option (Table Int Int)) : List Int×List Int :=
  match expected with
  | none => (userIDs,[])
  | some plans =>
    let current := Table.putAll ∅ ((previous.filter UserPlanBinding.enabled).map
      (fun b => (b.userID,b.planID)))
    userIDs.partition (fun userID =>
      (plans.lookup userID).all (fun want => want=(current.lookup userID).getD 0))

def filterBindingsForUsers (bindings : List UserPlanBinding) (userIDs : List Int) :
    List UserPlanBinding :=
  bindings.filter (fun b => userIDs.contains b.userID)

def filterExpectedPlans (expected : Option (Table Int Int)) (userIDs : List Int) :
    Option (Table Int Int) :=
  expected.map (fun plans =>
    Table.putAll ∅ (userIDs.map (fun id => (id,(plans.lookup id).getD 0))))

/-- The binding that will be in force for a user. Its row has no id yet. -/
def assignmentBinding (planID : Int) (startsAt expiresAt : Option Time) (userID : Int) :
    UserPlanBinding :=
  ⟨0,userID,planID,true,startsAt,expiresAt,none,false⟩

def assignUsers (oldOrder newOrder : IterationOrder) (now : Time) (data : StoredAccess)
    (requested userIDs : List Int) (planID : Int) (startsAt expiresAt : Option Time)
    (expectedPlans : Option (Table Int Int)) : AccessChangeDraft :=
  createUserBindingChange oldOrder newOrder now data userIDs
    (filterBindingsForUsers (data.planBindings.listEnabledUserPlanBindings requested) userIDs)
    (userIDs.map (assignmentBinding planID startsAt expiresAt)) startsAt expiresAt
    (filterExpectedPlans expectedPlans userIDs)

def resolveAssignmentTarget (data : StoredAccess) (planID : Int) : Option String :=
  if planID=0 then none
  else match data.subscriptionPlans.find? (fun plan => plan.id=planID) with
    | none => some "subscription plan not found"
    | some plan => if plan.enabled then none else some "subscription plan is disabled"

/-- A user whose expected plan is not named. -/
def parseExpectedPlanIDs (expected : Option (Table Int Int)) (userIDs : List Int) : Option String :=
  match expected with
  | none => none
  | some plans => (userIDs.find? (fun userID => (plans.lookup userID).isNone)).map
      (fun userID => "expected_plan_ids is missing user "++toString userID)

def assignmentRefusal (data : StoredAccess) (req : AssignmentRequest) (requested : List Int) :
    Option String :=
  if requested=[] then some "user_ids required"
  else if req.startsAt.any (fun s => req.expiresAt.any (fun e => e ≤ s)) then
    some "expires_at must be after starts_at"
  else (resolveAssignmentTarget data req.planID).or
    (((requested.find? (fun userID => data.users.all (fun u => u.id≠userID))).map
      (fun userID => "user "++toString userID++" not found")).or
    (parseExpectedPlanIDs req.expectedPlanIDs requested))

def planAssignmentApply (oldOrder newOrder : IterationOrder) (now : Time) (data : StoredAccess)
    (req : AssignmentRequest) : Except String AccessChangeDraft :=
  let requested := uniquePositiveIDs req.userIDs
  match assignmentRefusal data req requested with
  | some refusal => .error refusal
  | none =>
    let previous := data.planBindings.listEnabledUserPlanBindings requested
    let (userIDs,conflicts) := splitAssignmentConflicts requested previous req.expectedPlanIDs
    if userIDs=[] then
      .error ("user plan assignment changed since it was read: users "++
        String.intercalate ", " (conflicts.map toString))
    else .ok (assignUsers oldOrder newOrder now data requested userIDs req.planID req.startsAt
      req.expiresAt req.expectedPlanIDs)

end Oboard.Controller
