import Oboard.Framework.Table
import Oboard.Framework.Ascending
import Oboard.Framework.GoText

namespace Oboard.Core

open GoText Ascending Table

inductive AssignableNodeType where
  | proxyPath
  | externalOutbound
  | inbound
  deriving DecidableEq

/-- The type and id that NodeKeyOf joins. -/
abbrev NodeKey := AssignableNodeType×Int

inductive UserStatus where
  | active
  | inactive
  deriving DecidableEq

inductive Protocol where
  | vless
  | hy2
  | anyTLS
  | shadowsocks
  | mieru
  | socks
  | snell
  | ssh
  deriving DecidableEq

structure ProxyCredential where
  id : String
  userID : Int
  inboundID : Int
  pathID : Int
  deviceIDHash : String
  credentialEpoch : Int
  protocol : Protocol
  active : Bool
  deviceTransitionAllowed : Bool
  username : String
  password : String
  uuid : String

inductive CredentialStatus where
  | unset
  | active
  | revoked
  | disabled
  deriving DecidableEq

structure User where
  id : Int
  status : UserStatus
  speedLimitMbps : Int
  trafficLimitBytes : Int
  trafficResetMode : String
  trafficResetDay : Int
  deviceIDHash : String
  credentialEpoch : Int
  credentialStatus : CredentialStatus
  deviceTransitionUntil : Time
  proxyCredentials : List ProxyCredential

structure SubscriptionPlan where
  id : Int
  name : String
  enabled : Bool
  speedLimitMbps : Int
  trafficLimitBytes : Int
  trafficResetMode : String
  trafficResetDay : Int

structure SubscriptionPlanNode where
  planID : Int
  nodeType : AssignableNodeType
  nodeID : Int
  displayGroup : String
  enabled : Bool

structure UserPlanBinding where
  id : Int
  userID : Int
  planID : Int
  enabled : Bool
  startsAt : Option Time
  expiresAt : Option Time
  trafficResetAnchorAt : Option Time
  trafficResetHourAligned : Bool
  deriving DecidableEq

inductive UserNodeExceptionEffect where
  | allow
  | deny
  deriving DecidableEq

inductive UserNodeExceptionStatus where
  | unset
  | pending
  | active
  | expired
  | revoked
  deriving DecidableEq

structure UserNodeException where
  id : Int
  userID : Int
  nodeType : AssignableNodeType
  nodeID : Int
  effect : UserNodeExceptionEffect
  status : UserNodeExceptionStatus
  startsAt : Option Time
  expiresAt : Option Time
  deriving DecidableEq

inductive ProxyPathKind where
  | chain
  | direct
  | familyBranch
  deriving DecidableEq

structure ProxyPath where
  id : Int
  inboundID : Int
  enabled : Bool
  kind : ProxyPathKind

structure Inbound where
  id : Int
  serverID : Int
  enabled : Bool
  protocol : Protocol

inductive PolicySource where
  | default
  | plan
  | userOverride

structure EffectiveUserPolicy where
  speedLimitMbps : Int
  trafficLimitBytes : Int
  trafficResetMode : String
  trafficResetDay : Int
  trafficResetAnchor : Time
  trafficResetHourAligned : Bool
  source : PolicySource

inductive GrantSource where
  | plan (planID : Int) (planName displayGroup : String)
  | exceptionAllow (exception : UserNodeException)
  deriving DecidableEq

structure EffectiveNodeGrant where
  nodeType : AssignableNodeType
  nodeID : Int
  source : GrantSource
  deriving DecidableEq

structure EffectiveAccessInput where
  users : List User
  bindings : List UserPlanBinding
  plans : List SubscriptionPlan
  planNodes : List SubscriptionPlanNode
  exceptions : List UserNodeException
  paths : List ProxyPath
  inbounds : List Inbound
  now : Time

structure EffectiveAccessSnapshot where
  now : Time
  users : Table Int User
  userNodes : Table Int (Table NodeKey EffectiveNodeGrant)
  inboundUsers : Table Int (List Int)
  proxyPathUsers : Table Int (List Int)
  externalOutboundUsers : Table Int (List Int)
  nodeUsers : Table NodeKey (List Int)
  userPolicies : Table Int EffectiveUserPolicy
  pathInboundIDs : Table Int Int

/-- One order in which Go may walk the two maps of the main loop. -/
structure IterationOrder where
  users : List Int → List Int
  users_perm : ∀l,(users l).Perm l
  grants : Int → List (NodeKey×EffectiveNodeGrant) → List (NodeKey×EffectiveNodeGrant)
  grants_perm : ∀u l,(grants u l).Perm l

/-- A half-open window, open where an end is missing. -/
def withinWindow (startsAt expiresAt : Option Time) (now : Time) : Bool :=
  startsAt.all (fun t => t≤now) && expiresAt.all (fun t => now<t)

def UserPlanBinding.effectiveAt (b : UserPlanBinding) (now : Time) : Bool :=
  b.enabled && withinWindow b.startsAt b.expiresAt now

def UserNodeException.effectiveAt (ex : UserNodeException) (now : Time) : Bool :=
  (ex.status=.unset || ex.status=.active) && withinWindow ex.startsAt ex.expiresAt now

def UserNodeException.node (ex : UserNodeException) : NodeKey := (ex.nodeType,ex.nodeID)

def SubscriptionPlanNode.node (pn : SubscriptionPlanNode) : NodeKey := (pn.nodeType,pn.nodeID)

def effectiveUserPolicy (user : User) (plan : Option SubscriptionPlan)
    (binding : Option UserPlanBinding) : EffectiveUserPolicy :=
  let base : Int×Int×String×Int×Time×PolicySource :=
    match plan with
    | none => (0,0,user.trafficResetMode,user.trafficResetDay,0,.default)
    | some p => (p.speedLimitMbps,p.trafficLimitBytes,p.trafficResetMode,p.trafficResetDay,
        (binding.bind UserPlanBinding.trafficResetAnchorAt).getD 0,.plan)
  let (speed,traffic,mode,day,anchor,source) := base
  let (speed,source) := if user.speedLimitMbps≠0 then (user.speedLimitMbps,PolicySource.userOverride)
    else (speed,source)
  let (traffic,mode,day,anchor,source) :=
    if user.trafficLimitBytes≠0 then
      (user.trafficLimitBytes,user.trafficResetMode,user.trafficResetDay,(0 : Time),
        PolicySource.userOverride)
    else (traffic,mode,day,anchor,source)
  { speedLimitMbps := if speed<0 then 0 else speed
    trafficLimitBytes := if traffic<0 then 0 else traffic
    trafficResetMode := if trimSpace mode="" then "monthly" else mode
    trafficResetDay := if day≤0 then 1 else day
    trafficResetAnchor := anchor
    trafficResetHourAligned := plan.isSome && user.trafficLimitBytes=0 &&
      binding.any UserPlanBinding.trafficResetHourAligned
    source := source }

def planGrant (plan : SubscriptionPlan) (pn : SubscriptionPlanNode) : EffectiveNodeGrant :=
  ⟨pn.nodeType,pn.nodeID,.plan plan.id plan.name pn.displayGroup⟩

def exceptionGrant (ex : UserNodeException) : EffectiveNodeGrant :=
  ⟨ex.nodeType,ex.nodeID,.exceptionAllow ex⟩

def byID {ρ : Type} (id : ρ → Int) (records : List ρ) : Table Int ρ :=
  putAll ∅ (records.map (fun r => (id r,r)))

structure AccessIndex where
  active : Table Int User
  planByID : Table Int SubscriptionPlan
  planNodes : List SubscriptionPlanNode
  bindingByUser : Table Int UserPlanBinding
  exceptions : List UserNodeException
  inboundByID : Table Int Inbound
  pathByID : Table Int ProxyPath

def EffectiveAccessInput.index (input : EffectiveAccessInput) (now : Time) : AccessIndex where
  active := byID User.id (input.users.filter (fun u => u.status=.active))
  planByID := byID SubscriptionPlan.id input.plans
  planNodes := input.planNodes.filter SubscriptionPlanNode.enabled
  bindingByUser := byID UserPlanBinding.userID (input.bindings.filter (fun b => b.effectiveAt now))
  exceptions := input.exceptions.filter (fun ex => ex.effectiveAt now)
  inboundByID := byID Inbound.id input.inbounds
  pathByID := byID ProxyPath.id input.paths

section

variable (ix : AccessIndex) (userID : Int)

def AccessIndex.planOf : Option SubscriptionPlan := do
  let binding ← ix.bindingByUser.lookup userID
  let plan ← ix.planByID.lookup binding.planID
  if plan.enabled then some plan else none

def AccessIndex.planGrants : Table NodeKey EffectiveNodeGrant :=
  match ix.planOf userID with
  | none => ∅
  | some plan => putAll ∅ ((ix.planNodes.filter (fun pn => pn.planID=plan.id)).map
      (fun pn => (pn.node,planGrant plan pn)))

def AccessIndex.exceptionsOf : List UserNodeException :=
  ix.exceptions.filter (fun ex => ex.userID=userID)

end

/-- One deny exception takes the node away and keeps allow exceptions from giving it back. -/
def denyStep (s : List NodeKey×Table NodeKey EffectiveNodeGrant) (ex : UserNodeException) :
    List NodeKey×Table NodeKey EffectiveNodeGrant :=
  if ex.effect=.deny then (ex.node::s.1,s.2.erase ex.node) else s

section

variable (ix : AccessIndex)

/-- The grants of one user, deny before allow before plan. -/
def AccessIndex.grantsOf (userID : Int) : Table NodeKey EffectiveNodeGrant :=
  let exceptions := ix.exceptionsOf userID
  let (denied,grants) := exceptions.foldl denyStep ([],ix.planGrants userID)
  putAll grants ((exceptions.filter (fun ex => ex.effect=.allow && !denied.contains ex.node)).map
      (fun ex => (ex.node,exceptionGrant ex)))

def AccessIndex.inboundEnabled (inboundID : Int) : Bool :=
  (ix.inboundByID.lookup inboundID).any Inbound.enabled

def AccessIndex.projectGrant (userID : Int) (snap : EffectiveAccessSnapshot)
    (entry : NodeKey×EffectiveNodeGrant) : EffectiveAccessSnapshot :=
  let snap := {snap with nodeUsers := push snap.nodeUsers (entry.1,userID)}
  match entry.2.nodeType with
  | .proxyPath =>
    match ix.pathByID.lookup entry.2.nodeID with
    | none => snap
    | some path =>
      if ix.inboundEnabled path.inboundID then
        {snap with
          proxyPathUsers := push snap.proxyPathUsers (entry.2.nodeID,userID)
          inboundUsers := push snap.inboundUsers (path.inboundID,userID)}
      else snap
  | .inbound =>
    if ix.inboundEnabled entry.2.nodeID then
      {snap with inboundUsers := push snap.inboundUsers (entry.2.nodeID,userID)}
    else snap
  | .externalOutbound =>
    {snap with
      externalOutboundUsers := push snap.externalOutboundUsers (entry.2.nodeID,userID)}

def AccessIndex.resolveUser (order : IterationOrder)
    (snap : EffectiveAccessSnapshot) (userID : Int) : EffectiveAccessSnapshot :=
  match ix.active.lookup userID with
  | none => snap
  | some user =>
    let grants := ix.grantsOf userID
    let policy := effectiveUserPolicy user (ix.planOf userID) (ix.bindingByUser.lookup userID)
    let snap := {snap with
      userNodes := if grants.entries=[] then snap.userNodes else snap.userNodes.insert userID grants
      userPolicies := snap.userPolicies.insert userID policy}
    (order.grants userID (rows grants)).foldl (ix.projectGrant userID) snap

end

def compactSortedUserIDs (list : List Int) : List Int := compact list

def sortView {κ : Type} (view : Table κ (List Int)) : Table κ (List Int) :=
  mapRows (fun _ list => compactSortedUserIDs (list.insertionSort (· ≤ ·))) view

/-- A missing instant means the clock. -/
def effectiveNow (clock now : Time) : Time := if now=0 then clock else now

def buildEffectiveAccessSnapshot (order : IterationOrder) (clock : Time)
    (input : EffectiveAccessInput) : EffectiveAccessSnapshot :=
  let now := effectiveNow clock input.now
  let ix := input.index now
  let snap : EffectiveAccessSnapshot := {
    now := now
    users := ix.active
    userNodes := ∅
    inboundUsers := ∅
    proxyPathUsers := ∅
    externalOutboundUsers := ∅
    nodeUsers := ∅
    userPolicies := ∅
    pathInboundIDs := putAll ∅ (input.paths.map (fun p => (p.id,p.inboundID)))}
  let snap := (order.users ix.active.keys).foldl (ix.resolveUser order) snap
  {snap with
    inboundUsers := sortView snap.inboundUsers
    proxyPathUsers := sortView snap.proxyPathUsers
    externalOutboundUsers := sortView snap.externalOutboundUsers
    nodeUsers := sortView snap.nodeUsers}

end Oboard.Core
