import Oboard.Core.CredentialScopes
import Oboard.Framework.Spans

namespace Oboard.Controller

open GoText Ascending Oboard.Core Spans

structure RoutingConfig where
  users : List User
  planBindings : List UserPlanBinding
  subscriptionPlans : List SubscriptionPlan
  activePlanNodes : List SubscriptionPlanNode
  userNodeExceptions : List UserNodeException
  topology : Topology

def minute : Int := 60*second

def authorizationLeaseDuration : Int := 5*minute

def authorizationMaxEventsPerUser : Nat := 32

def RoutingConfig.accessInput (data : RoutingConfig) (users : List User) (now : Time) :
    EffectiveAccessInput :=
  ⟨users,data.planBindings,data.subscriptionPlans,data.activePlanNodes,data.userNodeExceptions,
    data.topology.paths,data.topology.inbounds,now⟩

section

variable (order : IterationOrder) (clock : Time) (data : RoutingConfig) (users : List User) (now : Time)

def snapshotAt : EffectiveAccessSnapshot :=
  buildEffectiveAccessSnapshot order clock (data.accessInput users now)

def scopesAt : List CredentialScope :=
  proxyCredentialScopes clock users data.topology (snapshotAt order clock data users now)

end

/-- A window without end is open. -/
abbrev AuthorizationInterval := Span Time

structure AuthorizationEntry where
  key : String
  servers : List Int
  intervals : List AuthorizationInterval

structure AuthorizationProjection where
  builtAt : Time
  entries : List AuthorizationEntry
  byServer : Table Int (List Nat)

structure ServerGrant where
  key : String
  deadline : Time
  boundary : Option Time
  deriving DecidableEq

def RoutingConfig.boundaries (data : RoutingConfig) (user : User) : List Time :=
  (data.planBindings.filter (fun b => b.userID=user.id)).flatMap
    (fun b => b.startsAt.toList++b.expiresAt.toList)++
  (data.userNodeExceptions.filter (fun ex => ex.userID=user.id)).flatMap
    (fun ex => ex.startsAt.toList++ex.expiresAt.toList)

def RoutingConfig.eventsAfter (data : RoutingConfig) (user : User) (now : Time) : List Time :=
  sortUnique ((data.boundaries user).filter (fun t => now<t))

section

variable (order : IterationOrder) (data : RoutingConfig) (now : Time)

def userIntervals (scopesNow : List CredentialScope) (user : User) :
    List (CredentialScope×List AuthorizationInterval) :=
  let mine := scopesNow.filter (fun key => key.userID=user.id)
  let events := data.eventsAfter user now
  if events=[] then mine.map (fun key => (key,[⟨now,none⟩]))
  else
    let presence := (events.take authorizationMaxEventsPerUser).map
      (fun t => (t,scopesAt order now data [user] t))
    let allKeys := (mine++presence.flatMap Prod.snd).eraseDups
    allKeys.map (fun key => (key,spans none ((now,mine.contains key)::
      presence.map (fun p => (p.1,p.2.contains key)))))

def intervalsByScope : Table CredentialScope (List AuthorizationInterval) :=
  let scopesNow := (scopesAt order now data data.users now).eraseDups
  Table.putAll ∅ (data.users.flatMap (userIntervals order data now scopesNow))

end

/-- Cuts the windows of a device credential at the end of its transition. -/
def boundedIntervals (stop : Time) (intervals : List AuthorizationInterval) :
    List AuthorizationInterval :=
  (intervals.filter (fun i => i.start<stop)).map (fun i =>
    if i.stop.all (fun e => stop<e) then {i with stop := some stop} else i)

/-- The node whose servers authenticate a route. -/
def routeNode (topology : Topology) (inboundID pathID : Int) : NodeKey :=
  match topology.paths.find? (fun path => path.enabled && path.id=pathID &&
    path.inboundID=inboundID) with
  | some path => (.proxyPath,path.id)
  | none => (.inbound,inboundID)

def credentialWindows (data : RoutingConfig) (now : Time)
    (intervals : Table CredentialScope (List AuthorizationInterval)) (c : ProxyCredential) :
    List AuthorizationInterval :=
  let mine := (intervals.lookup (proxyScopeKey c)).getD []
  let stop := ((byID User.id data.users).lookup c.userID).elim 0 User.deviceTransitionUntil
  if c.deviceIDHash="" then mine else if stop≤now then [] else boundedIntervals stop mine

def routeServers (data : RoutingConfig) (c : ProxyCredential) : List Int :=
  affectedAuthServers data.topology (routeNode data.topology c.inboundID c.pathID)

def credentialEntry (data : RoutingConfig) (now : Time)
    (intervals : Table CredentialScope (List AuthorizationInterval)) (c : ProxyCredential) :
    Option AuthorizationEntry :=
  if !c.active ∨ c.id="" ∨ credentialWindows data now intervals c=[] ∨ routeServers data c=[]
  then none else some ⟨c.id,routeServers data c,credentialWindows data now intervals c⟩

def indexEntries (entries : List AuthorizationEntry) : Table Int (List Nat) :=
  Table.mapRows (fun _ list => list.insertionSort (· ≤ ·))
    ((entries.zipIdx.flatMap (fun e => e.1.servers.map (fun id => (id,e.2)))).foldl Table.push ∅)

def buildAuthorizationProjection (order : IterationOrder) (now : Time) (data : RoutingConfig)
    (credentials : List ProxyCredential) : AuthorizationProjection :=
  let intervals := intervalsByScope order data now
  let entries := (credentials.filterMap (credentialEntry data now intervals)).insertionSort
    (fun a b => a.key≤b.key)
  ⟨now,entries,indexEntries entries⟩

def leaseDeadline (now : Time) (i : AuthorizationInterval) : Time :=
  i.stop.elim (now+authorizationLeaseDuration) (fun e => min e (now+authorizationLeaseDuration))

/-- The grant an entry gives at an instant, by its first window that holds it. -/
def AuthorizationEntry.grantAt (entry : AuthorizationEntry) (now : Time) : Option ServerGrant :=
  (entry.intervals.find? (fun i => i.covers now)).map
    (fun i => ⟨entry.key,leaseDeadline now i,i.stop⟩)

def AuthorizationProjection.grantsAt (p : AuthorizationProjection) (serverID : Int) (now : Time) :
    List ServerGrant :=
  ((p.byServer.lookup serverID).getD []).filterMap (fun index =>
    p.entries[index]?.bind (fun entry => entry.grantAt now))

end Oboard.Controller
