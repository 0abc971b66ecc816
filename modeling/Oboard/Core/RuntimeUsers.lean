import Oboard.Core.AccessSnapshot
import Oboard.Core.RouteRules

namespace Oboard.Core

open FirstMatch Runs GoText

structure Server where
  agentID : String
  kernelCapabilities : List String

def serverSupportsRuntimeUsers (server : Server) : Bool :=
  trimSpace server.agentID≠"" &&
  server.kernelCapabilities.contains "runtime_users_control_v1" &&
  server.kernelCapabilities.contains "runtime_users_v1"

inductive InboundKind where
  | vless
  | hysteria2
  | shadowsocks
  | snell
  | other
  deriving DecidableEq

structure UsersCredential where
  uuid : String := ""
  password : String := ""
  userKey : String := ""
  psk : String := ""
  flow : String := ""
  deriving DecidableEq

structure UserObject where
  name : String
  credential : UsersCredential := {}

/-- A generated listener. Its user objects are absent without the key. -/
structure InboundItem where
  tag : String
  kind : InboundKind
  authMode : String
  users : Option (List UserObject)
  managed : Bool

def serverSupportsRuntimeUserProtocol (server : Server) (kind : InboundKind) : Bool :=
  serverSupportsRuntimeUsers server &&
  match kind with
  | .vless => server.kernelCapabilities.contains "runtime_users:vless"
  | .hysteria2 => server.kernelCapabilities.contains "runtime_users:hysteria2"
  | .shadowsocks => server.kernelCapabilities.contains "runtime_users:shadowsocks-multi"
  | .snell => server.kernelCapabilities.contains "runtime_users_snell_psk_v1" &&
      server.kernelCapabilities.contains "runtime_users_snell_psk_control_v1"
  | .other => false

def containsText (part s : String) : Bool :=
  s.toList.tails.any (fun rest => part.toList.isPrefixOf rest)

/-- The identities of a listener, without unnamed and placeholder users. -/
def identityUsers (item : InboundItem) : List UserObject :=
  ((item.users.getD []).map (fun user => {user with name := trimSpace user.name})).filter
    (fun user => user.name≠"" && !containsText "__oboard_placeholder_" user.name)

def identityNames (item : InboundItem) : List String := (identityUsers item).map UserObject.name

structure UsersIdentity where
  userID : Int := 0
  inboundID : Int := 0
  pathID : Int := 0
  deviceIDHash : String := ""
  credentialEpoch : Int := 0
  credentialStatus : CredentialStatus := .unset
  deriving DecidableEq

/-- The limits of one identity, which are also the policy installed for it. -/
structure UserRuntimeLimit extends UsersIdentity where
  authorizationKey : String := ""
  billable : Bool := false
  speedLimitMbps : Int := 0
  trafficLimitBytes : Int := 0
  usedBaselineBytes : Int := 0
  leaseBytes : Int := 0
  resetLeaseBytes : Int := 0
  leaseEnforced : Bool := false
  periodKey : String := ""
  periodStart : String := ""
  periodEnd : String := ""
  resetMode : String := ""
  resetDay : Int := 0
  timezone : String := ""
  quotaState : String := ""
  deriving DecidableEq

abbrev Limits := Table String UserRuntimeLimit

def inboundHasUnkeyedUser (item : InboundItem) (limits : Limits) : Bool :=
  (identityNames item).any (fun name =>
    trimSpace ((limits.lookup name).elim "" UserRuntimeLimit.authorizationKey)="")

def inboundIsRuntimeManaged (server : Server) (item : InboundItem) (limits : Limits) : Bool :=
  serverSupportsRuntimeUserProtocol server item.kind &&
  (match item.kind with
    | .shadowsocks => item.users.isSome
    | .snell => item.authMode="multi_psk"
    | _ => true) &&
  !inboundHasUnkeyedUser item limits

structure Outbound where
  tag : String
  userSelector : Bool

structure SingBoxConfig (κ : Type) where
  inbounds : List InboundItem
  outbounds : List Outbound
  rules : List (RouteRule κ)
  final : String
  limits : Limits

structure UsersInstallEntry where
  inboundTag : String
  authUser : String
  credential : UsersCredential
  authorizationKey : String
  identity : UsersIdentity
  routeOutbound : String
  policy : UserRuntimeLimit
  deriving DecidableEq

structure RuntimeUserPackage where
  scope : List String
  entries : List UsersInstallEntry
  deriving DecidableEq

variable {κ X : Type}

def managedTags (server : Server) (cfg : SingBoxConfig κ) : List String :=
  (((cfg.inbounds.filter (fun item => inboundIsRuntimeManaged server item cfg.limits)).map
    InboundItem.tag).filter (fun tag => tag≠"")).dedup

def isPureAuthRoute (rule : RouteRule κ) : Bool :=
  match rule.action with
  | .route _ => rule.cond.isNone
  | .resolve _ => false

def namedRoutes (managed : List String) (rule : RouteRule κ) : List ((String×String)×String) :=
  match rule.action,isPureAuthRoute rule with
  | .route outbound,true =>
    if outbound="" then []
    else (rule.inbound.filter managed.contains).flatMap (fun tag =>
      rule.authUser.map (fun user => ((tag,user),outbound)))
  | _,_ => []

/-- The first rule that names an identity decides its outbound. -/
def collectRuntimeUserRoutes (rules : List (RouteRule κ)) (managed : List String) :
    Table (String×String) String :=
  (rules.flatMap (namedRoutes managed)).foldl Table.putNew ∅

def byIdentity (a b : UsersInstallEntry) : Prop :=
  a.inboundTag<b.inboundTag ∨ (a.inboundTag=b.inboundTag ∧ a.authUser≤b.authUser)

instance : DecidableRel byIdentity := fun _ _ => inferInstanceAs (Decidable (_ ∨ _))

/-- An identity without limits gets none of the fields its limits would fill. -/
def installEntry (routes : Table (String×String) String) (limits : Limits) (tag : String)
    (user : UserObject) : UsersInstallEntry :=
  let limit := (limits.lookup user.name).getD {}
  {inboundTag := tag
   authUser := user.name
   credential := user.credential
   authorizationKey := limit.authorizationKey
   identity := limit.toUsersIdentity
   routeOutbound := (routes.lookup (tag,user.name)).getD "direct"
   policy := limit}

def collectRuntimeUserPackage (cfg : SingBoxConfig κ) (managed : List String) :
    RuntimeUserPackage where
  scope := managed.insertionSort (· ≤ ·)
  entries := ((cfg.inbounds.filter (fun item => managed.contains item.tag)).flatMap (fun item =>
    (identityUsers item).map (installEntry (collectRuntimeUserRoutes cfg.rules managed)
      cfg.limits item.tag))).insertionSort byIdentity

def selectorTag (tag : String) : String := "userselector-"++tag

def selectedInbound (outbound : String) : Option String :=
  if "userselector-".toList.isPrefixOf outbound.toList
  then some (String.ofList (outbound.toList.drop "userselector-".length)) else none

/-- Pure rules that name a managed inbound are dropped, whatever else they name. -/
def droppedRule (managed : List String) (rule : RouteRule κ) : Bool :=
  isPureAuthRoute rule && rule.inbound.any managed.contains

def selectorRule (tag : String) : RouteRule κ := ⟨[tag],[],none,.route (selectorTag tag)⟩

def rewriteInbound (managed : List String) (item : InboundItem) : InboundItem :=
  if managed.contains item.tag then
    if item.kind=.shadowsocks then {item with managed := true,users := none}
    else {item with users := some []}
  else item

def rewriteRuntimeUserStructure (cfg : SingBoxConfig κ) (managed : List String)
    (pkg : RuntimeUserPackage) : SingBoxConfig κ :=
  let present := cfg.outbounds.filterMap (fun o => selectedInbound o.tag)
  let needed := (managed.filter (fun tag => !present.contains tag)).insertionSort (· ≤ ·)
  let remaining := cfg.rules.filter (fun rule => !droppedRule managed rule)++
    needed.map selectorRule
  {cfg with
    inbounds := cfg.inbounds.map (rewriteInbound managed)
    outbounds := cfg.outbounds++needed.map (fun tag => ⟨selectorTag tag,true⟩)
    rules := if remaining.isEmpty then cfg.rules else remaining
    limits := pkg.entries.foldl (fun l e => l.erase e.authUser) cfg.limits}

def applyRuntimeUserStructure (server : Server) (cfg : SingBoxConfig κ) :
    SingBoxConfig κ×Option RuntimeUserPackage :=
  let managed := managedTags server cfg
  if !serverSupportsRuntimeUsers server ∨ managed=[] then (cfg,none)
  else
    let pkg := collectRuntimeUserPackage cfg managed
    (rewriteRuntimeUserStructure cfg managed pkg,some pkg)

end Oboard.Core
