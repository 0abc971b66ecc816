import Oboard.Core.RuntimeUsers
import Oboard.Core.TransportSet

namespace Oboard.Core

open GoText Runs

inductive ConfigError where
  | snellUnsupported
  | singleUser (inbound : String)
  | resolverNotFound (resolver : String)
  | route (e : RouteError)
  | other (message : String)
  deriving DecidableEq

inductive UDPInboundMode where
  | unset
  | allow
  | block
  | uot
  deriving DecidableEq

def UDPInboundMode.text : UDPInboundMode → String
  | unset => ""
  | allow => "allow"
  | block => "block"
  | uot => "uot"

structure ConfigServer extends ManagedServer,Server where
  udpInboundMode : UDPInboundMode

def validateServerUDPForInbound (server : ConfigServer) (inbound : ListenInbound) :
    Except ConfigError Unit :=
  let mode := server.udpInboundMode
  if mode=.allow ∨ mode=.unset then .ok ()
  else if inbound.protocol=.shadowsocks ∧ mode=.uot ∧ inbound.config.multiplex then
    .error (.other (s!"server {server.name} udp_inbound_mode=uot conflicts with multiplex on "++
      s!"Shadowsocks inbound {inbound.name}: a client cannot use udp_over_tcp and "++
      "multiplex together"))
  else if inbound.protocol=.hy2 then
    .error (.other (s!"server {server.name} udp_inbound_mode={mode.text} cannot host HY2 "++
      s!"inbound {inbound.name} because HY2 requires native UDP inbound"))
  else if inbound.protocol=.mieru ∧ inbound.config.udpTransport then
    .error (.other (s!"server {server.name} udp_inbound_mode={mode.text} cannot host UDP "++
      s!"Mieru inbound {inbound.name}"))
  else .ok ()

def snellSharedPort (inbound : ListenInbound) : Bool :=
  inbound.protocol=.snell && inbound.config.snellListenerMode="shared_port"

def serverSupportsSnellShared (server : Server) (inbound : ListenInbound) : Bool :=
  !snellSharedPort inbound ||
  match inbound.config.snellPanelVersion with
  | none => false
  | some version =>
    serverSupportsRuntimeUsers server &&
    [if version=6 then "snell_multi_psk_v6_v1" else "snell_multi_psk_v4_v1",
      "authorization_lease_v1","runtime_users_snell_psk_v1",
      "runtime_users_snell_psk_control_v1"].all server.kernelCapabilities.contains

structure StoredOutbound where
  id : Int
  serverID : Int
  name : String
  protocol : Protocol
  targetAddress : String
  enabled : Bool

structure ExternalOutbound where
  id : Int
  serverScope : Bool
  serverID : Option Int
  name : String
  targetAddress : String
  enabled : Bool

def externalUsableOnServer (external : ExternalOutbound) (serverID : Int) : Bool :=
  if external.serverScope then external.serverID=some serverID
  else external.serverID=none || external.serverID=some 0 || external.serverID=some serverID

structure WARPProfile where
  id : Int
  serverID : Int
  enabled : Bool

structure DNSConfig where
  servers : List String
  final : String

structure ConfigOptions (κ : Type) where
  routingRules : List (RoutingRule κ)
  externalOutbounds : List ExternalOutbound
  proxyPaths : List TopologyPath
  proxyPathSteps : List TopologyStep
  servers : List ManagedServer
  inbounds : List ListenInbound
  warpProfiles : List WARPProfile
  inboundUsers : List (Int×Int)
  proxyPathUsers : List (Int×Int)
  accessSnapshot : Option EffectiveAccessSnapshot
  portLedger : PortLedger
  disableRuntimeUsers : Bool

/-- What the walk over the proxy paths meets, in order. -/
inductive PathEvent where
  | outbound (o : Outbound)
  | stage (s : PathStage)
  | failure (message : String)

structure ProtocolAdapter (υ : Type) where
  inbound : ListenInbound → List υ → Except ConfigError InboundItem
  outbound : StoredOutbound → Option υ → Except ConfigError Outbound

/-- The functions of other files that generation calls, over any type of users. What they read
besides their arguments (the clock, stored DNS settings, policies, rule sets) is fixed in them. -/
structure ConfigParts (κ υ : Type) where
  topology : TopologyEnv
  reader : ConfigReader
  dataPlaneIdentities : List υ → List υ
  active : υ → Bool
  buildDNSConfig : ConfigServer → Except ConfigError DNSConfig
  adapterFor : Protocol → Except ConfigError (ProtocolAdapter υ)
  resolveInboundUsers : ListenInbound → List υ → ConfigOptions κ → Except ConfigError (List υ×List υ)
  runtimeLimits : ListenInbound → List υ → ConfigOptions κ → List (String×UserRuntimeLimit)
  buildProxyPathInternalInbounds : ConfigServer → ConfigOptions κ → List υ → Limits → Projection →
    Except ConfigError (Limits×List InboundItem)
  walkProxyPaths : ConfigServer → List StoredOutbound → ConfigOptions κ → List υ → Projection →
    List PathEvent
  applyRoutingRuleProxyPathBindings : ConfigServer → ConfigOptions κ → List Outbound →
    Except ConfigError (List Outbound)
  ruleTarget : RoutingRule κ → Except ConfigError Unit
  ruleMatch : RoutingRule κ → Except ConfigError Unit
  validateAddressForIPStack : ConfigServer → String → Except ConfigError Unit
  externalOutboundToSingBox : ExternalOutbound → ConfigServer → Option υ →
    Except ConfigError Outbound
  buildSourcePrefixOutbounds : ConfigServer → ConfigOptions κ → Except ConfigError (List Outbound)
  buildRoutingRuleInterfaceOutbounds : ConfigServer → ConfigOptions κ →
    Except ConfigError (List Outbound)
  buildVPNGatePoolOutbounds : ConfigServer → ConfigOptions κ → Except ConfigError (List Outbound)
  buildRoutingRuleFamilySplitOutbounds : ConfigServer → ConfigOptions κ → List Outbound →
    Projection → DNSConfig → Except ConfigError (List Outbound)
  warpEndpoint : WARPProfile → ConfigServer → Except ConfigError Unit
  applyRoutingRuleWARPEndpointBindings : ConfigServer → ConfigOptions κ → Except ConfigError Unit
  validateGeneratedSingBoxConfig : SingBoxConfig κ → Except ConfigError Unit
  marshalIndent : SingBoxConfig κ → Except ConfigError String
  snapshotHash : Int → List String → List UsersInstallEntry → Except ConfigError String

section WARP

variable (path : TopologyPath) (inbounds : Table Int ListenInbound)

def warpServersOfSteps : Int → Option StepNodeType → List TopologyStep →
    Except ConfigError (List Int)
  | _,_,[] => .ok []
  | current,previous,step::rest =>
    match step.nodeType with
    | .serverInbound => warpServersOfSteps
        ((proxyPathStepTargetServer step inbounds).elim current Prod.fst) (some .serverInbound) rest
    | .warp =>
      if !rest.isEmpty ∨ (previous≠none ∧ previous≠some .serverInbound) then
        .error (.other ("代理路径 "++path.name++" 的 WARP 必须直接连接在最后一台可控服务器之后"))
      else if current=0 then
        .error (.other ("代理路径 "++path.name++" 无法确定 WARP 出口服务器"))
      else .ok [current]
    | other => warpServersOfSteps current (some other) rest

def warpServersOfPath (steps : List TopologyStep) : Except ConfigError (List Int) :=
  let ordered := TopologyStep.ordered (steps.filter (fun step => step.pathID=path.id))
  if !path.enabled then .ok []
  else if path.kind=.familyBranch then warpServersOfSteps path inbounds 0 none ordered
  else match inbounds.lookup path.inboundID with
    | none => .error (.other ("代理路径 "++path.name++" 的入口不存在"))
    | some root => warpServersOfSteps path inbounds root.serverID none ordered

end WARP

def proxyPathWARPServerIDs (paths : List TopologyPath) (steps : List TopologyStep)
    (inbounds : List ListenInbound) : Except ConfigError (List Int) := do
  let (_,found) ← collect (fun (_ : Unit) path => do
    let servers ← warpServersOfPath path (byID (·.id) inbounds) steps
    return ((),servers)) () paths
  return found.flatten

def inboundTag (id : Int) : String := "in-"++toString id

def restrictedSSHInboundTags (serverID : Int) (inbounds : List ListenInbound) : List String :=
  ((inbounds.filter (fun inbound => inbound.serverID=serverID && inbound.enabled &&
    inbound.protocol=.ssh)).map (fun inbound => inboundTag inbound.id)).dedup.insertionSort (· ≤ ·)

def newRoutePolicyContext (server : ConfigServer) (inbounds : List ListenInbound) :
    RoutePolicyContext where
  sshTags := restrictedSSHInboundTags server.id inbounds
  dnsGroups := trimSpace server.agentID="" || server.kernelCapabilities.contains "dns_group_v1"
  restrictedDNSResolver := fun resolver => "ssh-public-"++resolver

section Rules

variable {κ υ : Type} (parts : ConfigParts κ υ) (ctx : RoutePolicyContext)

def requireDNSServerTag (servers : List String) : Option String → Except ConfigError Unit
  | none => .ok ()
  | some wanted => if servers.contains wanted then .ok () else .error (.resolverNotFound wanted)

/-- A resolver that restricted SSH listeners need gets a group that filters its answers. -/
def guardedServers (policy : CompiledRoutePolicy κ) (inboundTags servers : List String) :
    List String :=
  match policy.resolver with
  | none => servers
  | some resolver =>
    let guarded := ctx.restrictedDNSResolver resolver
    if policy.resolveInSelector || !ctx.sshTags.any (fun t => inboundTags.isEmpty ||
        inboundTags.contains t) || servers.contains guarded then servers
    else servers++[guarded]

def compileStoredRule (inboundTags authUsers servers : List String) (rule : RoutingRule κ) :
    Except ConfigError (List String×List (RouteRule κ)) := do
  parts.ruleTarget rule
  match rule.target with
  | none => return (servers,[])
  | some outbound =>
    parts.ruleMatch rule
    let policy := compileRoutePolicy rule inboundTags authUsers outbound
    requireDNSServerTag servers policy.resolver
    let compiled ← (compileRoutePolicies ctx rule inboundTags authUsers outbound).mapError .route
    return (guardedServers ctx policy inboundTags servers,compiled)

def compileStoredRules (inboundTags authUsers servers : List String)
    (rules : List (RoutingRule κ)) : Except ConfigError (List String×List (RouteRule κ)) := do
  let (servers,compiled) ← collect (compileStoredRule parts ctx inboundTags authUsers) servers rules
  return (servers,compiled.flatten)

section

variable (serverID : Int) (rules : List (RoutingRule κ)) (servers : List String)

/-- The rules of the server, which name no listener of their own. -/
def buildServerRules : Except ConfigError (List String×List (RouteRule κ)) :=
  compileStoredRules parts ctx [] [] servers ((rules.filter
    (fun r => r.serverID=serverID && r.enabled && r.scope=.server)).insertionSort byPriority)

def pathEvent : PathEvent → Except ConfigError (List String×(List Outbound×List (RouteRule κ)))
  | .outbound o => .ok (servers,[o],[])
  | .failure message => .error (.other message)
  | .stage stage =>
    if stage.inboundTags=[] then .ok (servers,[],[])
    else do
      let (servers,own) ← compileStoredRules parts ctx stage.inboundTags stage.authUsers servers
        ((rules.filter (fun r => r.enabled && r.scope=.pathStage &&
          r.proxyPathID=some stage.pathID && r.serverID=serverID &&
          r.stageStepID=stage.stageStepID)).insertionSort bySortPosition)
      return (servers,[],own++appendPathRoutingRule stage)

end

end Rules

variable {κ υ : Type}

def inboundUsesTransparentProcessing (inboundID : Int) (opts : ConfigOptions κ) : Bool :=
  opts.proxyPaths.any (fun path => path.enabled && path.inboundID=inboundID &&
    opts.proxyPathSteps.any (fun step => step.pathID=path.id && step.processingRole))

section Build

variable (parts : ConfigParts κ υ) (server : ConfigServer)

/-- The listener of one inbound. The limits of its users join those of the listeners before. -/
def generateListener (opts : ConfigOptions κ) (users : List υ) (limits : Limits)
    (inbound : ListenInbound) : Except ConfigError (Limits×Option InboundItem) :=
  -- SSH is a service of the agent, and transparent processing leaves the listener to its target
  if inbound.serverID≠server.id ∨ !inbound.enabled ∨ inbound.protocol=.ssh ∨
      inboundUsesTransparentProcessing inbound.id opts then .ok (limits,none)
  else do
    validateServerUDPForInbound server inbound
    let adapter ← parts.adapterFor inbound.protocol
    let (accounted,listening) ← parts.resolveInboundUsers inbound users opts
    if snellSharedPort inbound && !serverSupportsSnellShared server.toServer inbound then
      throw .snellUnsupported
    if !inboundSupportsMultipleUsers parts.reader inbound && listening.length>1 then
      throw (.singleUser inbound.name)
    let item ← adapter.inbound inbound listening
    return (limits.putAll (parts.runtimeLimits inbound accounted opts),some item)

def generateOutbound (users : List υ) (outbound : StoredOutbound) :
    Except ConfigError (List Outbound) :=
  if outbound.serverID≠server.id ∨ !outbound.enabled then .ok []
  else do
    parts.validateAddressForIPStack server outbound.targetAddress
    let adapter ← parts.adapterFor outbound.protocol
    let item ← adapter.outbound outbound (users.find? parts.active)
    return [item]

def generateExternalOutbound (users : List υ) (external : ExternalOutbound) :
    Except ConfigError (List Outbound) :=
  if !external.enabled ∨ !externalUsableOnServer external server.id then .ok []
  else do
    parts.validateAddressForIPStack server external.targetAddress
    let item ← parts.externalOutboundToSingBox external server (users.find? parts.active)
    return [item]

inductive ConfigBuildMode where
  | full
  | usersProjection

/-- Only the projection goes on without the resolvers of the server. -/
def generateDNS : ConfigBuildMode → Except ConfigError DNSConfig
  | .full => parts.buildDNSConfig server
  | .usersProjection =>
    match parts.buildDNSConfig server with
    | .ok dns => .ok dns
    | .error _ => .ok ⟨[],"local"⟩

/-- What both modes have generated when they part. -/
structure ConfigDraft (κ υ : Type) where
  opts : ConfigOptions κ
  users : List υ
  warpServers : List Int
  dns : DNSConfig
  ctx : RoutePolicyContext
  topology : Projection
  inbounds : List InboundItem
  limits : Limits

/-- An access snapshot replaces the stored bindings, and first steps get their inbound. -/
def ConfigOptions.resolved (opts : ConfigOptions κ) : ConfigOptions κ :=
  {opts with
    inboundUsers := opts.accessSnapshot.elim opts.inboundUsers (·.inboundUserBindings)
    proxyPathUsers := opts.accessSnapshot.elim opts.proxyPathUsers (·.proxyPathUserBindings)
    proxyPathSteps :=
      resolveImplicitProxyPathInboundBindings opts.proxyPaths opts.proxyPathSteps opts.inbounds}

def draftConfig (inbounds : List ListenInbound) (users : List υ) (opts : ConfigOptions κ)
    (mode : ConfigBuildMode) : Except ConfigError (ConfigDraft κ υ) := do
  let opts := opts.resolved
  let users := parts.dataPlaneIdentities users
  (parts.topology.validateProxyPathTransportSet opts.proxyPaths
    (fun pathID => opts.proxyPathSteps.filter (fun step => step.pathID=pathID))
    (byID (·.id) opts.inbounds)).mapError .other
  let warpServers ← proxyPathWARPServerIDs opts.proxyPaths opts.proxyPathSteps opts.inbounds
  let dns ← generateDNS parts server mode
  let (limits,items) ← collect (generateListener parts server opts users) ∅ inbounds
  let topology ← (buildProxyPathTopology parts.topology opts.proxyPaths opts.proxyPathSteps
    opts.servers opts.inbounds opts.portLedger).mapError .other
  let (limits,internal) ← parts.buildProxyPathInternalInbounds server opts users limits topology
  return ⟨opts,users,warpServers,dns,newRoutePolicyContext server (inbounds++opts.inbounds),
    topology,items.reduceOption++internal,limits⟩

def buildProxyPathOutboundsAndRules (outbounds : List StoredOutbound) (draft : ConfigDraft κ υ) :
    Except ConfigError (List String×List Outbound×List (RouteRule κ)) := do
  let (servers,found) ← collect (pathEvent parts draft.ctx server.id draft.opts.routingRules)
    draft.dns.servers (parts.walkProxyPaths server outbounds draft.opts draft.users draft.topology)
  let bound ← parts.applyRoutingRuleProxyPathBindings server draft.opts (found.flatMap Prod.fst)
  return (servers,bound,found.flatMap Prod.snd)

def ConfigDraft.config (draft : ConfigDraft κ υ) (outbounds : List Outbound)
    (rules : List (RouteRule κ)) : SingBoxConfig κ where
  inbounds := draft.inbounds
  outbounds := ⟨"direct",false⟩::⟨"block",false⟩::outbounds
  rules := rules
  final := "direct"
  limits := draft.limits

section

variable (outbounds : List StoredOutbound) (draft : ConfigDraft κ υ)

/-- The projection only routes the paths. -/
def projectedConfig : Except ConfigError (SingBoxConfig κ) := do
  let (_,pathOutbounds,pathRules) ← buildProxyPathOutboundsAndRules parts server outbounds draft
  return draft.config pathOutbounds pathRules

def fullConfig : Except ConfigError (SingBoxConfig κ) := do
  let own ← outbounds.mapM (generateOutbound parts server draft.users)
  let external ← draft.opts.externalOutbounds.mapM
    (generateExternalOutbound parts server draft.users)
  let sourcePrefix ← parts.buildSourcePrefixOutbounds server draft.opts
  let interface ← parts.buildRoutingRuleInterfaceOutbounds server draft.opts
  let (servers,pathOutbounds,pathRules) ←
    buildProxyPathOutboundsAndRules parts server outbounds draft
  let vpnGate ← parts.buildVPNGatePoolOutbounds server draft.opts
  let familySplit ← parts.buildRoutingRuleFamilySplitOutbounds server draft.opts pathOutbounds
    draft.topology {draft.dns with servers := servers}
  draft.opts.warpProfiles.forM (fun profile =>
    if !draft.warpServers.contains server.id ∨ profile.serverID≠server.id ∨ !profile.enabled then
      .ok () else parts.warpEndpoint profile server)
  parts.applyRoutingRuleWARPEndpointBindings server draft.opts
  let (_,serverRules) ← buildServerRules parts draft.ctx server.id draft.opts.routingRules servers
  return draft.config
    (own.flatten++external.flatten++sourcePrefix++interface++pathOutbounds++vpnGate++familySplit)
    (pathRules++serverRules)

end

def buildServerConfig (inbounds : List ListenInbound) (outbounds : List StoredOutbound)
    (users : List υ) (opts : ConfigOptions κ) (mode : ConfigBuildMode) :
    Except ConfigError (SingBoxConfig κ×Option RuntimeUserPackage) := do
  let draft ← draftConfig parts server inbounds users opts mode
  let config ← match mode with
    | .usersProjection => projectedConfig parts server outbounds draft
    | .full => fullConfig parts server outbounds draft
  return if opts.disableRuntimeUsers then (config,none)
    else applyRuntimeUserStructure server.toServer config

def uniqueSortedStrings (values : List String) : List String :=
  ((values.map trimSpace).filter (fun value => value≠"")).dedup.insertionSort (· ≤ ·)

/-- The hash reads scope and entries in one order, whatever order they come in. -/
def usersSnapshotDigest (revision : Int) (scope : List String) (entries : List UsersInstallEntry) :
    Except ConfigError String :=
  parts.snapshotHash revision (uniqueSortedStrings scope) (entries.insertionSort byIdentity)

/-- The counters of a lease move with every traffic report. -/
def UsersInstallEntry.stable (entry : UsersInstallEntry) : UsersInstallEntry :=
  {entry with policy :=
    {entry.policy with usedBaselineBytes := 0,leaseBytes := 0,resetLeaseBytes := 0}}

def usersContentDigest (scope : List String) (entries : List UsersInstallEntry) :
    Except ConfigError String :=
  usersSnapshotDigest parts 0 scope (entries.map UsersInstallEntry.stable)

structure SignedPackage extends RuntimeUserPackage where
  usersDigest : String
  deriving DecidableEq

def signPackage (pkg : RuntimeUserPackage) : SignedPackage :=
  {pkg with usersDigest := (usersSnapshotDigest parts 0 pkg.scope pkg.entries).toOption.getD ""}

section

variable (inbounds : List ListenInbound) (outbounds : List StoredOutbound) (users : List υ) (opts : ConfigOptions κ)

/-- The text of the configuration and the package that left it. -/
def generateServerConfigWithOptions : Except ConfigError (String×Option SignedPackage) := do
  let (config,pkg) ← buildServerConfig parts server inbounds outbounds users opts .full
  parts.validateGeneratedSingBoxConfig config
  let text ← parts.marshalIndent config
  return (text,pkg.map (signPackage parts))

/-- A server without managed listeners gets the empty package. -/
def projectServerRuntimeUsers : Except ConfigError SignedPackage := do
  let (_,pkg) ← buildServerConfig parts server inbounds outbounds users opts .usersProjection
  return (pkg.map (signPackage parts)).getD ⟨⟨[],[]⟩,""⟩

end

end Build

end Oboard.Core
