import Oboard.Core.CredentialScopes
import Oboard.Core.ListenResources

namespace Oboard.Core

open GoText Word64

inductive ListenMode where
  | auto
  | dual
  | ipv4Only

/-- The fields of a server that port planning reads. A server that does not exist reads as zero. -/
structure ManagedServer where
  id : Int := 0
  name : String := ""
  listenIP : String := ""
  listenMode : ListenMode := .auto
  publicIPv6 : String := ""
  interfaceIPv6 : String := ""
  portRangeStart : Int := 0
  portRangeEnd : Int := 0
  internalPortRangeStart : Int := 0
  internalPortRangeEnd : Int := 0
  portPolicyRevision : Int := 0

def firstNonEmpty (value fallback : String) : String :=
  if trimSpace value="" then trimSpace fallback else trimSpace value

section

variable (server : ManagedServer)

def serverHasIPv6Inbound : Bool :=
  trimSpace server.publicIPv6≠"" || trimSpace server.interfaceIPv6≠""

def effectiveListenIP (stored : String) : String :=
  let value := trimSpace stored
  if value≠"" ∧ value≠"0.0.0.0" then value
  else match server.listenMode with
    | .dual => "::"
    | .ipv4Only => "0.0.0.0"
    | .auto => if serverHasIPv6Inbound server then "::" else "0.0.0.0"

def proxyPathServerPortRange : Int×Int :=
  if 0<server.portRangeStart ∧ server.portRangeStart ≤ server.portRangeEnd then
    (server.portRangeStart,server.portRangeEnd)
  else (10000,20000)

def proxyPathInternalPortRange : Int×Int :=
  if 0<server.internalPortRangeStart ∧ server.internalPortRangeStart ≤ server.internalPortRangeEnd then
    (server.internalPortRangeStart,server.internalPortRangeEnd)
  else (30000,59999)

def serverPortPolicyRevision : Int :=
  if server.portPolicyRevision≤0 then 1 else server.portPolicyRevision

end

def fnv64a (text : String) : Nat :=
  text.toUTF8.toList.foldl (fun h b => (h ^^^ b.toNat)*1099511628211%2^64) 14695981039346656037

def stableProxyPathResourceID (kind : String) (values : List String) : Int :=
  850000000000+fnv64a (values.foldl (fun text value => text++"|"++value) kind)%40000000000

def Protocol.text : Protocol → String
  | .vless => "vless"
  | .hy2 => "hy2"
  | .anyTLS => "anytls"
  | .shadowsocks => "shadowsocks"
  | .mieru => "mieru"
  | .socks => "socks"
  | .snell => "snell"
  | .ssh => "ssh"

/-- What ParseProxyPathChainConfig accepts. -/
inductive ProxyPathChainConfig where
  | shadowsocks (method : String)
  | vless (handshakeServer : String) (handshakePort : Int)
  | mieru
  | socks

namespace ProxyPathChainConfig

def protocol : ProxyPathChainConfig → Protocol
  | shadowsocks _ => .shadowsocks
  | vless _ _ => .vless
  | mieru => .mieru
  | socks => .socks

def profile : ProxyPathChainConfig → String
  | shadowsocks method => method
  | vless server port => s!"reality:{server}:{port}"
  | mieru => "tcp"
  | socks => "socks5"

end ProxyPathChainConfig

inductive TunnelType where
  | ssh
  | wireGuard
  | other (name : String)
  deriving DecidableEq

/-- A step's config: the generated chain listener it asks for, whether it names a chain protocol,
and the tunnel type and service port. -/
structure StepConfig where
  chain : Except String ProxyPathChainConfig := .ok (.shadowsocks "2022-blake3-aes-128-gcm")
  namesChainProtocol : Bool := false
  tunnelType : Option TunnelType := none
  sshPort : Int := 0

inductive StepNodeType where
  | serverInbound
  | imported
  | warp
  | vpnGate
  deriving DecidableEq

structure TopologyPath extends ProxyPath where
  name : String := ""

structure TopologyStep extends ProxyPathStep where
  nodeType : StepNodeType := .serverInbound
  config : StepConfig := {}

namespace TopologyStep

/-- An unset mode is the sing-box chain. -/
def mode (step : TopologyStep) : TransportMode :=
  if step.transportMode=.unset then .singBox else step.transportMode

def boundInbound (step : TopologyStep) : Option Int := step.inboundID.filter (· ≠ 0)

def targetServer (step : TopologyStep) : Option Int := step.serverID.filter (· ≠ 0)

def ordered (steps : List TopologyStep) : List TopologyStep :=
  steps.insertionSort (fun a b => a.position<b.position ∨ (a.position=b.position ∧ a.id≤b.id))

end TopologyStep

/-- Lookups and checks of other components, which may refuse a topology. -/
structure TopologyEnv where
  parseAddr : String → Option NetAddr
  validateProxyPathTransportSet : List TopologyPath → (Int → List TopologyStep) →
    Table Int ListenInbound → Except String Unit
  validateFamilyBranchTransport : List TopologyStep → Except String Unit
  resolveReachableEntryAddress : ManagedServer → ListenInbound → ManagedServer → Except String String
  resolveReachableServerEntryAddress : ManagedServer → ManagedServer → Except String String
  tunnelKeyPair : ManagedServer → ManagedServer → String → String → Except String Unit

def proxyPathProtocolRequiresInboundBinding : Protocol → Bool
  | .anyTLS => true
  | .hy2 => true
  | _ => false

/-- The only enabled inbound of the step's server with the path's own protocol. -/
def implicitBinding (inbounds : List ListenInbound) (root : ListenInbound) (step : TopologyStep) :
    Option Int :=
  match inbounds.filter (fun inbound => some inbound.serverID=step.targetServer &&
      inbound.enabled && inbound.protocol=root.protocol) with
  | [candidate] => some candidate.id
  | _ => none

/-- A first step that only names a server is bound to the inbound it can only mean. -/
def resolveImplicitProxyPathInboundBindings (paths : List TopologyPath) (steps : List TopologyStep)
    (inbounds : List ListenInbound) : List TopologyStep :=
  let rootByPath : Table Int ListenInbound := Table.putAll ∅ (paths.filterMap (fun path =>
    ((byID (·.id) inbounds).lookup path.inboundID).map (fun root => (path.id,root))))
  let first := fun pathID => (TopologyStep.ordered (steps.filter (fun step => step.pathID=pathID))).head?
  steps.map (fun step =>
    match rootByPath.lookup step.pathID with
    | none => step
    | some root =>
      if ((first step.pathID).map (·.id)≠some step.id) ∨
          ¬proxyPathProtocolRequiresInboundBinding root.protocol ∨
          step.nodeType≠.serverInbound ∨ step.boundInbound.isSome ∨ step.targetServer.isNone ∨
          step.mode≠.singBox ∨ step.config.namesChainProtocol then step
      else match implicitBinding inbounds root step with
        | none => step
        | some id => {step with inboundID := some id})

/-- A request for the port of one generated listener, with the search that a first allocation
runs. -/
structure ListenerRequest where
  key : PortKey
  pool : String
  listenIP : String
  network : ForwardProtocol
  policyRevision : Int
  search : PortSearch

def ListenerRequest.requirement (request : ListenerRequest) (found : Int) : PortRequirement where
  key := request.key
  pool := request.pool
  listenIP := request.listenIP
  network := request.network
  policyRevision := request.policyRevision
  allocate := some (fun _ => found)

/-- A tunnel shared by all steps with the same key. -/
structure Tunnel where
  id : Int
  sourceServerID : Int
  targetServerID : Int
  type : TunnelType
  listenPort : Int := 0
  targetPort : Int := 0

structure ChainServiceKey where
  serverID : Int
  protocol : Protocol
  profile : String
  deriving DecidableEq

structure Projection where
  ledger : PortLedger
  inbounds : Table Int ListenInbound
  services : Table ChainServiceKey ListenInbound := ∅
  tunnels : Table String Tunnel := ∅

namespace Projection

def inboundList (p : Projection) : List ListenInbound := p.inbounds.rows.map Prod.snd

def resolve (parseAddr : String → Option NetAddr) (p : Projection) (request : ListenerRequest) :
    PortLedger×Int :=
  let found := request.search.proxyPathAvailablePortForProtocol parseAddr p.inboundList
  p.ledger.resolve (request.requirement found)

end Projection

namespace ChainServiceKey

def scopeKey (key : ChainServiceKey) : String :=
  if key.protocol=.shadowsocks then key.profile else key.protocol.text++":"++key.profile

def methodIndex (method : String) : Int :=
  if method="2022-blake3-aes-128-gcm" then 1
  else if method="2022-blake3-aes-256-gcm" then 2
  else if method="2022-blake3-chacha20-poly1305" then 3
  else 0

section

variable (key : ChainServiceKey)

def id : Int :=
  if key.protocol=.shadowsocks then
    -(2^41+key.serverID%2^24*2^4+methodIndex key.profile)
  else -stableProxyPathResourceID "proxy-path-chain-inbound"
    [toString key.serverID,key.protocol.text,key.profile]

def label : String :=
  match key.protocol with
  | .vless => "VLESS Reality"
  | .mieru => "Mieru TCP"
  | .socks => "SOCKS5"
  | _ => key.profile

def displayLabel : String :=
  if key.protocol=.shadowsocks then s!"Shadowsocks {key.profile}" else key.label

def network : ForwardProtocol :=
  if key.protocol=.shadowsocks ∨ key.protocol=.socks then .tcpUdp else .tcp

end

def le (a b : ChainServiceKey) : Bool :=
  if a.serverID=b.serverID then
    if a.protocol=b.protocol then a.profile≤b.profile else a.protocol.text<b.protocol.text
  else a.serverID<b.serverID

section

variable (server : ManagedServer)

def listenIP : String := firstNonEmpty server.listenIP "0.0.0.0"

def request (key : ChainServiceKey) : ListenerRequest where
  key := ⟨"chain_service",key.scopeKey,server.id⟩
  pool := "public"
  listenIP := listenIP server
  network := key.network
  policyRevision := serverPortPolicyRevision server
  search :=
    {serverID := server.id,listenIP := listenIP server,protocol := key.network
     seed := wrap (wrap (server.id*977)+stableProxyPathResourceID "proxy-path-chain-service"
       [key.protocol.text,key.profile]%1000000)
     start := (proxyPathServerPortRange server).1,stop := (proxyPathServerPortRange server).2}

def inbound (key : ChainServiceKey) (port : Int) : ListenInbound where
  id := key.id
  serverID := key.serverID
  enabled := true
  protocol := key.protocol
  name := "共享链路 / "++key.label
  listenIP := listenIP server
  port := port

end

end ChainServiceKey

/-- How many ports a range has and how many of them the server holds. -/
def proxyPathPortRangeUsage (serverID start stop : Int) (inbounds : List ListenInbound) : Nat×Nat :=
  ((stop-start+1).toNat,(((inbounds.filter (fun inbound => inbound.serverID=serverID &&
    start ≤ inbound.port && inbound.port ≤ stop)).map (·.port)).dedup).length)

def chainServiceKeyOf (paths : Table Int TopologyPath) (servers : Table Int ManagedServer)
    (step : TopologyStep) : Except String (Option ChainServiceKey) :=
  match paths.lookup step.pathID with
  | none => .ok none
  | some path =>
    if ¬path.enabled ∨ step.nodeType≠.serverInbound ∨ step.boundInbound.isSome ∨
        step.mode=.portForward then .ok none
    else match step.targetServer with
      | none => .ok none
      | some serverID =>
        match step.config.chain with
        | .error message => .error s!"proxy path {path.name} step {step.position}: {message}"
        | .ok chain =>
          match servers.lookup serverID with
          | none => .error s!"proxy path {path.name} step {step.position}: target server not found"
          | some server => .ok (some ⟨server.id,chain.protocol,chain.profile⟩)

def chainServiceKeys (paths : Table Int TopologyPath) (servers : Table Int ManagedServer) :
    List TopologyStep → Except String (List ChainServiceKey)
  | [] => .ok []
  | step::steps =>
    match chainServiceKeyOf paths servers step with
    | .error message => .error message
    | .ok key =>
      match chainServiceKeys paths servers steps with
      | .error message => .error message
      | .ok keys => .ok (key.toList++keys)

def buildChainService (env : TopologyEnv) (servers : Table Int ManagedServer) (p : Projection)
    (key : ChainServiceKey) : Except String Projection :=
  let server := (servers.lookup key.serverID).getD {}
  let (ledger,port) := p.resolve env.parseAddr (key.request server)
  if port=0 then
    let (start,stop) := proxyPathServerPortRange server
    let (capacity,used) := proxyPathPortRangeUsage server.id start stop p.inboundList
    .error s!"服务器 {server.name} 的自动分配公网端口段 {start}-{stop} 已耗尽（共 {capacity} 个端口，已占用 {used} 个），无法为代理链共享 {key.displayLabel} 监听分配端口；请在服务器设置中扩大该端口段，或释放段内不再使用的入站端口"
  else
    let inbound := key.inbound server port
    .ok {p with
      ledger := ledger
      services := p.services.insert key inbound
      inbounds := p.inbounds.insert inbound.id inbound}

def buildChainServices (env : TopologyEnv) (servers : Table Int ManagedServer) :
    Projection → List ChainServiceKey → Except String Projection
  | p,[] => .ok p
  | p,key::keys =>
    match buildChainService env servers p key with
    | .error message => .error message
    | .ok p => buildChainServices env servers p keys

/-- Steps are visited by path, position and id, the listeners are planned in the order of their
keys. -/
def buildProxyPathChainServices (env : TopologyEnv) (paths : List TopologyPath)
    (steps : List TopologyStep) (servers : Table Int ManagedServer) (p : Projection) :
    Except String Projection :=
  let ordered := (TopologyStep.ordered steps).insertionSort (fun a b => a.pathID≤b.pathID)
  match chainServiceKeys (byID (·.id) paths) servers ordered with
  | .error message => .error message
  | .ok keys => buildChainServices env servers p (keys.dedup.insertionSort (fun a b => a.le b))

def transparentProxyPathPrefixLength (steps : List TopologyStep) : Nat :=
  (steps.takeWhile (fun step => step.mode=.portForward)).length

/-- Enabled paths with a transparent start share it per inbound, with the length the first of them
has. -/
def transparentPrefix (paths : List TopologyPath) (stepsOf : Int → List TopologyStep)
    (path : TopologyPath) : Option Nat :=
  let length := fun path : TopologyPath => transparentProxyPathPrefixLength (stepsOf path.id)
  if ¬path.enabled ∨ length path=0 then none
  else (paths.find? (fun other => other.enabled && other.inboundID=path.inboundID &&
    length other≠0)).map length

def proxyPathStepTargetServer (step : TopologyStep) (inbounds : Table Int ListenInbound) :
    Option (Int×Option ListenInbound) :=
  match step.boundInbound with
  | some id => (inbounds.lookup id).map (fun inbound => (inbound.serverID,some inbound))
  | none => step.targetServer.map (fun serverID => (serverID,none))

def chainServiceForStep (services : Table ChainServiceKey ListenInbound) (step : TopologyStep)
    (serverID : Int) : Option ListenInbound :=
  if step.boundInbound.isSome ∨ step.mode=.portForward then none
  else match step.config.chain with
    | .error _ => none
    | .ok chain => services.lookup ⟨serverID,chain.protocol,chain.profile⟩

def proxyPathSharedTransparentInboundID (inboundID position : Int) : Int :=
  -(2^43+inboundID%2^24*2^12+position%2^12)

def proxyPathInternalOutboundID (pathID position : Int) : Int :=
  -(2^45+pathID%2^24*2^12+position%2^12)

/-- The search behind proxyPathInternalPort and its relatives: a TCP port. -/
def tcpSearch (server : ManagedServer) (seed : Int) (range : Int×Int) (listenIP : String) :
    PortSearch :=
  {serverID := server.id,listenIP := listenIP,protocol := .tcp,seed := seed
   start := range.1,stop := range.2}

def internalRequest (server : ManagedServer) (scopeKey pool listenIP : String)
    (search : PortSearch) : ListenerRequest where
  key := ⟨"internal_inbound",scopeKey,server.id⟩
  pool := pool
  listenIP := listenIP
  network := .tcp
  policyRevision := serverPortPolicyRevision server
  search := search

def generatedInbound (id : Int) (server : ManagedServer) (name listenIP : String) (port : Int) :
    ListenInbound where
  id := id
  serverID := server.id
  enabled := true
  protocol := .vless
  name := name
  listenIP := listenIP
  port := port

def transparentRequest (server : ManagedServer) (inboundID position : Int) : ListenerRequest :=
  let listenIP := effectiveListenIP server server.listenIP
  internalRequest server s!"inbound:{inboundID}:{position}" "public" listenIP
    (tcpSearch server (wrap (wrap (inboundID*97)+wrap (position*17)))
      (proxyPathServerPortRange server) listenIP)

/-- A step that names the SSH tunnel keeps its listener on loopback. -/
def internalStepRequest (server : ManagedServer) (path : TopologyPath) (step : TopologyStep) :
    ListenerRequest :=
  let scopeKey := s!"{path.id}:{step.position}"
  if step.transportMode=.tunnel ∧ step.config.tunnelType=some .ssh then
    internalRequest server scopeKey "internal" "127.0.0.1"
      (tcpSearch server (wrap (wrap (path.id*149)+wrap (step.position*29)))
        (proxyPathInternalPortRange server) "127.0.0.1")
  else
    let listenIP := effectiveListenIP server server.listenIP
    internalRequest server scopeKey "public" listenIP
      (tcpSearch server (wrap (wrap (path.id*97)+wrap (step.position*17)))
        (proxyPathServerPortRange server) listenIP)

/-- The inbound a step dials, and the ledger after it was planned. -/
structure TargetPlan where
  inbound : ListenInbound
  ledger : PortLedger

def planRequest (env : TopologyEnv) (p : Projection) (request : ListenerRequest)
    (inbound : Int → ListenInbound) : TargetPlan :=
  let (ledger,port) := p.resolve env.parseAddr request
  ⟨inbound port,ledger⟩

def proxyPathPlanTargetInbound (env : TopologyEnv) (servers : Table Int ManagedServer)
    (p : Projection) (path : TopologyPath) (step : TopologyStep) (serverID : Int)
    (target : Option ListenInbound) (sharedPrefix : Option Nat) : TargetPlan :=
  match target with
  | some inbound => ⟨inbound,p.ledger⟩
  | none =>
    match chainServiceForStep p.services step serverID with
    | some inbound => ⟨inbound,p.ledger⟩
    | none =>
      let server := (servers.lookup serverID).getD {}
      if sharedPrefix.any (fun length => step.position≤length) then
        let id := proxyPathSharedTransparentInboundID path.inboundID step.position
        match p.inbounds.lookup id with
        | some inbound => ⟨inbound,p.ledger⟩
        | none =>
          planRequest env p (transparentRequest server path.inboundID step.position)
            (generatedInbound id server s!"入口 {path.inboundID} / 透明第{step.position}跳内部入口"
              (effectiveListenIP server server.listenIP))
      else
        let request := internalStepRequest server path step
        planRequest env p request
          (generatedInbound (proxyPathInternalOutboundID path.id step.position) server
            ((firstNonEmpty path.name "代理路径")++s!" / 第{step.position}跳内部入口") request.listenIP)

def TopologyStep.typeOfTunnel (step : TopologyStep) : TunnelType := step.config.tunnelType.getD .ssh

def proxyPathTunnelReuseKey (step : TopologyStep) (source target : Int) (inbound : ListenInbound) :
    String :=
  match step.typeOfTunnel with
  | .ssh => s!"ssh:{source}:{target}:{step.config.sshPort}:{inbound.port}"
  | .wireGuard => s!"wireguard:{source}:{target}"
  | .other name => s!"{name}:{source}:{target}"

def proxyPathPortAvailable (serverID port : Int) (protocol : ForwardProtocol)
    (inbounds : List ListenInbound) : Bool :=
  inbounds.all (fun inbound => inbound.serverID≠serverID || inbound.port≠port ||
    (transparentForwardProtocol inbound≠.tcpUdp && transparentForwardProtocol inbound≠protocol))

def sshTunnelRequest (source : ManagedServer) (tunnelID : Int) : ListenerRequest where
  key := ⟨"tunnel_ssh_loopback",toString tunnelID,source.id⟩
  pool := "internal"
  listenIP := "127.0.0.1"
  network := .tcp
  policyRevision := serverPortPolicyRevision source
  search := tcpSearch source (wrap (wrap (tunnelID*193)+31)) (proxyPathInternalPortRange source)
    "127.0.0.1"

def wireGuardTunnelRequest (target : ManagedServer) (tunnelID : Int) : ListenerRequest where
  key := ⟨"tunnel_wireguard",toString tunnelID,target.id⟩
  pool := "public"
  listenIP := "*"
  network := .udp
  policyRevision := serverPortPolicyRevision target
  search := {tcpSearch target (wrap (wrap (tunnelID*193)+47)) (proxyPathServerPortRange target) "*"
    with protocol := .udp}

/-- The port is resolved before the rest of the tunnel is checked, so a refused tunnel may leave a
new port in the ledger. -/
def proxyPathManagedTunnel (env : TopologyEnv) (servers : Table Int ManagedServer) (p : Projection)
    (path : TopologyPath) (step : TopologyStep) (sourceID targetID : Int)
    (inbound : ListenInbound) : PortLedger×Except String Tunnel :=
  let hop := s!"路径 {path.name} 第 {step.position} 跳"
  let reuseKey := proxyPathTunnelReuseKey step sourceID targetID inbound
  let id := stableProxyPathResourceID "proxy-path-tunnel" [reuseKey]
  let type := step.typeOfTunnel
  if sourceID=0 ∨ targetID=0 ∨ sourceID=targetID then
    (p.ledger,.error (hop++"隧道的源/目标服务器无效"))
  else match servers.lookup sourceID,servers.lookup targetID with
    | none,_ => (p.ledger,.error (hop++"源服务器不存在"))
    | _,none => (p.ledger,.error (hop++"目标服务器不存在"))
    | some source,some target =>
      match env.resolveReachableServerEntryAddress source target with
      | .error message => (p.ledger,.error (hop++": "++message))
      | .ok _ =>
        match type with
        | .ssh =>
          match env.tunnelKeyPair source target reuseKey "ssh" with
          | .error message => (p.ledger,.error (hop++"生成共享 SSH 凭据: "++message))
          | .ok () =>
            let (ledger,port) := p.resolve env.parseAddr (sshTunnelRequest source id)
            let sshPort := step.config.sshPort
            if sshPort=0 then (ledger,.error (hop++"未设置目标端隧道服务端口"))
            else if ¬validPort sshPort then
              (ledger,.error (hop++s!"目标端隧道服务端口: invalid port {sshPort}"))
            else if ¬proxyPathPortAvailable target.id sshPort .tcp p.inboundList then
              (ledger,.error (hop++s!"目标端隧道服务端口 {sshPort} 已被目标服务器的 TCP 服务占用"))
            else (ledger,.ok {id := id,sourceServerID := sourceID,targetServerID := targetID
                              type := type,listenPort := port,targetPort := sshPort})
        | .wireGuard =>
          match env.tunnelKeyPair source target reuseKey "wireguard-source",
              env.tunnelKeyPair source target reuseKey "wireguard-target" with
          | .error message,_ => (p.ledger,.error (hop++"生成共享 WireGuard 源凭据: "++message))
          | _,.error message => (p.ledger,.error (hop++"生成共享 WireGuard 目标凭据: "++message))
          | .ok (),.ok () =>
            let (ledger,port) := p.resolve env.parseAddr (wireGuardTunnelRequest target id)
            if port=0 then
              (ledger,.error (hop++"的目标服务器管理公网端口范围内没有可用 WireGuard UDP 端口"))
            else (ledger,.ok {id := id,sourceServerID := sourceID,targetServerID := targetID
                              type := type,targetPort := port})
        | .other _ => (p.ledger,.error (hop++"隧道类型必须是 ssh 或 wireguard"))

/-- Tunnel ports are held by inbounds of their own, under negative ids. -/
def reserveProxyPathTunnelPorts (tunnel : Tunnel) (inbounds : Table Int ListenInbound) :
    Table Int ListenInbound :=
  if tunnel.targetServerID=0 ∨ tunnel.targetPort≤0 then inbounds
  else match tunnel.type with
    | .wireGuard =>
      inbounds.insert (-tunnel.id) {id := -tunnel.id,serverID := tunnel.targetServerID
                                    enabled := true,protocol := .hy2,port := tunnel.targetPort}
    | .ssh =>
      if tunnel.sourceServerID=0 ∨ tunnel.listenPort≤0 then inbounds
      else inbounds.insert (-tunnel.id-1) {id := -tunnel.id-1,serverID := tunnel.sourceServerID
                                           enabled := true,protocol := .vless
                                           listenIP := "127.0.0.1",port := tunnel.listenPort}
    | .other _ => inbounds

/-- Checks of a transparent hop. Its listener is the port the previous hop ended on. -/
def proxyPathManagedPortForward (env : TopologyEnv) (servers : Table Int ManagedServer)
    (path : TopologyPath) (step : TopologyStep) (sourceID targetID listenPort : Int) :
    Except String Unit :=
  let hop := s!"路径 {path.name} 第 {step.position} 跳"
  if sourceID=0 ∨ targetID=0 ∨ sourceID=targetID then .error (hop++"端口转发的源/目标服务器无效")
  else match servers.lookup targetID with
    | none => .error (hop++"目标服务器不存在")
    | some target =>
      if listenPort≤0 then .error (hop++"端口转发监听端口无效")
      else match servers.lookup sourceID with
        | none => .error (hop++"源服务器不存在")
        | some source =>
          match env.resolveReachableServerEntryAddress source target with
          | .error message => .error (hop++": "++message)
          | .ok _ => .ok ()

structure PathWalk where
  projection : Projection
  previousServerID : Int
  sourceListenPort : Int

/-- A disabled path only collects warnings where an enabled one is refused. -/
def refuse (path : TopologyPath) (message : String) (walk : PathWalk) : Except String PathWalk :=
  if path.enabled then .error message else .ok walk

section walk

variable (env : TopologyEnv) (servers : Table Int ManagedServer) (path : TopologyPath)
  (root : ListenInbound)

/-- The processing listener of a transparent start speaks the root's protocol. -/
def processingInbound (step : TopologyStep) (inbound : ListenInbound) : ListenInbound :=
  if step.transportMode=.portForward ∧ step.processingRole then
    {inbound with protocol := root.protocol,config := root.config}
  else inbound

/-- Only an enabled path holds ports. -/
def recordTarget (p : Projection) (step : TopologyStep) (plan : TargetPlan) : Projection :=
  let inbound := processingInbound root step plan.inbound
  {p with
    ledger := plan.ledger
    inbounds := if path.enabled then p.inbounds.insert inbound.id inbound else p.inbounds}

/-- A sing-box hop has to reach its target from the previous server. -/
def checkEntry (step : TopologyStep) (previousServerID serverID : Int) (inbound : ListenInbound) :
    Except String Unit :=
  if ¬path.enabled ∨ step.mode≠.singBox ∨ previousServerID=0 then .ok ()
  else match servers.lookup previousServerID,servers.lookup serverID with
    | some source,some target =>
      match env.resolveReachableEntryAddress source inbound target with
      | .error message => .error s!"代理路径 {path.name} 第 {step.position} 跳: {message}"
      | .ok _ => .ok ()
    | _,_ => .error s!"代理路径 {path.name} 第 {step.position} 跳无法确定源/目标服务器"

section

variable (step : TopologyStep) (walk : PathWalk) (serverID : Int) (inbound : ListenInbound)

def forwardHop : Except String PathWalk :=
  match proxyPathManagedPortForward env servers path step walk.previousServerID serverID
      walk.sourceListenPort with
  | .error message => refuse path message walk
  | .ok () => .ok {walk with sourceListenPort := inbound.port,previousServerID := serverID}

/-- The first step with a key makes the tunnel, later ones share it. -/
def tunnelHop : Except String PathWalk :=
  let p := walk.projection
  let key := proxyPathTunnelReuseKey step walk.previousServerID serverID inbound
  match p.tunnels.lookup key with
  | some _ => .ok {walk with previousServerID := serverID}
  | none =>
    match proxyPathManagedTunnel env servers p path step walk.previousServerID serverID inbound with
    | (ledger,.error message) => refuse path message {walk with projection := {p with ledger := ledger}}
    | (ledger,.ok tunnel) => .ok {walk with
        projection := {p with
          ledger := ledger
          tunnels := p.tunnels.insert key tunnel
          inbounds := reserveProxyPathTunnelPorts tunnel p.inbounds}
        previousServerID := serverID}

end

def planStep (sharedPrefix : Option Nat) (walk : PathWalk) (step : TopologyStep) :
    Except String PathWalk :=
  match proxyPathStepTargetServer step walk.projection.inbounds with
  | none =>
    match step.mode with
    | .portForward => refuse path s!"代理路径 {path.name} 第 {step.position} 跳端口转发需要目标服务器" walk
    | .tunnel => refuse path s!"代理路径 {path.name} 第 {step.position} 跳隧道需要目标服务器" walk
    | _ => .ok walk
  | some (serverID,target) =>
    let plan := proxyPathPlanTargetInbound env servers walk.projection path step serverID target
      sharedPrefix
    let inbound := processingInbound root step plan.inbound
    let walk := {walk with projection := recordTarget path root walk.projection step plan}
    match checkEntry env servers path step walk.previousServerID serverID inbound with
    | .error message => .error message
    | .ok () =>
      match step.mode with
      | .portForward => forwardHop env servers path step walk serverID inbound
      | .tunnel => tunnelHop env servers path step walk serverID inbound
      | _ => .ok {walk with previousServerID := serverID}

def planSteps (sharedPrefix : Option Nat) : PathWalk → List TopologyStep → Except String PathWalk
  | walk,[] => .ok walk
  | walk,step::steps =>
    match planStep env servers path root sharedPrefix walk step with
    | .error message => .error message
    | .ok walk => planSteps sharedPrefix walk steps

end walk

/-- A family branch without an inbound starts nowhere. -/
def rootOf (path : TopologyPath) (inbounds : Table Int ListenInbound) : Option ListenInbound :=
  match inbounds.lookup path.inboundID with
  | some root => some root
  | none =>
    if path.kind=.familyBranch then
      some {id := 0,serverID := 0,enabled := true,protocol := .vless,name := path.name,port := 0}
    else none

def planPath (env : TopologyEnv) (servers : Table Int ManagedServer) (paths : List TopologyPath)
    (stepsOf : Int → List TopologyStep) (p : Projection) (path : TopologyPath) :
    Except String Projection :=
  let steps := stepsOf path.id
  match (if path.kind=.familyBranch ∧ path.enabled then env.validateFamilyBranchTransport steps
      else .ok ()) with
  | .error message => .error s!"代理路径 {path.name}: {message}"
  | .ok () =>
    match rootOf path p.inbounds with
    | none => if path.enabled then .error s!"代理路径 {path.name} 的入口不存在" else .ok p
    | some root =>
      match planSteps env servers path root (transparentPrefix paths stepsOf path)
          ⟨p,root.serverID,root.port⟩ steps with
      | .error message => .error message
      | .ok walk => .ok walk.projection

def planPaths (env : TopologyEnv) (servers : Table Int ManagedServer) (paths : List TopologyPath)
    (stepsOf : Int → List TopologyStep) : Projection → List TopologyPath → Except String Projection
  | p,[] => .ok p
  | p,path::rest =>
    match planPath env servers paths stepsOf p path with
    | .error message => .error message
    | .ok p => planPaths env servers paths stepsOf p rest

/-- The chain listeners come first, then the paths in the order of their ids. -/
def buildProxyPathTopology (env : TopologyEnv) (paths : List TopologyPath)
    (steps : List TopologyStep) (servers : List ManagedServer) (inbounds : List ListenInbound)
    (ledger : PortLedger) : Except String Projection :=
  let steps := resolveImplicitProxyPathInboundBindings paths steps inbounds
  let stepsOf := fun pathID => TopologyStep.ordered (steps.filter (fun step => step.pathID=pathID))
  let servers := byID (·.id) servers
  let p : Projection := {ledger := ledger,inbounds := byID (·.id) inbounds}
  match env.validateProxyPathTransportSet paths stepsOf p.inbounds with
  | .error message => .error message
  | .ok () =>
    match buildProxyPathChainServices env paths steps servers p with
    | .error message => .error message
    | .ok p => planPaths env servers paths stepsOf p (paths.insertionSort (fun a b => a.id≤b.id))

end Oboard.Core
