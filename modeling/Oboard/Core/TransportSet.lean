import Oboard.Core.ProxyTopology

namespace Oboard.Core

open GoText List Table TopologyStep

structure ConfigReader where
  canonicalJSONObject : String → String
  stringValue : String → String → String
  vpnGatePoolID : String → Option Int
  parsePrefix : String → Except String String
  shadowsocksMethod : Int → String

structure TransportStep extends TopologyStep where
  externalOutboundID : Option Int := none
  configJSON : String := ""

def TransportStep.ordered (steps : List TransportStep) : List TransportStep :=
  steps.insertionSort (fun a b => a.position<b.position ∨ (a.position=b.position ∧ a.id≤b.id))

def StepNodeType.text : StepNodeType → String
  | serverInbound => "server_inbound"
  | imported => "imported"
  | warp => "warp"
  | vpnGate => "vpngate"

def TransportMode.text : TransportMode → String
  | unset => ""
  | singBox => "singbox"
  | portForward => "port_forward"
  | tunnel => "tunnel"

def proxyPathTransportName : TransportMode → String
  | .portForward => "端口转发"
  | .tunnel => "隧道"
  | _ => "sing-box 出站链"

/-- The test is on digits and a dash, so the case of the method does not matter. -/
def shadowsocksMethodSupportsUsers (method : String) : Bool :=
  "2022-".toList.isPrefixOf (trimSpace method).toList

def inboundSupportsMultipleUsers (reader : ConfigReader) (inbound : ListenInbound) : Bool :=
  match inbound.protocol with
  | .shadowsocks => shadowsocksMethodSupportsUsers (reader.shadowsocksMethod inbound.id)
  | _ => true

def isFamilyBranch (path : TopologyPath) : Bool := path.kind=.familyBranch

section family

structure FamilyBranchExitBinding where
  interfaceName : String := ""
  sourcePrefix : String := ""

def interfaceNameChar (c : Char) : Bool :=
  ('a' ≤ c && c ≤ 'z') || ('A' ≤ c && c ≤ 'Z') || ('0' ≤ c && c ≤ '9') ||
    ['.','_','-',':'].contains c

def validateNetworkInterfaceName (name : String) : Except String Unit :=
  let name := trimSpace name
  if name="" then .ok ()
  else if 15<name.utf8ByteSize then .error "interface name is too long"
  else if name.toList.all interfaceNameChar then .ok ()
  else .error "interface name contains invalid characters"

def parseFamilyBranchExitBinding (reader : ConfigReader) (raw : String) :
    Except String FamilyBranchExitBinding :=
  let interfaceName := trimSpace (reader.stringValue raw "interface_name")
  let sourcePrefix := trimSpace (reader.stringValue raw "source_prefix")
  if interfaceName≠"" ∧ sourcePrefix≠"" then
    .error "family branch last hop cannot bind both interface_name and source_prefix"
  else match validateNetworkInterfaceName interfaceName with
    | .error message => .error s!"interface_name: {message}"
    | .ok () =>
      if sourcePrefix="" then .ok ⟨interfaceName,""⟩
      else match reader.parsePrefix sourcePrefix with
        | .error message =>
          .error s!"source_prefix must be a valid IPv4 or IPv6 CIDR: {message}"
        | .ok masked => .ok ⟨interfaceName,masked⟩

def familyHopFault (reader : ConfigReader) (length : Nat) (index : Nat) (step : TransportStep) :
    Option String :=
  if step.mode=.portForward then some "双栈模板不能使用透明端口转发"
  else if index=0 ∧ step.mode=.tunnel then some "双栈模板第一跳不能使用隧道"
  else match parseFamilyBranchExitBinding reader step.configJSON with
    | .error message => some message
    | .ok binding =>
      if (binding.interfaceName≠"" ∨ binding.sourcePrefix≠"") ∧ index+1≠length then
        some "网卡或源前缀绑定只能配置在双栈模板的最后一跳"
      else if step.nodeType=.warp ∧ index+1≠length then
        some "WARP 必须是双栈模板分支的最后一个节点"
      else none

end family

def firstFault (fault : Nat → TransportStep → Option String) (steps : List TransportStep) :
    Except String Unit :=
  match steps.zipIdx.findSome? (fun e => fault e.2 e.1) with
  | some message => .error message
  | none => .ok ()

def validateFamilyBranchTransport (reader : ConfigReader) (steps : List TransportStep) :
    Except String Unit :=
  let ordered := TransportStep.ordered steps
  firstFault (familyHopFault reader ordered.length) ordered

def vpnGateStepPoolID (reader : ConfigReader) (step : TransportStep) : Option Int :=
  if step.nodeType≠.vpnGate then none
  else (reader.vpnGatePoolID step.configJSON).filter (fun id => 0 < id)

/-- One entry of a transparent start. The source compares the JSON texts of such lists, which are
equal only for equal lists. -/
structure TransparentStep where
  serverID : Option Int
  inboundID : Option Int
  configJSON : String
  deriving DecidableEq

/-- Empty for a path without a transparent start. -/
def transparentProxyPathPrefixSignature (reader : ConfigReader) (steps : List TransportStep) :
    List TransparentStep :=
  (steps.takeWhile (fun step => step.mode=.portForward)).map (fun step =>
    ⟨step.serverID,step.inboundID,reader.canonicalJSONObject step.configJSON⟩)

def directProxyPathSignature (inboundID : Int) (steps : List TransportStep) : String :=
  steps.foldl (fun text step =>
    text++s!"|{step.nodeType.text}:{step.mode.text}:"++
      (step.serverID.elim "" (fun id => s!"s{id}"))++
      (step.inboundID.elim "" (fun id => s!"i{id}"))++
      (step.externalOutboundID.elim "" (fun id => s!"e{id}"))++":"++trimSpace step.configJSON)
    (toString inboundID)

section semantics

/-- The only step that decrypts, found from the left. -/
def findProcessing (path : TopologyPath) :
    Option Nat → List (TransportStep×Nat) → Except String (Option Nat)
  | found,[] => .ok found
  | found,(step,index)::rest =>
    if !step.processingRole then findProcessing path found rest
    else if found.isSome then .error s!"代理路径 {path.name} 只能设置一个处理加解密节点"
    else if step.nodeType≠.serverInbound then
      .error s!"代理路径 {path.name} 的处理加解密节点必须是可控服务器"
    else if step.boundInbound.isSome then
      .error s!"代理路径 {path.name} 的处理加解密节点必须选择服务器，由系统创建隐藏处理入口，不能复用已有入口"
    else findProcessing path (some index) rest

/-- Port forwarding runs up to the decrypting step and nowhere behind it. -/
def transparentFault (path : TopologyPath) (processing : Nat) (index : Nat)
    (step : TransportStep) : Option String :=
  if index≤processing then
    if step.mode=.tunnel then
      some s!"代理路径 {path.name} 的隧道尚未接入透明用户入口数据面；请先使用端口转发"
    else if step.mode≠.portForward then
      some s!"代理路径 {path.name} 在处理节点之前必须使用端口转发透明传递，不能提前由 sing-box 解密"
    else none
  else if step.mode=.portForward then
    some s!"代理路径 {path.name} 在透明转发结束后不能再次使用端口转发"
  else none

def mieruEntryFault (path : TopologyPath) (root : ListenInbound) : Option String :=
  if root.protocol≠.mieru then none
  else match mieruInboundPorts root with
    | .error message => some s!"代理路径 {path.name} 的 Mieru 入口端口无效：{message}"
    | .ok ports =>
      if 1<ports.length then some s!"代理路径 {path.name} 的多端口 Mieru 入口不能使用可信透明转发"
      else none

/-- Whether the user protocol stays encrypted up to a downstream server. -/
def validateProxyPathTransportSemantics (path : TopologyPath) (root : ListenInbound)
    (steps : List TransportStep) : Except String Bool :=
  if root.protocol=.ssh ∧ steps.any (fun step => step.mode=.portForward) then
    .error s!"代理路径 {path.name} 的 SSH 入口已在 Agent 解密，不能使用透明端口转发"
  else match findProcessing path none steps.zipIdx with
    | .error message => .error message
    | .ok none =>
      if steps.any (fun step => step.mode=.portForward) then
        .error s!"代理路径 {path.name} 使用{proxyPathTransportName .portForward}前必须设置后端处理加解密服务器"
      else .ok false
    | .ok (some processing) =>
      match mieruEntryFault path root with
      | some message => .error message
      | none =>
        match firstFault (transparentFault path processing) steps with
        | .error message => .error message
        | .ok () =>
          if root.port≤0 then .error s!"代理路径 {path.name} 的入口端口无效" else .ok true

end semantics

section checks

variable (reader : ConfigReader) (inbounds : Table Int ListenInbound) (path : TopologyPath)

def requiresBinding (serverID : Int) : Bool :=
  inbounds.rows.any (fun row => row.2.serverID=serverID && row.2.enabled &&
    proxyPathProtocolRequiresInboundBinding row.2.protocol)

/-- A first step that only names a server must say which of its inbounds it means. -/
def implicitBindingFault (root : ListenInbound) (index : Nat) (step : TransportStep) :
    Option String :=
  if step.nodeType≠.serverInbound ∨ step.boundInbound.isSome ∨ step.mode≠.singBox ∨
      step.config.namesChainProtocol then none
  else match step.targetServer with
    | none => none
    | some serverID =>
      if requiresBinding inbounds serverID ∧ index=0 ∧
          proxyPathProtocolRequiresInboundBinding root.protocol then
        some s!"代理路径 {path.name} 从 {root.protocol.text} 入口链接到含有需绑定入口的服务器时必须指定 inbound_id"
      else none

def targetInboundFault (step : TransportStep) : Option String :=
  match step.boundInbound.bind inbounds.lookup with
  | none => none
  | some target =>
    if target.protocol=.snell then
      some s!"代理路径 {path.name} 不能将共享 Snell 用户入口作为链路目标，请使用生成的链路服务"
    else if target.protocol≠.mieru then none
    else match mieruInboundPorts target with
      | .error message => some s!"代理路径 {path.name} 的 Mieru 节点端口无效：{message}"
      | .ok ports =>
        if 1<ports.length ∧ (step.mode=.portForward ∨ step.mode=.tunnel) then
          some s!"代理路径 {path.name} 的多端口 Mieru 节点只能使用 sing-box 出站链"
        else none

/-- An exit that is no server closes the path, right behind a server. -/
def lastNodeFault (label : String) (steps : List TransportStep) (index : Nat)
    (step : TransportStep) : Option String :=
  if index+1≠steps.length then some s!"代理路径 {path.name} 的 {label}必须是最后一个节点"
  else if step.mode≠.singBox then some s!"代理路径 {path.name} 的 {label}只能使用 sing-box 出站"
  else if 0 < index ∧ (steps[index-1]?).map (fun step => step.nodeType)≠some .serverInbound then
    some s!"代理路径 {path.name} 的 {label}必须直接连接在可控服务器之后"
  else none

section

variable (steps : List TransportStep) (index : Nat) (step : TransportStep)

def vpnGateFault :
    Option String :=
  if step.nodeType≠.vpnGate then none
  else if path.kind≠.chain then some "VPNGate 出口只能用于普通代理拓扑"
  else (lastNodeFault path "VPNGate 出口" steps index step).or
    (if (vpnGateStepPoolID reader step).isNone then
      some s!"代理路径 {path.name} 的 VPNGate 出口没有选择出口池" else none)

def warpFault :
    Option String :=
  if step.nodeType≠.warp then none
  else if path.kind≠.chain ∧ path.kind≠.familyBranch then
    some "WARP 只能作为普通代理拓扑或双栈模板的出口"
  else lastNodeFault path "WARP " steps index step

end

def pathLabel : String :=
  let name := trimSpace path.name
  if name="" then s!"#{path.id}" else s!"{name} (#{path.id})"

/-- A direct branch ends on a server and no two of them share their place. -/
def directFault (previous : Table String TopologyPath) (steps : List TransportStep) :
    Except String (Table String TopologyPath) :=
  if path.kind≠.direct then .ok previous
  else match (match steps.getLast? with
      | none => none
      | some last =>
        if last.nodeType≠.serverInbound then
          some s!"直接出口分支 {path.name} 的最后一个节点必须是可控服务器"
        else if (proxyPathStepTargetServer last.toTopologyStep inbounds).isNone then
          some s!"直接出口分支 {path.name} 的出口服务器不存在"
        else none) with
    | some message => .error message
    | none =>
      let signature := directProxyPathSignature path.inboundID steps
      match previous.lookup signature with
      | some other =>
        .error s!"入口 {path.inboundID} 的直接出口分支「{pathLabel other}」与「{pathLabel path}」位于同一位置；请删除或停用其中一条后再同步"
      | none => .ok (previous.insert signature path)

end checks

structure TransportScan where
  enabledByInbound : Table Int (List TopologyPath) := ∅
  transparentSignatureByInbound : Table Int (List TransparentStep) := ∅
  transparentCountByInbound : Table Int Nat := ∅
  directSignatures : Table String TopologyPath := ∅

section scan

variable (reader : ConfigReader) (stepsByPath : Int → List TransportStep)
  (inbounds : Table Int ListenInbound)

section

variable (scan : TransportScan) (path : TopologyPath)

/-- All transparent starts of one inbound are the same. -/
def recordTransparent (steps : List TransportStep) :
    Except String TransportScan :=
  let signature := transparentProxyPathPrefixSignature reader steps
  let previous := (scan.transparentSignatureByInbound.lookup path.inboundID).getD []
  if previous≠[] ∧ previous≠signature then
    .error s!"入口 {path.inboundID} 的启用分支必须复用完全相同的透明转发前缀，并在处理加解密节点或其后分叉"
  else .ok {scan with
    transparentSignatureByInbound :=
      scan.transparentSignatureByInbound.insert path.inboundID signature
    transparentCountByInbound := scan.transparentCountByInbound.insert path.inboundID
      ((scan.transparentCountByInbound.lookup path.inboundID).getD 0+1)}

def checkRooted (root : ListenInbound)
    (steps : List TransportStep) : Except String TransportScan := do
  firstFault (implicitBindingFault inbounds path root) steps
  firstFault (fun _ => targetInboundFault inbounds path) steps
  firstFault (vpnGateFault reader path steps) steps
  firstFault (warpFault path steps) steps
  let directSignatures ← directFault inbounds path scan.directSignatures steps
  let scan := {scan with
    enabledByInbound := Table.push scan.enabledByInbound (path.inboundID,path)
    directSignatures := directSignatures}
  if ← validateProxyPathTransportSemantics path root steps then
    recordTransparent reader scan path steps
  else return scan

def checkPath : Except String TransportScan :=
  let steps := TransportStep.ordered (stepsByPath path.id)
  if !path.enabled then .ok scan
  else if isFamilyBranch path then
    match validateFamilyBranchTransport reader steps with
    | .error message => .error s!"代理路径 {path.name}: {message}"
    | .ok () => .ok scan
  else match inbounds.lookup path.inboundID with
    | none => .ok scan
    | some root => checkRooted reader inbounds scan path root steps

end

def checkPaths : TransportScan → List TopologyPath → Except String TransportScan
  | scan,[] => .ok scan
  | scan,path::rest =>
    match checkPath reader stepsByPath inbounds scan path with
    | .error message => .error message
    | .ok scan => checkPaths scan rest

/-- An inbound with a transparent start has it on all enabled paths. -/
def groupFault (scan : TransportScan) (inboundID : Int) (signature : List TransparentStep) :
    Option String :=
  let paths := (scan.enabledByInbound.lookup inboundID).getD []
  if signature=[] ∨ (scan.transparentCountByInbound.lookup inboundID).getD 0≠paths.length then
    some s!"入口 {inboundID} 使用透明转发时，所有启用分支都必须复用相同前缀，不能在处理加解密节点之前分叉"
  else if 1<paths.length ∧
      ¬(inbounds.lookup inboundID).any (inboundSupportsMultipleUsers reader) then
    some s!"入口 {inboundID} 的协议不支持通过多个用户名复用透明转发前缀"
  else none

/-- The groups are visited in the order the table holds them, which only decides the fault that is
named. -/
def validateProxyPathTransportSet (paths : List TopologyPath) : Except String Unit :=
  match checkPaths reader stepsByPath inbounds {} paths with
  | .error message => .error message
  | .ok scan =>
    match scan.transparentSignatureByInbound.rows.findSome?
      (fun row => groupFault reader inbounds scan row.1 row.2) with
    | some message => .error message
    | none => .ok ()

end scan

theorem TopologyStep.mode_eq_portForward {step : TopologyStep} :
    step.mode=.portForward ↔ step.transportMode=.portForward := by
  unfold mode
  split_ifs with h <;> simp [h]

theorem firstFault_ok (h : firstFault fault steps=.ok ()) (hi : steps[i]?=some step) :
    fault i step=none := by
  unfold firstFault at h
  split at h
  · cases h
  next hnone =>
  rw [findSome?_eq_none_iff] at hnone
  exact hnone (step,i) (mem_zipIdx_iff_getElem?.mpr hi)

section semantics

variable {steps : List TransportStep}

/-- A path that is transparent up to one step, which decrypts. -/
structure DecryptsAt (steps before : List TransportStep) (step : TransportStep)
    (after : List TransportStep) : Prop where
  split : steps=before++step::after
  role : step.processingRole=true
  unbound : step.boundInbound=none
  forward : step.mode=.portForward
  beforeRole : ∀s∈before,s.processingRole=false
  beforeForward : ∀s∈before,s.mode=.portForward
  afterForward : ∀s∈after,s.mode≠.portForward

theorem findProcessing_some
    (h : findProcessing path (some k) (steps.zipIdx n)=.ok found) : found=some k := by
  induction steps generalizing n with
  | nil => exact (Except.ok.inj h).symm
  | cons step rest ih =>
    rw [zipIdx_cons,findProcessing] at h
    split_ifs at h with hrole
    · exact ih h
    · simp at *

theorem findProcessing_none (h : findProcessing path none (steps.zipIdx n)=.ok found) :
    found=none ∨ ∃before step after,steps=before++step::after ∧ found=some (n+before.length) ∧
      step.processingRole=true ∧ step.boundInbound=none ∧ ∀s∈before,s.processingRole=false := by
  induction steps generalizing n with
  | nil => exact .inl (Except.ok.inj h).symm
  | cons step rest ih =>
    rw [zipIdx_cons,findProcessing] at h
    split_ifs at h with hrole _ _ hbound
    · rcases ih h with hnone|⟨before,s,after,rfl,hfound,hs,hb,hbefore⟩
      · exact .inl hnone
      refine .inr ⟨step::before,s,after,rfl,?_,hs,hb,?_⟩
      · rw [hfound,length_cons]
        congr 1
        omega
      intro t ht
      rcases mem_cons.mp ht with rfl|ht
      · simpa using hrole
      · exact hbefore t ht
    · exact .inr ⟨[],step,rest,rfl,findProcessing_some h,by simpa using hrole,
        by simpa using hbound,by simp⟩

theorem validateProxyPathTransportSemantics_ok
    (h : validateProxyPathTransportSemantics path root steps=.ok transparent) :
    if transparent then ∃before step after,DecryptsAt steps before step after
    else ∀s∈steps,s.mode≠.portForward := by
  unfold validateProxyPathTransportSemantics at h
  split at h
  · cases h
  split at h
  · cases h
  · split at h
    · cases h
    next hany =>
    cases h
    simpa using hany
  · next processing hfind =>
    split at h
    · cases h
    split at h
    · cases h
    next hfault =>
      split at h
      · cases h
      cases h
      rcases findProcessing_none hfind with hnone|⟨before,step,after,rfl,hfound,hs,hb,hbefore⟩
      · cases hnone
      cases hfound
      have hstep {i : Nat} {s} (hi : (before++step::after)[i]?=some s) :
          s.mode=.portForward ↔ i≤before.length := by
        have hnone := firstFault_ok hfault hi
        unfold transparentFault at hnone
        rw [Nat.zero_add] at hnone
        split_ifs at hnone with hle htunnel hne hforward
        · exact ⟨fun _ => hle,fun _ => not_not.mp hne⟩
        · exact ⟨fun h => absurd h hforward,fun h => absurd h hle⟩
      refine ⟨before,step,after,rfl,hs,hb,?_,hbefore,fun s hs => ?_,fun s hs => ?_⟩
      · exact (hstep (i := before.length) (by simp)).mpr le_rfl
      · obtain ⟨i,hi⟩ := getElem?_of_mem hs
        have hlt := (List.getElem?_eq_some_iff.mp hi).1
        exact (hstep (by rw [getElem?_append_left hlt,hi])).mpr (by omega)
      · obtain ⟨i,hi⟩ := getElem?_of_mem hs
        have hat : (before++step::after)[before.length+1+i]?=some s := by
          rw [getElem?_append_right (by omega)]
          simpa [Nat.add_assoc,Nat.add_comm 1] using hi
        exact fun hm => absurd ((hstep hat).mp hm) (by omega)

theorem processingServer_none (inbounds) (h : ∀s∈steps,s.mode≠.portForward) :
    processingServer inbounds (steps.map (·.toProxyPathStep))=none := by
  cases steps with
  | nil => rfl
  | cons step rest =>
    have ht : step.transportMode≠.portForward := fun hm =>
      h step mem_cons_self (mode_eq_portForward.mpr hm)
    simp [processingServer,ht]

namespace DecryptsAt

variable {before after : List TransportStep}

theorem takeWhile_eq (h : DecryptsAt steps before step after) :
    steps.takeWhile (·.mode=.portForward)=before++[step] := by
  rw [h.split,takeWhile_append_of_pos (by simpa using h.beforeForward),
    takeWhile_cons_of_pos (by simpa using h.forward)]
  cases hafter : after with
  | nil => rfl
  | cons s rest =>
    rw [takeWhile_cons_of_neg (by simpa using h.afterForward s (by simp [hafter]))]

theorem processingServer_eq (h : DecryptsAt steps before step after) (inbounds) :
    processingServer inbounds (steps.map (·.toProxyPathStep))=step.targetServer := by
  obtain ⟨rfl,hrole,hbound,hforward,hbr,hbf,haf⟩ := h
  have ht := mode_eq_portForward.mp hforward
  have hb : step.inboundID.filter (·≠0)=none := hbound
  induction before with
  | nil =>
    -- the decrypting step names no inbound, so without a server the search runs on and ends
    have hrest := processingServer_none inbounds haf
    have hserver : step.serverID.filter (·≠0)=step.targetServer := rfl
    rw [nil_append,map_cons,processingServer,ht,hrole,hb,hrest,hserver]
    cases step.targetServer <;> rfl
  | cons s before ih =>
    have hs := mode_eq_portForward.mp (hbf s mem_cons_self)
    have hr := hbr s mem_cons_self
    simp only [cons_append,map_cons,processingServer,hs,hr,Bool.not_false]
    exact ih (fun t ht => hbr t (mem_cons_of_mem _ ht))
      (fun t ht => hbf t (mem_cons_of_mem _ ht))

end DecryptsAt

theorem signature_nil (h : validateProxyPathTransportSemantics path root steps=.ok false) :
    transparentProxyPathPrefixSignature reader steps=[] := by
  have hno : ∀s∈steps,s.mode≠.portForward := by
    simpa using validateProxyPathTransportSemantics_ok h
  cases steps with
  | nil => rfl
  | cons step rest =>
    rw [transparentProxyPathPrefixSignature,
      takeWhile_cons_of_neg (by simpa using hno step mem_cons_self)]
    rfl

theorem processingServer_eq (reader)
    (h : validateProxyPathTransportSemantics path root steps=.ok transparent) :
    processingServer inbounds (steps.map (·.toProxyPathStep))=
      ((transparentProxyPathPrefixSignature reader steps).getLast?).bind
        (fun entry => entry.serverID.filter (· ≠ 0)) := by
  have hok := validateProxyPathTransportSemantics_ok h
  cases transparent with
  | false =>
    have hno : ∀s∈steps,s.mode≠.portForward := by simpa using hok
    rw [processingServer_none _ hno,signature_nil h]
    rfl
  | true =>
    obtain ⟨before,step,after,hd⟩ := hok
    rw [hd.processingServer_eq,transparentProxyPathPrefixSignature,hd.takeWhile_eq]
    simp [targetServer]

theorem signature_ne_nil (h : validateProxyPathTransportSemantics path root steps=.ok true) :
    transparentProxyPathPrefixSignature reader steps≠[] := by
  obtain ⟨before,step,after,hd⟩ := validateProxyPathTransportSemantics_ok h
  simp [transparentProxyPathPrefixSignature,hd.takeWhile_eq]

end semantics

section scan

variable {reader : ConfigReader} {stepsByPath : Int → List TransportStep}
  {inbounds : Table Int ListenInbound} {path : TopologyPath} {scan scan' : TransportScan}

def rooted (inbounds : Table Int ListenInbound) (path : TopologyPath) : Bool :=
  path.enabled && !isFamilyBranch path && (inbounds.lookup path.inboundID).isSome

def signatureOf (reader : ConfigReader) (stepsByPath : Int → List TransportStep)
    (path : TopologyPath) : List TransparentStep :=
  transparentProxyPathPrefixSignature reader (TransportStep.ordered (stepsByPath path.id))

structure ScanHolds (reader : ConfigReader) (stepsByPath : Int → List TransportStep)
    (inbounds : Table Int ListenInbound) (done : List TopologyPath) (scan : TransportScan) :
    Prop where
  checked : ∀p∈done,rooted inbounds p → ∃root transparent,
    validateProxyPathTransportSemantics p root (TransportStep.ordered (stepsByPath p.id))=
      .ok transparent
  enabled : ∀i,(scan.enabledByInbound.lookup i).getD []=
    done.filter (fun p => rooted inbounds p && p.inboundID=i)
  signatures : ∀p∈done,rooted inbounds p → signatureOf reader stepsByPath p≠[] →
    scan.transparentSignatureByInbound.lookup p.inboundID=some (signatureOf reader stepsByPath p)
  counts : ∀i,(scan.transparentCountByInbound.lookup i).getD 0=
    (done.filter (fun p => rooted inbounds p && p.inboundID=i)).countP
      (fun p => signatureOf reader stepsByPath p≠[])

inductive ScanMove (reader : ConfigReader) (stepsByPath : Int → List TransportStep)
    (inbounds : Table Int ListenInbound) (path : TopologyPath) (scan scan' : TransportScan) : Prop
  | skipped (h : rooted inbounds path=false) (he : scan'=scan)
  | opened (root : ListenInbound) (h : rooted inbounds path=true)
      (hok : validateProxyPathTransportSemantics path root
        (TransportStep.ordered (stepsByPath path.id))=.ok false)
      (he : scan'.enabledByInbound=scan.enabledByInbound.push (path.inboundID,path))
      (hs : scan'.transparentSignatureByInbound=scan.transparentSignatureByInbound)
      (hc : scan'.transparentCountByInbound=scan.transparentCountByInbound)
  | transparent (root : ListenInbound) (h : rooted inbounds path=true)
      (hok : validateProxyPathTransportSemantics path root
        (TransportStep.ordered (stepsByPath path.id))=.ok true)
      (hprevious : ∀signature,scan.transparentSignatureByInbound.lookup path.inboundID=
        some signature → signature≠[] → signature=signatureOf reader stepsByPath path)
      (he : scan'.enabledByInbound=scan.enabledByInbound.push (path.inboundID,path))
      (hs : scan'.transparentSignatureByInbound=scan.transparentSignatureByInbound.insert
        path.inboundID (signatureOf reader stepsByPath path))
      (hc : scan'.transparentCountByInbound=scan.transparentCountByInbound.insert path.inboundID
        ((scan.transparentCountByInbound.lookup path.inboundID).getD 0+1))

theorem checkPath_move (h : checkPath reader stepsByPath inbounds scan path=.ok scan') :
    ScanMove reader stepsByPath inbounds path scan scan' := by
  simp only [checkPath] at h
  split at h
  · next hdisabled => exact .skipped (by simp_all [rooted]) (Except.ok.inj h).symm
  next henabled =>
  split at h
  · next hfamily =>
    split at h
    · cases h
    · exact .skipped (by simp [rooted,hfamily]) (Except.ok.inj h).symm
  next hfamily =>
  split at h
  · next hroot => exact .skipped (by simp [rooted,hroot]) (Except.ok.inj h).symm
  next root hroot =>
  have hr : rooted inbounds path=true := by simp_all [rooted]
  obtain ⟨-,-,h⟩ := Runs.bind_ok h
  obtain ⟨-,-,h⟩ := Runs.bind_ok h
  obtain ⟨-,-,h⟩ := Runs.bind_ok h
  obtain ⟨-,-,h⟩ := Runs.bind_ok h
  obtain ⟨direct,-,h⟩ := Runs.bind_ok h
  obtain ⟨transparent,hok,h⟩ := Runs.bind_ok h
  cases transparent with
  | false =>
    cases h
    exact .opened root hr hok rfl rfl rfl
  | true =>
    simp only [if_true,recordTransparent] at h
    split_ifs at h with hdiffers
    cases h
    refine .transparent root hr hok (fun signature hl hne => ?_) rfl rfl rfl
    rw [hl] at hdiffers
    by_contra hother
    exact hdiffers ⟨hne,hother⟩

namespace ScanHolds

variable (h : ScanHolds reader stepsByPath inbounds done scan)
include h

theorem enabled_snoc (hr : rooted inbounds path=true)
    (he : scan'.enabledByInbound=scan.enabledByInbound.push (path.inboundID,path)) (i) :
    (scan'.enabledByInbound.lookup i).getD []=
      (done++[path]).filter (fun p => rooted inbounds p && p.inboundID=i) := by
  rw [he,Table.push,lookup_insert_eq]
  split_ifs with hi
  · simp [hi,h.enabled,hr]
  · simp [h.enabled,Ne.symm hi]

theorem checked_snoc
    (hp : rooted inbounds path=true → ∃root transparent,validateProxyPathTransportSemantics path
      root (TransportStep.ordered (stepsByPath path.id))=.ok transparent) :
    ∀p∈done++[path],rooted inbounds p=true → ∃root transparent,
      validateProxyPathTransportSemantics p root (TransportStep.ordered (stepsByPath p.id))=
        .ok transparent := by
  intro p hmem
  rcases mem_append.mp hmem with hmem|hmem
  · exact h.checked p hmem
  · rw [mem_singleton.mp hmem]
    exact hp

theorem step (hm : ScanMove reader stepsByPath inbounds path scan scan') :
    ScanHolds reader stepsByPath inbounds (done++[path]) scan' := by
  rcases hm with ⟨hr,rfl⟩|⟨root,hr,hok,he,hs,hc⟩|⟨root,hr,hok,hprevious,he,hs,hc⟩
  · refine ⟨h.checked_snoc (by simp [hr]),?_,?_,?_⟩
    · simpa [hr] using h.enabled
    · intro p hmem hp
      rcases mem_append.mp hmem with hmem|hmem
      · exact h.signatures p hmem hp
      · rw [mem_singleton.mp hmem,hr] at hp
        cases hp
    · simpa [hr] using h.counts
  · have hempty : signatureOf reader stepsByPath path=[] := signature_nil hok
    refine ⟨h.checked_snoc fun _ => ⟨root,false,hok⟩,h.enabled_snoc hr he,?_,?_⟩
    · intro p hmem hp hne
      rw [hs]
      rcases mem_append.mp hmem with hmem|hmem
      · exact h.signatures p hmem hp hne
      · rw [mem_singleton.mp hmem] at hne
        exact absurd hempty hne
    · intro i
      rw [hc,h.counts,filter_append]
      by_cases hi : path.inboundID=i <;> simp [hempty]
  · have hne : signatureOf reader stepsByPath path≠[] := signature_ne_nil hok
    refine ⟨h.checked_snoc fun _ => ⟨root,true,hok⟩,h.enabled_snoc hr he,?_,?_⟩
    · intro p hmem hp hpne
      rw [hs,lookup_insert_eq]
      rcases mem_append.mp hmem with hmem|hmem
      · split_ifs with hi
        · have hstored := h.signatures p hmem hp hpne
          rw [hi] at hstored
          rw [hprevious _ hstored hpne]
        · exact h.signatures p hmem hp hpne
      · rw [mem_singleton.mp hmem,if_pos rfl]
    · intro i
      rw [hc,lookup_insert_eq,filter_append]
      split_ifs with hi
      · simp [hr,hi,hne,h.counts]
      · simp [h.counts,Ne.symm hi]

theorem run (hrun : checkPaths reader stepsByPath inbounds scan paths=.ok scan') :
    ScanHolds reader stepsByPath inbounds (done++paths) scan' := by
  induction paths generalizing done scan with
  | nil =>
    cases hrun
    simpa using h
  | cons path rest ih =>
    rw [checkPaths] at hrun
    split at hrun
    · cases hrun
    next next hpath =>
    have hstep := ih (h.step (checkPath_move hpath)) hrun
    rwa [append_assoc] at hstep

end ScanHolds

/-- In an accepted set all enabled paths of one inbound have the same transparent start, and each
passed the semantic check. -/
theorem validateProxyPathTransportSet_ok
    (h : validateProxyPathTransportSet reader stepsByPath inbounds paths=.ok ()) :
    (∀p∈paths,rooted inbounds p=true → ∃root transparent,
      validateProxyPathTransportSemantics p root (TransportStep.ordered (stepsByPath p.id))=
        .ok transparent) ∧
    ∀p∈paths,∀q∈paths,rooted inbounds p=true → rooted inbounds q=true →
      p.inboundID=q.inboundID → signatureOf reader stepsByPath p=signatureOf reader stepsByPath q := by
  unfold validateProxyPathTransportSet at h
  split at h
  · cases h
  next scan hscan =>
  split at h
  · cases h
  next hgroups =>
  have hempty : ScanHolds reader stepsByPath inbounds [] {} :=
    ⟨by simp,by simp,by simp,by simp⟩
  have hholds := hempty.run hscan
  have hforced {p q} (hp : p∈paths) (hq : q∈paths) (hrp : rooted inbounds p=true)
      (hrq : rooted inbounds q=true) (hi : p.inboundID=q.inboundID)
      (hne : signatureOf reader stepsByPath p≠[]) :
      signatureOf reader stepsByPath q=signatureOf reader stepsByPath p := by
    have hstored := hholds.signatures p hp hrp hne
    have hfault := findSome?_eq_none_iff.mp hgroups _ (mem_rows.mpr hstored)
    simp only [groupFault,hholds.enabled,hholds.counts] at hfault
    split_ifs at hfault with hbad
    obtain ⟨-,hall⟩ := not_or.mp hbad
    have hcount := countP_eq_length.mp (not_not.mp hall) q
      (mem_filter.mpr ⟨hq,by simp [hrq,hi]⟩)
    have hqstored := hholds.signatures q hq hrq (by simpa using hcount)
    rw [← hi,hstored] at hqstored
    exact (Option.some.inj hqstored).symm
  refine ⟨hholds.checked,fun p hp q hq hrp hrq hi => ?_⟩
  by_cases hne : signatureOf reader stepsByPath p=[]
  · by_cases hne' : signatureOf reader stepsByPath q=[]
    · rw [hne,hne']
    · exact hforced hq hp hrq hrp hi.symm hne'
  · exact (hforced hp hq hrp hrq hi hne).symm

end scan

end Oboard.Core
