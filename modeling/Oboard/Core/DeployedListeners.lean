import Oboard.Core.ProxyTopology

namespace Oboard.Core

open List PortSearch Word64

/-- The transport of a generated listener. The SOCKS item carries no network, and Shadowsocks is
cut to TCP on a server that takes no native UDP. -/
def singBoxInboundListenTransport (noUDP : Bool) (inbound : ListenInbound) : ListenTransport :=
  match inbound.protocol with
  | .hy2 => ⟨false,true⟩
  | .shadowsocks =>
    if noUDP then ⟨true,false⟩ else portForwardListenTransport inbound.config.network
  | .socks => ⟨true,true⟩
  | .mieru => if inbound.config.udpTransport then ⟨false,true⟩ else ⟨true,false⟩
  | _ => ⟨true,false⟩

/-- What validation derives from an enabled inbound: the forward that stands for it under
transparent processing, else its own listener. -/
def deployedListenResources (server : ManagedServer) (noUDP : Bool)
    (forwardIP : Int → Option String) (inbound : ListenInbound) : List ListenResource :=
  let (ports,listenIP,transport) := match forwardIP inbound.id with
    | some listenIP =>
      ([inbound.port],listenIP,portForwardListenTransport (transparentForwardProtocol inbound))
    | none => ((mieruInboundPorts inbound).toOption.getD [],inbound.listenIP,
      singBoxInboundListenTransport noUDP inbound)
  (if inbound.serverID=server.id ∧ inbound.enabled then ports.filter validPort else []).map
    (fun port =>
      ⟨server.id,normalizeListenAddress (effectiveListenIP server listenIP),port,transport⟩)

/-- A listener the planner generated, with the inbound that holds its port in the search. -/
inductive ReservedListener where
  /-- A chain service or a processing hop. It deploys as a core inbound. -/
  | service (inbound : ListenInbound)
  /-- A transparent hop. It deploys as the forward of the next step, in the root's network. -/
  | hop (inbound : ListenInbound) (listenIP : String) (root : ListenInbound)
  /-- A WireGuard port, held by a Hysteria 2 inbound, or a local SSH forward. -/
  | tunnel (inbound : ListenInbound)

namespace ReservedListener

def inbound : ReservedListener → ListenInbound
  | .service inbound | .hop inbound _ _ | .tunnel inbound => inbound

def deployed (server : ManagedServer) (noUDP : Bool) : ReservedListener → List ListenResource
  | .service inbound => deployedListenResources server noUDP (fun _ => none) inbound
  | .hop inbound listenIP root => if inbound.serverID=server.id ∧ validPort inbound.port then
      [⟨server.id,normalizeListenAddress (effectiveListenIP server listenIP),inbound.port,
        portForwardListenTransport (transparentForwardProtocol root)⟩] else []
  | .tunnel inbound => if inbound.serverID=server.id ∧ validPort inbound.port then
      [{inboundListenResource inbound with
        address := if inbound.protocol=.hy2 then "*" else normalizeListenAddress inbound.listenIP}]
    else []

end ReservedListener

variable {parseAddr : String → Option NetAddr} {search : PortSearch} {inbounds : List ListenInbound}
  {port : Int}

namespace PortSearch

/-- A pool of positive 64-bit ports that is small enough to be walked from any offset. -/
structure Walkable (search : PortSearch) : Prop where
  start : 0<search.start ∧ search.start<2^63
  stop : 0<search.stop ∧ search.stop<2^63
  span : search.stop-search.start<2^62

theorem mem_ports (h : search.Walkable) :
    port∈search.ports ↔ search.start≤port ∧ port≤ search.stop := by
  obtain ⟨hstart,hstop,hwide⟩ := h
  have hspan : wrap (search.stop-search.start+1)=search.stop-search.start+1 :=
    wrap_of_fits ⟨by omega,by omega⟩
  simp only [ports,hspan,mem_map]
  generalize hn : search.stop-search.start+1=span
  have hseed (hpos : 0<span) := abs_lt.mpr
    ⟨Int.lt_tmod_of_pos (wrap search.seed) hpos,Int.tmod_lt_of_pos (wrap search.seed) hpos⟩
  have hzero := abs_nonneg ((wrap search.seed).tmod span)
  generalize |(wrap search.seed).tmod span|=seed at hseed hzero ⊢
  -- nothing overflows: the walk stays between the two ends of the pool
  have hwalk (offset : Nat) (ho : offset∈List.range span.toNat) :
      wrap (search.start+(wrap (seed+offset)).tmod span)=search.start+(seed+offset)%span ∧
        0≤(seed+offset)%span ∧ (seed+offset)%span<span := by
    have ho := List.mem_range.mp ho
    have hlt := hseed (by omega)
    have hlo := Int.emod_nonneg (seed+offset) (show span≠0 by omega)
    have hhi := Int.emod_lt_of_pos (seed+offset) (show 0<span by omega)
    have hsum : wrap (seed+offset)=seed+offset := wrap_of_fits ⟨by omega,by omega⟩
    rw [hsum,Int.tmod_eq_emod_of_nonneg (by omega)]
    exact ⟨wrap_of_fits ⟨by omega,by omega⟩,hlo,hhi⟩
  constructor
  · rintro ⟨offset,ho,rfl⟩
    have h := hwalk offset ho
    omega
  · rintro ⟨hlo,hhi⟩
    have hpos : 0<span := by omega
    have ho := Int.emod_nonneg (port-search.start-seed) hpos.ne'
    have ho' := Int.emod_lt_of_pos (port-search.start-seed) hpos
    have hmem : ((port-search.start-seed)%span).toNat∈List.range span.toNat :=
      List.mem_range.mpr (by omega)
    refine ⟨_,hmem,(hwalk _ hmem).1.trans ?_⟩
    rw [Int.toNat_of_nonneg ho,Int.add_emod_emod,
      show seed+(port-search.start-seed)=port-search.start by omega,
      Int.emod_eq_of_lt (by omega) (by omega)]
    omega

theorem head_ports (h : search.Walkable) (hlo : search.start≤port) (hhi : port≤ search.stop) :
    ∃rest,ports {search with seed := port-search.start}=port::rest := by
  obtain ⟨hstart,hstop,hwide⟩ := h
  have hspan : wrap (search.stop-search.start+1)=search.stop-search.start+1 :=
    wrap_of_fits ⟨by omega,by omega⟩
  have hseed : |(wrap (port-search.start)).tmod (search.stop-search.start+1)|=port-search.start := by
    rw [wrap_of_fits ⟨by omega,by omega⟩,Int.tmod_eq_of_lt (by omega) (by omega),
      abs_of_nonneg (by omega)]
  have hfirst : wrap (search.start+(wrap (port-search.start)).tmod
      (search.stop-search.start+1))=port := by
    rw [wrap_of_fits (n := port-search.start) ⟨by omega,by omega⟩,
      Int.tmod_eq_of_lt (by omega) (by omega),wrap_of_fits ⟨by omega,by omega⟩]
    omega
  have hsucc : (search.stop-search.start+1).toNat=(search.stop-search.start).toNat+1 := by omega
  simp [ports,hspan,hsucc,range_succ_eq_map,hseed,hfirst]

/-- What the search answers: nothing of the pool is free, or a port of it that is. -/
theorem search_cases (parseAddr : String → Option NetAddr) (inbounds : List ListenInbound)
    (h : search.Walkable) :
    let found := search.proxyPathAvailablePortForProtocol parseAddr inbounds
    (found=0 ∧ ∀port,search.start≤port → port≤ search.stop →
      ∃existing∈search.reserved inbounds,(search.candidate port).conflicts parseAddr existing) ∨
    (found≠0 ∧ search.start≤found ∧ found≤ search.stop ∧
      ∀existing∈search.reserved inbounds,¬(search.candidate found).conflicts parseAddr existing) := by
  unfold proxyPathAvailablePortForProtocol
  cases hfind : search.ports.find? _ with
  | none =>
    simp only [find?_eq_none,mem_ports h] at hfind
    exact .inl ⟨rfl,by simpa using hfind⟩
  | some port =>
    obtain ⟨hlo,hhi⟩ := (mem_ports h).mp (mem_of_find?_eq_some hfind)
    have hfree := find?_some hfind
    simp only [all_eq_true,Bool.not_eq_true'] at hfree
    have hne : port≠0 := (h.start.1.trans_le hlo).ne'
    exact .inr ⟨hne,hlo,hhi,by simpa using hfree⟩

/-- With the right seed a free port of the pool is the first one tried. -/
theorem found_by_seed (h : search.Walkable) (hlo : search.start≤port) (hhi : port≤ search.stop)
    (hfree : ∀existing∈search.reserved inbounds,
      ¬(search.candidate port).conflicts parseAddr existing) :
    proxyPathAvailablePortForProtocol parseAddr {search with seed := port-search.start} inbounds=
      port := by
  obtain ⟨rest,hports⟩ := head_ports h hlo hhi
  rw [proxyPathAvailablePortForProtocol,hports,find?_cons_of_pos,Option.getD_some]
  refine all_eq_true.mpr (fun existing he => ?_)
  rw [Bool.not_eq_true']
  exact Bool.eq_false_of_not_eq_true (hfree existing he)

end PortSearch

/-- In a pool of positive ports that can be walked the search is complete, whatever the seed. -/
theorem port_search_complete (parseAddr : String → Option NetAddr) (search : PortSearch)
    (inbounds : List ListenInbound) (hpool : search.Walkable) :
    (search.proxyPathAvailablePortForProtocol parseAddr inbounds=0 ↔
      ∀port,search.start≤port → port≤ search.stop → ∃existing∈search.reserved inbounds,
        (search.candidate port).conflicts parseAddr existing) ∧
    (search.proxyPathAvailablePortForProtocol parseAddr inbounds≠0 →
      search.start≤ search.proxyPathAvailablePortForProtocol parseAddr inbounds ∧
      search.proxyPathAvailablePortForProtocol parseAddr inbounds≤ search.stop ∧
      ∀existing∈search.reserved inbounds,¬(search.candidate
        (search.proxyPathAvailablePortForProtocol parseAddr inbounds)).conflicts parseAddr
          existing) := by
  rcases search_cases parseAddr inbounds hpool with ⟨hz,hall⟩ | ⟨hne,hlo,hhi,hfree⟩
  · exact ⟨⟨fun _ => hall,fun _ => hz⟩,fun h => absurd hz h⟩
  · refine ⟨⟨fun h => absurd h hne,fun h => ?_⟩,fun _ => ⟨hlo,hhi,hfree⟩⟩
    obtain ⟨existing,he,hc⟩ := h _ hlo hhi
    exact absurd hc (hfree existing he)

/-- Port 0 is free, and it is the answer for an exhausted pool. -/
theorem pool_of_port_zero : let search : PortSearch := ⟨1,"0.0.0.0",.tcp,0,0,0⟩
    search.proxyPathAvailablePortForProtocol (fun _ => none) []=0 ∧ search.reserved []=[] := by
  decide

/-- Two of three ports are reserved, and the seed overflows. -/
theorem some_ports_reserved :
    let inbounds : List ListenInbound := [⟨⟨1,1,true,.vless⟩,"","",20000,{}⟩,
      ⟨⟨2,1,false,.vless⟩,"","",20001,{}⟩]
    let search : PortSearch := ⟨1,"*",.tcp,2^64-5,20000,20002⟩
    search.Walkable ∧ search.proxyPathAvailablePortForProtocol (fun _ => none) inbounds=20002 := by
  intro inbounds search
  have hpool : search.Walkable := ⟨by decide,by decide,by decide⟩
  obtain ⟨hzero,hfound⟩ := port_search_complete (fun _ => none) search inbounds hpool
  have hne : search.proxyPathAvailablePortForProtocol (fun _ => none) inbounds≠0 := fun h => by
    have := hzero.mp h 20002 (by decide) (by decide)
    revert this
    decide
  obtain ⟨hlo,hhi,hfree⟩ := hfound hne
  refine ⟨hpool,?_⟩
  generalize search.proxyPathAvailablePortForProtocol (fun _ => none) inbounds=port at hlo hhi hfree
  change 20000≤port at hlo
  change port≤20002 at hhi
  obtain rfl | rfl | rfl : port=20000 ∨ port=20001 ∨ port=20002 := by omega
  · exact absurd hfree (by decide)
  · exact absurd hfree (by decide)
  · rfl

end Oboard.Core
