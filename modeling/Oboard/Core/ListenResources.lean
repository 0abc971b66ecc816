import Oboard.Core.AccessSnapshot
import Oboard.Core.PortLedger

namespace Oboard.Core

open GoText Word64 Ascending

/-- An address as the standard parser reads it, an IPv4 address in IPv6 form unmapped. -/
structure NetAddr where
  v4 : Bool
  bits : Nat
  zone : String
  deriving DecidableEq

def NetAddr.isUnspecified (a : NetAddr) : Bool := a.bits=0 && a.zone=""

structure ListenTransport where
  tcp : Bool
  udp : Bool

def ListenTransport.meets (a b : ListenTransport) : Bool := (a.tcp && b.tcp) || (a.udp && b.udp)

def portForwardListenTransport : ForwardProtocol → ListenTransport
  | .tcp => ⟨true,false⟩
  | .udp => ⟨false,true⟩
  | .tcpUdp => ⟨true,true⟩

structure ListenResource where
  serverID : Int
  address : String
  port : Int
  protocol : ListenTransport

def normalizeListenAddress (address : String) : String :=
  if trimSpace address="" then "0.0.0.0" else trimSpace address

section conflicts

variable (parseAddr : String → Option NetAddr)

/-- A wildcard IPv6 address overlaps both families, a wildcard IPv4 address only its own. -/
def addressesOverlap (left right : NetAddr) : Bool :=
  if left.isUnspecified && right.isUnspecified then true
  else if left.isUnspecified then !left.v4 || right.v4
  else if right.isUnspecified then !right.v4 || left.v4
  else left=right

def listenAddressesOverlap (left right : String) : Bool :=
  let left := normalizeListenAddress left
  let right := normalizeListenAddress right
  if left="*" || right="*" then true
  else match parseAddr left,parseAddr right with
    | some leftAddr,some rightAddr => addressesOverlap leftAddr rightAddr
    | _,_ => left=right

def ListenResource.conflicts (r other : ListenResource) : Bool :=
  r.serverID=other.serverID && r.port=other.port && r.protocol.meets other.protocol &&
    listenAddressesOverlap parseAddr r.address other.address

theorem ListenResource.port_eq_of_conflicts {r other : ListenResource}
    (h : r.conflicts parseAddr other) : r.port=other.port := by
  simp only [ListenResource.conflicts,Bool.and_eq_true,decide_eq_true_eq] at h
  exact h.1.1.2

end conflicts

/-- What is read of an inbound's config: the network of Shadowsocks and SOCKS, whether Mieru runs
over UDP, and its further port ranges; no Snell version stands for one that is no integer. -/
structure InboundConfig where
  network : ForwardProtocol := .tcpUdp
  udpTransport : Bool := false
  listenPorts : List (Int×Int) := []
  multiplex : Bool := false
  snellListenerMode : String := "shared_port"
  snellPanelVersion : Option Int := some 4

structure ListenInbound extends Inbound where
  name : String := ""
  listenIP : String := ""
  port : Int
  config : InboundConfig := {}

def transparentForwardProtocol (inbound : ListenInbound) : ForwardProtocol :=
  match inbound.protocol with
  | .hy2 => .udp
  | .shadowsocks => inbound.config.network
  | .socks => inbound.config.network
  | .mieru => if inbound.config.udpTransport then .udp else .tcp
  | _ => .tcp

def validPort (port : Int) : Bool := 1≤port && port≤65535

def mieruMaxPorts : Nat := 64

def mieruPortsFromValue (primary : Int) (ranges : List (Int×Int)) : Except String (List Int) :=
  if primary≠0 ∧ ¬validPort primary then .error s!"invalid port {primary}"
  else match ranges.find? (fun range =>
      !validPort range.1 || !validPort range.2 || range.2<range.1) with
    | some range => .error s!"invalid mieru port range \"{range.1}-{range.2}\""
    | none =>
      let ports := sortUnique ((if primary=0 then [] else [primary])++ ranges.flatMap (fun range =>
          (List.range (range.2-range.1+1).toNat).map (fun k => range.1+(k : Int))))
      if mieruMaxPorts<ports.length then
        .error s!"mieru supports at most {mieruMaxPorts} unique ports"
      else if ports=[] then .error "mieru requires at least one port"
      else .ok ports

section

variable (inbound : ListenInbound)

def mieruInboundPorts : Except String (List Int) :=
  if inbound.protocol≠.mieru then
    if validPort inbound.port then .ok [inbound.port] else .error s!"invalid port {inbound.port}"
  else mieruPortsFromValue inbound.port inbound.config.listenPorts

/-- The resource of an inbound's primary port, all that allocation looks at. -/
def inboundListenResource : ListenResource where
  serverID := inbound.serverID
  address := normalizeListenAddress inbound.listenIP
  port := inbound.port
  protocol := portForwardListenTransport (transparentForwardProtocol inbound)

end

/-- One search for a port: where the listener will be bound, the range and the seed. -/
structure PortSearch where
  serverID : Int
  listenIP : String
  protocol : ForwardProtocol
  seed : Int
  start : Int
  stop : Int

namespace PortSearch

/-- What the search compares with: the primary ports of all inbounds of the server, the disabled
ones included. -/
def reserved (search : PortSearch) (inbounds : List ListenInbound) : List ListenResource :=
  (inbounds.filter (fun inbound => inbound.serverID=search.serverID && 0 < inbound.port)).map
    inboundListenResource

def candidate (search : PortSearch) (port : Int) : ListenResource where
  serverID := search.serverID
  address := normalizeListenAddress search.listenIP
  port := port
  protocol := portForwardListenTransport search.protocol

/-- The ports as Go's 64-bit integers walk through them. The seed is the sum of the caller's two. -/
def ports (search : PortSearch) : List Int :=
  let span := wrap (search.stop-search.start+1)
  let seed := |(wrap search.seed).tmod span|
  (List.range span.toNat).map fun (offset : Nat) =>
    wrap (search.start+(wrap (seed+offset)).tmod span)

variable (parseAddr : String → Option NetAddr)

/-- The first port of the range that conflicts with nothing reserved, zero when there is none. -/
def proxyPathAvailablePortForProtocol (search : PortSearch) (inbounds : List ListenInbound) : Int :=
  (search.ports.find? fun port => (search.reserved inbounds).all fun existing =>
    !(search.candidate port).conflicts parseAddr existing).getD 0

end PortSearch

end Oboard.Core
