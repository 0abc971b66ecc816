import Oboard.Core.TransportSet

namespace Oboard.Core

open List Table

structure InboundUser where
  inboundID : Int
  userID : Int
  enabled : Bool

structure ProxyPathUser where
  proxyPathID : Int
  userID : Int
  enabled : Bool

section accounting

variable (serverID : Int) (paths : List ProxyPath) (steps : List ProxyPathStep)
  (inbounds : List Inbound)

def accountedAt (path : ProxyPath) : Bool :=
  proxyPathAccountingServerID path (steps.filter (fun step => step.pathID=path.id)) inbounds=
    some serverID

def isProxyPathAccountingLocation (inboundID pathID : Int) : Bool :=
  match paths.find? (fun path => path.id=pathID && path.inboundID=inboundID && path.enabled) with
  | none => false
  | some selected => accountedAt serverID steps inbounds selected

def enabledPathsOf (inboundID : Int) : List ProxyPath :=
  paths.filter (fun path => path.enabled && path.inboundID=inboundID)

/-- The entry an enabled inbound writes, none where it has paths and all are accounted elsewhere. -/
def inboundAccounting (inbound : Inbound) : Option (Int×Bool) :=
  if !inbound.enabled then none
  else if enabledPathsOf paths inbound.id=[] then some (inbound.id,inbound.serverID=serverID)
  else if (enabledPathsOf paths inbound.id).any (accountedAt serverID steps inbounds) then
    some (inbound.id,true)
  else none

def accountingByInbound : Table Int Bool :=
  Table.putAll ∅ (inbounds.filterMap (inboundAccounting serverID paths steps inbounds))

def accountingByPath : Table Int Bool :=
  Table.putAll ∅ (paths.map (fun path => (path.id,accountedAt serverID steps inbounds path)))

/-- The users a server bills. With path bindings, an inbound with enabled paths counts through them
alone. -/
def trafficAccountingUsersForServer (bindings : List InboundUser)
    (pathBindings : Option (List ProxyPathUser)) : List Int :=
  let onInbound := fun b : InboundUser => b.enabled &&
    ((accountingByInbound serverID paths steps inbounds).lookup b.inboundID).getD false
  match pathBindings with
  | none => (bindings.filter onInbound).map (fun b => b.userID)
  | some pathBindings =>
    (pathBindings.filter (fun b => b.enabled &&
      ((accountingByPath serverID paths steps inbounds).lookup b.proxyPathID).getD false)).map
        (fun b => b.userID)++
    (bindings.filter (fun b => onInbound b && enabledPathsOf paths b.inboundID=[])).map
      (fun b => b.userID)

end accounting

/-- A stored topology: ids are primary keys. -/
structure TransportTopology where
  inbounds : List ListenInbound
  paths : List TopologyPath
  steps : List TransportStep
  inboundIDs : (inbounds.map (fun inbound => inbound.id)).Nodup
  pathIDs : (paths.map (fun path => path.id)).Nodup

namespace TransportTopology

variable (t : TransportTopology)

def stepsOf (pathID : Int) : List TransportStep := t.steps.filter (fun step => step.pathID=pathID)

def Accepted (reader : ConfigReader) : Prop :=
  validateProxyPathTransportSet reader t.stepsOf (byID (fun i => i.id) t.inbounds) t.paths=.ok ()

def plainInbounds : List Inbound := t.inbounds.map (fun inbound => inbound.toInbound)

def plainPaths : List ProxyPath := t.paths.map (fun path => path.toProxyPath)

def plainSteps : List ProxyPathStep := t.steps.map (fun step => step.toProxyPathStep)

def accountingServer (path : TopologyPath) : Option Int :=
  proxyPathAccountingServerID path.toProxyPath
    (t.plainSteps.filter (fun step => step.pathID=path.id)) t.plainInbounds

def isLocation (serverID : Int) (path : TopologyPath) : Bool :=
  isProxyPathAccountingLocation serverID t.plainPaths t.plainSteps t.plainInbounds path.inboundID
    path.id

def accountingUsers (serverID : Int) (bindings : List InboundUser)
    (pathBindings : List ProxyPathUser) : List Int :=
  trafficAccountingUsersForServer serverID t.plainPaths t.plainSteps t.plainInbounds bindings
    (some pathBindings)

def Rooted (path : TopologyPath) : Prop :=
  ∃root∈t.inbounds,root.id=path.inboundID ∧ root.enabled=true ∧ root.serverID≠0

end TransportTopology

section proofs

variable {t : TransportTopology} {path : TopologyPath} {serverID : Int}

theorem ordered_plain : orderedProxyPathSteps (steps.map (·.toProxyPathStep))=
      (TransportStep.ordered steps).map (·.toProxyPathStep) := by
  rw [orderedProxyPathSteps,TransportStep.ordered]
  exact (map_insertionSort _ _ (fun step : TransportStep => step.toProxyPathStep) steps
    (fun _ _ _ _ => Iff.rfl)).symm

namespace TransportTopology

theorem root_find (h : root∈t.inbounds) (he : root.enabled=true) :
    t.plainInbounds.find? (fun i => i.id=root.id && i.enabled)=some root.toInbound := by
  rw [plainInbounds,find?_map,find_of_key t.inboundIDs h (by simp [he])
    (fun b hb => by simp at hb; exact hb.1)]
  rfl

theorem accountingServer_of_root (he : path.enabled=true) (hm : root∈t.inbounds)
    (hid : root.id=path.inboundID) (hr : root.enabled=true) (hs : root.serverID≠0) :
    t.accountingServer path=some ((processingServer t.plainInbounds
      ((TransportStep.ordered (t.stepsOf path.id)).map (·.toProxyPathStep))).getD
        root.serverID) := by
  have hfind := root_find hm hr
  rw [hid] at hfind
  have hplain : t.plainSteps.filter (·.pathID=path.id)=
      (t.stepsOf path.id).map (·.toProxyPathStep) := by
    rw [plainSteps,stepsOf,filter_map]
    rfl
  rw [accountingServer,proxyPathAccountingServerID,hfind,hplain,ordered_plain]
  simp [he,hs]

theorem accountingServer_of_not_rooted (h : ¬t.Rooted path) : t.accountingServer path=none := by
  rw [accountingServer,proxyPathAccountingServerID]
  split
  · rfl
  next root hfind =>
  rw [if_pos]
  by_contra hserver
  obtain ⟨listen,hm,rfl⟩ := mem_map.mp (mem_of_find?_eq_some hfind)
  have hroot := find?_some hfind
  simp only [Bool.and_eq_true,decide_eq_true_eq] at hroot
  exact h ⟨listen,hm,hroot.1,hroot.2,fun hzero => hserver (.inr hzero)⟩

theorem isLocation_iff (hm : path∈t.paths) (he : path.enabled=true) :
    t.isLocation serverID path=true ↔ t.accountingServer path=some serverID := by
  have hfind : t.plainPaths.find? (fun p => p.id=path.id && p.inboundID=path.inboundID &&
      p.enabled)=some path.toProxyPath := by
    rw [plainPaths,find?_map,find_of_key t.pathIDs hm (by simp [he])
      (fun b hb => by simp at hb; exact hb.1.1)]
    rfl
  rw [isLocation,isProxyPathAccountingLocation,hfind]
  exact decide_eq_true_iff

theorem existsUnique_isLocation (hm : path∈t.paths) (he : path.enabled=true) :
    (∃! serverID,t.isLocation serverID path=true) ↔ t.Rooted path := by
  simp only [isLocation_iff hm he]
  constructor
  · rintro ⟨serverID,hs,-⟩
    by_contra hroot
    have hs : t.accountingServer path=some serverID := hs
    rw [accountingServer_of_not_rooted hroot] at hs
    cases hs
  · rintro ⟨root,hroot,hid,hr,hserver⟩
    rw [accountingServer_of_root he hroot hid hr hserver]
    exact ⟨_,rfl,fun _ h => (Option.some.inj h).symm⟩

theorem accountingServer_eq (h : t.Accepted reader)
    (hp : p∈t.paths) (hq : q∈t.paths) (hpe : p.enabled=true) (hqe : q.enabled=true)
    (hpf : isFamilyBranch p=false) (hqf : isFamilyBranch q=false)
    (hi : p.inboundID=q.inboundID) : t.accountingServer p=t.accountingServer q := by
  by_cases hr : t.Rooted p
  · obtain ⟨root,hroot,hid,hre,hserver⟩ := hr
    have hstored {path : TopologyPath} (he : path.enabled=true) (hf : isFamilyBranch path=false)
        (hid : root.id=path.inboundID) :
        rooted (byID (fun i : ListenInbound => i.id) t.inbounds) path=true := by
      have hsome : (recordOf (fun i : ListenInbound => i.id) t.inbounds path.inboundID).isSome :=
        recordOf_isSome.mpr ⟨root,hroot,hid⟩
      rw [← byID_lookup] at hsome
      simp [rooted,he,hf,hsome]
    have hrp := hstored hpe hpf hid
    have hrq := hstored hqe hqf (hid.trans hi)
    obtain ⟨hchecked,hsame⟩ := validateProxyPathTransportSet_ok h
    obtain ⟨_,_,hokp⟩ := hchecked p hp hrp
    obtain ⟨_,_,hokq⟩ := hchecked q hq hrq
    have hsignature := hsame p hp q hq hrp hrq hi
    unfold signatureOf at hsignature
    rw [accountingServer_of_root hpe hroot hid hre hserver,
      accountingServer_of_root hqe hroot (hid.trans hi) hre hserver,
      processingServer_eq reader hokp,processingServer_eq reader hokq,
      hsignature]
  · have hrq : ¬t.Rooted q := by simpa only [Rooted,← hi] using hr
    rw [accountingServer_of_not_rooted hr,accountingServer_of_not_rooted hrq]

theorem accountingByPath_iff :
    ((accountingByPath serverID t.plainPaths t.plainSteps t.plainInbounds).lookup pathID).getD
      false=true ↔ ∃path∈t.paths,path.id=pathID ∧ t.accountingServer path=some serverID := by
  have hids : (t.plainPaths.map (·.id)).Nodup := by
    simpa [plainPaths,Function.comp_def] using t.pathIDs
  rw [Option.getD_eq_iff,accountingByPath,← filterMap_eq_map,
    lookup_putAll_filterMap hids (by simp)]
  simp only [Bool.false_eq_true,and_false,or_false,Function.comp_apply,Option.some.injEq,
    Prod.mk.injEq,plainPaths,mem_map,exists_exists_and_eq_and]
  simp only [accountedAt,decide_eq_true_eq]
  rfl

theorem accountingByInbound_iff (hnone : enabledPathsOf t.plainPaths inboundID=[]) :
    ((accountingByInbound serverID t.plainPaths t.plainSteps t.plainInbounds).lookup
      inboundID).getD false=true ↔
    ∃inbound∈t.inbounds,inbound.id=inboundID ∧ inbound.enabled=true ∧
      inbound.serverID=serverID := by
  have hids : (t.plainInbounds.map (·.id)).Nodup := by
    simpa [plainInbounds,Function.comp_def] using t.inboundIDs
  rw [Option.getD_eq_iff,accountingByInbound,lookup_putAll_filterMap hids]
  · simp only [Bool.false_eq_true,and_false,or_false]
    constructor
    · rintro ⟨plain,hm,h⟩
      obtain ⟨inbound,hstored,rfl⟩ := mem_map.mp hm
      unfold inboundAccounting at h
      split_ifs at h with he hpaths hany
      · obtain ⟨hid,hs⟩ := Prod.mk.inj (Option.some.inj h)
        exact ⟨inbound,hstored,hid,by simpa using he,by simpa using hs⟩
      have hid := (Prod.mk.inj (Option.some.inj h)).1
      rw [hid] at hpaths
      exact absurd hnone hpaths
    · rintro ⟨inbound,hm,rfl,he,hs⟩
      refine ⟨inbound.toInbound,mem_map.mpr ⟨inbound,hm,rfl⟩,?_⟩
      simp [inboundAccounting,he,hnone,hs]
  · intro inbound row h
    unfold inboundAccounting at h
    split_ifs at h <;> simp [← Option.some.inj h]

theorem mem_accountingUsers : userID∈t.accountingUsers serverID bindings pathBindings ↔
      (∃b∈pathBindings,b.enabled=true ∧ b.userID=userID ∧
        ∃path∈t.paths,path.id=b.proxyPathID ∧ t.accountingServer path=some serverID) ∨
      ∃b∈bindings,b.enabled=true ∧ b.userID=userID ∧ ∃inbound∈t.inbounds,
        inbound.id=b.inboundID ∧ inbound.enabled=true ∧ inbound.serverID=serverID ∧
        ∀path∈t.paths,path.enabled=true → path.inboundID≠inbound.id := by
  have hpaths i : enabledPathsOf t.plainPaths i=[] ↔
      ∀path∈t.paths,path.enabled=true → path.inboundID≠i := by
    simp [enabledPathsOf,plainPaths,filter_eq_nil_iff]
  rw [accountingUsers,trafficAccountingUsersForServer,mem_append]
  simp only [mem_map,mem_filter,Bool.and_eq_true,accountingByPath_iff]
  refine or_congr ⟨?_,?_⟩ ⟨?_,?_⟩
  · rintro ⟨b,⟨hb,he,hpath⟩,hu⟩
    exact ⟨b,hb,he,hu,hpath⟩
  · rintro ⟨b,hb,he,hu,hpath⟩
    exact ⟨b,⟨hb,he,hpath⟩,hu⟩
  · rintro ⟨b,⟨hb,⟨he,hinbound⟩,hnone⟩,hu⟩
    have hnone := of_decide_eq_true hnone
    obtain ⟨inbound,hm,hid,hie,hs⟩ := (accountingByInbound_iff hnone).mp hinbound
    exact ⟨b,hb,he,hu,inbound,hm,hid,hie,hs,(hpaths _).mp (hid ▸ hnone)⟩
  · rintro ⟨b,hb,he,hu,inbound,hm,hid,hie,hs,hnone⟩
    have hnone := (hpaths b.inboundID).mpr (hid ▸ hnone)
    exact ⟨b,⟨hb,⟨he,(accountingByInbound_iff hnone).mpr ⟨inbound,hm,hid,hie,hs⟩⟩,
      decide_eq_true hnone⟩,hu⟩

theorem exists_location_iff :
    (∃path∈t.paths,path.id=pathID ∧ t.accountingServer path=some serverID) ↔
      ∃path∈t.paths,path.id=pathID ∧ path.enabled=true ∧ t.isLocation serverID path=true := by
  constructor
  · rintro ⟨path,hm,hid,hs⟩
    have he : path.enabled=true := by
      by_contra he
      rw [accountingServer,proxyPathAccountingServerID] at hs
      split at hs
      · cases hs
      · simp [he] at hs
    exact ⟨path,hm,hid,he,(isLocation_iff hm he).mpr hs⟩
  · rintro ⟨path,hm,hid,he,hl⟩
    exact ⟨path,hm,hid,(isLocation_iff hm he).mp hl⟩

end TransportTopology

end proofs

open TransportTopology in
/-- In an accepted topology every rooted path has one billing server, and a server bills exactly the
users bound to its paths and to its inbounds without paths. -/
theorem accounting_at_one_place (reader : ConfigReader) (t : TransportTopology)
    (h : t.Accepted reader) :
    (∀p∈t.paths,∀q∈t.paths,p.enabled=true → q.enabled=true → isFamilyBranch p=false →
      isFamilyBranch q=false → p.inboundID=q.inboundID →
      t.accountingServer p=t.accountingServer q) ∧
    (∀p∈t.paths,p.enabled=true → ((∃! serverID,t.isLocation serverID p=true) ↔ t.Rooted p) ∧
      (¬t.Rooted p → ∀serverID,t.isLocation serverID p=false)) ∧
    ∀serverID bindings pathBindings userID,
      userID∈t.accountingUsers serverID bindings pathBindings ↔
        (∃b∈pathBindings,b.enabled=true ∧ b.userID=userID ∧ ∃path∈t.paths,
          path.id=b.proxyPathID ∧ path.enabled=true ∧ t.isLocation serverID path=true) ∨
        ∃b∈bindings,b.enabled=true ∧ b.userID=userID ∧ ∃inbound∈t.inbounds,
          inbound.id=b.inboundID ∧ inbound.enabled=true ∧ inbound.serverID=serverID ∧
          ∀path∈t.paths,path.enabled=true → path.inboundID≠inbound.id := by
  refine ⟨fun p hp q hq hpe hqe hpf hqf hi => accountingServer_eq h hp hq hpe hqe hpf hqf hi,
    fun p hp he => ⟨existsUnique_isLocation hp he,fun hr serverID => ?_⟩,?_⟩
  · by_contra hl
    have hs := (isLocation_iff hp he).mp (Bool.eq_true_of_not_eq_false hl)
    rw [accountingServer_of_not_rooted hr] at hs
    cases hs
  intro serverID bindings pathBindings userID
  rw [mem_accountingUsers]
  simp only [exists_location_iff]

section relay

def plainReader : ConfigReader where
  canonicalJSONObject := fun text => text
  stringValue := fun _ _ => ""
  vpnGatePoolID := fun _ => none
  parsePrefix := .ok
  shadowsocksMethod := fun _ => "2022-blake3-aes-128-gcm"

def relayInbound (id : Int) (enabled : Bool) : ListenInbound where
  id := id
  serverID := 1
  enabled := enabled
  protocol := .vless
  port := 443

def relayPath (id : Int) : TopologyPath where
  id := id
  inboundID := 1
  enabled := true
  kind := .chain

def relayStep (id pathID : Int) : TransportStep where
  id := id
  pathID := pathID
  position := 1
  transportMode := .portForward
  processingRole := true
  serverID := some 2
  inboundID := none

def relayTopology : TransportTopology where
  inbounds := [relayInbound 1 true,relayInbound 2 true]
  paths := [relayPath 7,relayPath 8]
  steps := [relayStep 1 7,relayStep 2 8]
  inboundIDs := by decide
  pathIDs := by decide

theorem relayTopology_bills_downstream : relayTopology.Accepted plainReader ∧
    relayTopology.accountingServer (relayPath 7)=some 2 ∧
    relayTopology.accountingServer (relayPath 7)=relayTopology.accountingServer (relayPath 8) ∧
    (∃! serverID,relayTopology.isLocation serverID (relayPath 7)=true) ∧
    5∈relayTopology.accountingUsers 2 [] [⟨7,5,true⟩] ∧
    6∈relayTopology.accountingUsers 1 [⟨2,6,true⟩] [] := by
  have haccepted : relayTopology.Accepted plainReader := by rfl
  obtain ⟨hsame,hone,husers⟩ := accounting_at_one_place plainReader relayTopology haccepted
  have h7 : relayPath 7∈relayTopology.paths := mem_cons_self
  have h8 : relayPath 8∈relayTopology.paths := mem_cons_of_mem _ mem_cons_self
  refine ⟨haccepted,by decide,hsame _ h7 _ h8 rfl rfl (by decide) (by decide) rfl,
    (hone _ h7 rfl).1.mpr ⟨relayInbound 1 true,mem_cons_self,rfl,rfl,by decide⟩,
    (husers _ _ _ _).mpr (.inl ⟨_,mem_cons_self,rfl,rfl,_,h7,rfl,rfl,by decide⟩),
    (husers _ _ _ _).mpr (.inr ⟨_,mem_cons_self,rfl,rfl,relayInbound 2 true,
      mem_cons_of_mem _ mem_cons_self,rfl,rfl,rfl,by decide⟩)⟩

def stoppedTopology : TransportTopology where
  inbounds := [relayInbound 1 false]
  paths := [relayPath 7]
  steps := []
  inboundIDs := by decide
  pathIDs := by decide

theorem stopped_path_billed_nowhere :
    stoppedTopology.Accepted plainReader ∧ (relayPath 7).enabled=true ∧
    relayPath 7∈stoppedTopology.paths ∧
    ∀serverID,stoppedTopology.isLocation serverID (relayPath 7)=false :=
  ⟨by rfl,rfl,mem_cons_self,fun _ => rfl⟩

end relay

end Oboard.Core
