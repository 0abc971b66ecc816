import Oboard.Core.EffectiveAccess

namespace Oboard.Core

open GoText Ascending List EffectiveAccessSnapshot

inductive TransportMode where
  | unset
  | singBox
  | portForward
  | tunnel
  deriving DecidableEq

structure ProxyPathStep where
  id : Int
  pathID : Int
  position : Int
  transportMode : TransportMode
  processingRole : Bool
  serverID : Option Int
  inboundID : Option Int

structure CredentialScope where
  userID : Int
  inboundID : Int
  pathID : Int
  epoch : Int
  device : String
  protocol : Protocol
  deriving DecidableEq

def proxyScopeKey (c : ProxyCredential) : CredentialScope :=
  ⟨c.userID,c.inboundID,c.pathID,c.credentialEpoch,c.deviceIDHash,c.protocol⟩

def transitionIdentities (user : User) : List User :=
  ((user.proxyCredentials.filter (fun c => c.deviceTransitionAllowed && c.active &&
    c.deviceIDHash≠"" && 0<c.credentialEpoch)).map
      (fun c => (c.deviceIDHash,c.credentialEpoch))).eraseDups.map
        (fun d => {user with deviceIDHash := d.1,credentialEpoch := d.2})

def dataPlaneIdentitiesAt (users : List User) (now : Time) : List User :=
  (users.filter (fun user => user.status=.active)).flatMap (fun user =>
    user::(if user.deviceIDHash≠"" ∨ user.deviceTransitionUntil≤now then []
      else transitionIdentities user))

def consistentDeviceCredentialIdentity (deviceIDHash : String) (credentialEpoch : Int) : Bool :=
  if trimSpace deviceIDHash="" then credentialEpoch=0 else 0<credentialEpoch

/-- The stored credential a user may present on a route. -/
def userCredentialForRouteAt (user : User) (inboundID pathID : Int) (protocol : Protocol)
    (now : Time) : Option ProxyCredential :=
  if user.status≠.active ∨ user.credentialStatus=.revoked ∨ user.credentialStatus=.disabled then none
  else if !consistentDeviceCredentialIdentity user.deviceIDHash user.credentialEpoch ∨
    (user.deviceIDHash≠"" ∧ user.deviceTransitionUntil≤now) then none
  else user.proxyCredentials.find? (fun c =>
    (user.deviceIDHash="" || c.deviceTransitionAllowed) && c.active && c.userID=user.id &&
    c.inboundID=inboundID && c.pathID=pathID && c.protocol=protocol &&
    c.deviceIDHash=user.deviceIDHash && c.credentialEpoch=user.credentialEpoch &&
    c.id≠"" && c.username≠"" && c.password≠"" && c.uuid≠"")

def byPair (a b : Int×Int) : Prop := a.1<b.1 ∨ (a.1=b.1 ∧ a.2≤b.2)

instance : DecidableRel byPair := fun _ _ => inferInstanceAs (Decidable (_ ∨ _))

def viewBindings (view : Table Int (List Int)) : List (Int×Int) :=
  (view.rows.flatMap (fun row => row.2.map (fun user => (row.1,user)))).insertionSort byPair

def EffectiveAccessSnapshot.inboundUserBindings (snap : EffectiveAccessSnapshot) : List (Int×Int) :=
  viewBindings snap.inboundUsers

def EffectiveAccessSnapshot.proxyPathUserBindings (snap : EffectiveAccessSnapshot) :
    List (Int×Int) :=
  viewBindings snap.proxyPathUsers

def usersForInbound (inbound : Inbound) (users : List User) (bindings : List (Int×Int)) :
    List User :=
  users.filter (fun user => user.status=.active && bindings.contains (inbound.id,user.id))

def usersForProxyPath (path : ProxyPath) (users : List User) (pathUsers : List (Int×Int)) :
    List User :=
  users.filter (fun user => pathUsers.contains (path.id,user.id))

def proxyPathsForRootInbound (inboundID : Int) (paths : List ProxyPath) : List ProxyPath :=
  (paths.filter (fun path => path.enabled && path.inboundID=inboundID)).insertionSort
    (fun a b => a.id≤b.id)

def sshDirectBranchPathID (inboundID : Int) : Int := inboundID

/-- The scope of one identity on one route, if it may carry a credential there. -/
def routeScope (now : Time) (user : User) (inbound : Inbound) (pathID : Int) :
    List CredentialScope :=
  if user.id≤0 ∨ user.status≠.active ∨ user.credentialStatus=.revoked ∨
    user.credentialStatus=.disabled then []
  else if !consistentDeviceCredentialIdentity user.deviceIDHash user.credentialEpoch then []
  else if user.deviceIDHash≠"" ∧
    (userCredentialForRouteAt user inbound.id pathID inbound.protocol now).isNone then []
  else [⟨user.id,inbound.id,pathID,user.credentialEpoch,user.deviceIDHash,inbound.protocol⟩]

/-- Everything credential enumeration reads besides the users and the snapshot. -/
structure Topology where
  inbounds : List Inbound
  paths : List ProxyPath
  steps : List ProxyPathStep

def inboundScopes (now : Time) (topology : Topology) (snap : EffectiveAccessSnapshot)
    (identities : List User) (inbound : Inbound) : List CredentialScope :=
  match proxyPathsForRootInbound inbound.id topology.paths with
  | [] =>
    let pathID := if inbound.protocol=.ssh then sshDirectBranchPathID inbound.id else 0
    (usersForInbound inbound identities snap.inboundUserBindings).flatMap
      (fun user => routeScope now user inbound pathID)
  | paths =>
    (paths.filter (fun path => path.kind=.direct ||
      topology.steps.any (fun step => step.pathID=path.id))).flatMap (fun path =>
        (usersForProxyPath path identities snap.proxyPathUserBindings).flatMap
          (fun user => routeScope now user inbound path.id))

/-- Enumerates authorization only, in the order of the inbounds. The clock decides about
device identities. -/
def proxyCredentialScopes (now : Time) (users : List User) (topology : Topology)
    (snap : EffectiveAccessSnapshot) : List CredentialScope :=
  ((topology.inbounds.filter (fun inbound => inbound.enabled && 0 < inbound.id)).flatMap
    (inboundScopes now topology snap (dataPlaneIdentitiesAt users now))).eraseDups

def orderedProxyPathSteps (steps : List ProxyPathStep) : List ProxyPathStep :=
  steps.insertionSort (fun a b => a.position<b.position ∨ (a.position=b.position ∧ a.id≤b.id))

/-- The processing server of a transparent start of a path. -/
def processingServer (inbounds : List Inbound) : List ProxyPathStep → Option Int
  | [] => none
  | step::rest =>
    if step.transportMode≠.portForward then none
    else if !step.processingRole then processingServer inbounds rest
    else
      match step.serverID.filter (fun id => id≠0) with
      | some id => some id
      | none =>
        match (step.inboundID.filter (fun id => id≠0)).bind
          (fun id => inbounds.find? (fun inbound => inbound.id=id)) with
        | some inbound => some inbound.serverID
        | none => processingServer inbounds rest

def proxyPathAccountingServerID (path : ProxyPath) (steps : List ProxyPathStep)
    (inbounds : List Inbound) : Option Int :=
  match inbounds.find? (fun inbound => inbound.id=path.inboundID && inbound.enabled) with
  | none => none
  | some root =>
    if !path.enabled ∨ root.serverID=0 then none
    else some ((processingServer inbounds (orderedProxyPathSteps steps)).getD root.serverID)

def affectedAuthServers (topology : Topology) (node : NodeKey) : List Int :=
  match node.1 with
  | .proxyPath =>
    match topology.paths.find? (fun path => path.id=node.2) with
    | none => []
    | some path =>
      ((proxyPathAccountingServerID path (topology.steps.filter (fun s => s.pathID=path.id))
        topology.inbounds).filter (fun id => id≠0)).toList
  | .inbound => ((byID Inbound.id topology.inbounds).lookup node.2).toList.map Inbound.serverID
  | .externalOutbound => []

section Scopes

variable {now later : Time} {topology : Topology} {snap snap' : EffectiveAccessSnapshot}
  {users : List User}

theorem mem_viewBindings : (i,u)∈viewBindings view ↔ u∈usersIn view i := by
  simp only [viewBindings,mem_insertionSort,mem_flatMap,mem_map,usersIn]
  constructor
  · rintro ⟨⟨j,list⟩,hrow,v,hv,heq⟩
    cases heq
    simpa [Table.mem_rows.mp hrow] using hv
  intro hu
  cases hl : view.lookup i with
  | none => simp [hl] at hu
  | some list => exact ⟨(i,list),Table.mem_rows.mpr hl,u,by simpa [hl] using hu,rfl⟩

def Reaches (topology : Topology) (snap : EffectiveAccessSnapshot) (inbound : Inbound)
    (pathID u : Int) : Prop :=
  inbound∈topology.inbounds ∧ inbound.enabled=true ∧ 0 < inbound.id ∧
  ((proxyPathsForRootInbound inbound.id topology.paths=[] ∧
      pathID=(if inbound.protocol=.ssh then sshDirectBranchPathID inbound.id else 0) ∧
      u∈usersIn snap.inboundUsers inbound.id) ∨
    ∃path∈proxyPathsForRootInbound inbound.id topology.paths,
      (path.kind=.direct ∨ ∃step∈topology.steps,step.pathID=path.id) ∧ pathID=path.id ∧
      u∈usersIn snap.proxyPathUsers path.id)

theorem reaches_congr (hi : ∀i,u∈usersIn snap.inboundUsers i ↔ u∈usersIn snap'.inboundUsers i)
    (hp : ∀p,u∈usersIn snap.proxyPathUsers p ↔ u∈usersIn snap'.proxyPathUsers p) :
    Reaches topology snap inbound pathID u ↔ Reaches topology snap' inbound pathID u := by
  simp only [Reaches,hi,hp]

theorem mem_dataPlaneIdentitiesAt :
    identity∈dataPlaneIdentitiesAt users now ↔ ∃user∈users,user.status=.active ∧
      (identity=user ∨ (user.deviceIDHash="" ∧ now<user.deviceTransitionUntil ∧
        identity∈transitionIdentities user)) := by
  simp only [dataPlaneIdentitiesAt,mem_flatMap,mem_filter,decide_eq_true_eq, mem_cons,and_assoc]
  refine exists_congr (fun user => and_congr_right' (and_congr_right' (or_congr_right ?_)))
  split_ifs with h
  · simp only [not_mem_nil,false_iff]
    rintro ⟨h1,h2,-⟩
    exact h.elim (fun h => h h1) (fun h => absurd h2 (not_lt.mpr h))
  · obtain ⟨h1,h2⟩ := not_or.mp h
    simp [not_not.mp h1,not_le.mp h2]

theorem transitionIdentities_spec (h : identity∈transitionIdentities user) :
    identity.id=user.id ∧ identity.status=user.status ∧ identity.deviceIDHash≠"" ∧
      identity.deviceTransitionUntil=user.deviceTransitionUntil := by
  simp only [transitionIdentities,mem_map,mem_eraseDups,mem_filter] at h
  obtain ⟨-,⟨c,⟨-,hc⟩,rfl⟩,rfl⟩ := h
  simp only [Bool.and_eq_true,decide_eq_true_eq,ne_eq] at hc
  exact ⟨rfl,rfl,hc.1.2,rfl⟩

theorem identity_spec (h : identity∈dataPlaneIdentitiesAt users now) :
    ∃user∈users,identity.id=user.id ∧ user.status=.active ∧ identity.status=.active ∧
      identity.deviceTransitionUntil=user.deviceTransitionUntil := by
  obtain ⟨user,huser,hactive,rfl | ⟨-,-,ht⟩⟩ := mem_dataPlaneIdentitiesAt.mp h
  · exact ⟨_,huser,rfl,hactive,hactive,rfl⟩
  · obtain ⟨h1,h2,-,h4⟩ := transitionIdentities_spec ht
    exact ⟨user,huser,h1,hactive,h2.trans hactive,h4⟩

theorem routeScope_spec (h : k∈routeScope now identity inbound pathID) :
    k.userID=identity.id ∧ k.device=identity.deviceIDHash := by
  unfold routeScope at h
  split_ifs at h <;> simp_all

theorem mem_proxyCredentialScopes : k∈proxyCredentialScopes now users topology snap ↔
      ∃identity∈dataPlaneIdentitiesAt users now,∃inbound pathID,
        Reaches topology snap inbound pathID identity.id ∧
        k∈routeScope now identity inbound pathID := by
  simp only [proxyCredentialScopes,mem_eraseDups,mem_flatMap,mem_filter,
    Bool.and_eq_true,decide_eq_true_eq]
  constructor
  · rintro ⟨inbound,⟨hin,hen,hpos⟩,h⟩
    unfold inboundScopes at h
    split at h
    · rename_i hnone
      obtain ⟨identity,hid,hk⟩ := mem_flatMap.mp h
      simp only [usersForInbound,mem_filter,Bool.and_eq_true,contains_iff_mem,
        inboundUserBindings,mem_viewBindings] at hid
      exact ⟨identity,hid.1,inbound,_,⟨hin,hen,hpos,.inl ⟨hnone,rfl,hid.2.2⟩⟩,hk⟩
    · obtain ⟨path,hpath,h⟩ := mem_flatMap.mp h
      obtain ⟨identity,hid,hk⟩ := mem_flatMap.mp h
      simp only [mem_filter,Bool.or_eq_true,decide_eq_true_eq,any_eq_true] at hpath
      simp only [usersForProxyPath,mem_filter,contains_iff_mem,
        proxyPathUserBindings,mem_viewBindings] at hid
      exact ⟨identity,hid.1,inbound,_, ⟨hin,hen,hpos,.inr ⟨path,hpath.1,hpath.2,rfl,hid.2⟩⟩,hk⟩
  · rintro ⟨identity,hid,inbound,pathID,⟨hin,hen,hpos,h⟩,hk⟩
    obtain ⟨-,-,-,-,hactive,-⟩ := identity_spec hid
    refine ⟨inbound,⟨hin,hen,hpos⟩,?_⟩
    unfold inboundScopes
    rcases h with ⟨hnone,rfl,hu⟩ | ⟨path,hpath,hkind,rfl,hu⟩
    · simp only [hnone]
      refine mem_flatMap.mpr ⟨identity,?_,hk⟩
      simp only [usersForInbound,mem_filter,Bool.and_eq_true,contains_iff_mem,
        inboundUserBindings,mem_viewBindings]
      exact ⟨hid,by simpa using hactive,hu⟩
    · split
      · rename_i hnone
        simp [hnone] at hpath
      refine mem_flatMap.mpr ⟨path,?_,mem_flatMap.mpr ⟨identity,?_,hk⟩⟩
      · simp only [mem_filter,Bool.or_eq_true,decide_eq_true_eq,any_eq_true]
        exact ⟨hpath,hkind⟩
      simp only [usersForProxyPath,mem_filter,contains_iff_mem,
        proxyPathUserBindings,mem_viewBindings]
      exact ⟨hid,hu⟩

theorem routeScope_later (hle : now≤later) :
    k∈routeScope later identity inbound pathID ↔ k∈routeScope now identity inbound pathID ∧
      (k.device≠"" → later < identity.deviceTransitionUntil) := by
  by_cases hdev : identity.deviceIDHash=""
  · have heq : routeScope later identity inbound pathID=routeScope now identity inbound pathID := by
      simp [routeScope,hdev]
    rw [heq]
    refine ⟨fun h => ⟨h,fun hk => absurd ?_ hk⟩,fun h => h.1⟩
    rw [(routeScope_spec h).2,hdev]
  · have hkey t (ht : t < identity.deviceTransitionUntil) :
        userCredentialForRouteAt identity inbound.id pathID inbound.protocol t=
        userCredentialForRouteAt identity inbound.id pathID inbound.protocol now ∨
          identity.deviceTransitionUntil≤now := by
      by_cases hn : identity.deviceTransitionUntil≤now
      · exact .inr hn
      · simp [userCredentialForRouteAt,not_le.mpr ht,hn]
    by_cases hlate : later < identity.deviceTransitionUntil
    · have hnow : ¬identity.deviceTransitionUntil≤now := not_le.mpr (lt_of_le_of_lt hle hlate)
      have heq : routeScope later identity inbound pathID=
          routeScope now identity inbound pathID := by
        rw [routeScope,routeScope,(hkey later hlate).resolve_right hnow]
      rw [heq]
      exact ⟨fun h => ⟨h,fun _ => hlate⟩,fun h => h.1⟩
    · have hnone : routeScope later identity inbound pathID=[] := by
        simp [routeScope,hdev,userCredentialForRouteAt,not_lt.mp hlate]
      rw [hnone]
      refine ⟨fun h => absurd h (not_mem_nil),fun h => absurd (h.2 ?_) hlate⟩
      rw [(routeScope_spec h.1).2]
      exact hdev

theorem proxyCredentialScopes_later (hle : now≤later) :
    k∈proxyCredentialScopes later [user] topology snap ↔
      k∈proxyCredentialScopes now [user] topology snap ∧
        (k.device≠"" → later<user.deviceTransitionUntil) := by
  simp only [mem_proxyCredentialScopes]
  constructor
  · rintro ⟨identity,hid,inbound,pathID,hreach,hk⟩
    obtain ⟨v,hv,-,-,-,huntil⟩ := identity_spec hid
    obtain rfl := mem_singleton.mp hv
    obtain ⟨hk,hdev⟩ := (routeScope_later hle).mp hk
    rw [huntil] at hdev
    refine ⟨⟨identity,?_,inbound,pathID,hreach,hk⟩,hdev⟩
    rw [mem_dataPlaneIdentitiesAt] at hid ⊢
    obtain ⟨w,hw,hactive,h⟩ := hid
    exact ⟨w,hw,hactive,h.imp_right (fun h => ⟨h.1,lt_of_le_of_lt hle h.2.1,h.2.2⟩)⟩
  · rintro ⟨⟨identity,hid,inbound,pathID,hreach,hk⟩,hdev⟩
    obtain ⟨v,hv,-,-,-,huntil⟩ := identity_spec hid
    obtain rfl := mem_singleton.mp hv
    refine ⟨identity,?_,inbound,pathID,hreach,(routeScope_later hle).mpr ⟨hk,huntil ▸ hdev⟩⟩
    rw [mem_dataPlaneIdentitiesAt] at hid ⊢
    obtain ⟨w,hw,hactive,h⟩ := hid
    obtain rfl := mem_singleton.mp hw
    refine ⟨_,hw,hactive,h.imp_right (fun h => ⟨h.1,hdev ?_,h.2.2⟩)⟩
    rw [(routeScope_spec hk).2]
    exact (transitionIdentities_spec h.2.2).2.2.1

end Scopes

end Oboard.Core
