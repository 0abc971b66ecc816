import Oboard.Core.AccessProjection
import Oboard.Core.AccountingLocation

namespace Oboard.Core

open Ascending List Table

def AccessProjection.usersOf (p : AccessProjection) (node : NodeKey) : List Int :=
  match node.1 with
  | .inbound => usersIn p.inboundUsers node.2
  | .proxyPath => usersIn p.proxyPathUsers node.2
  | .externalOutbound => []

def nodeKeysFromAccessProjection (p : AccessProjection) : List NodeKey :=
  let occupied (view : Table Int (List Int)) :=
    (view.rows.filter (fun row => 0<row.1 && row.2≠[])).map Prod.fst
  (occupied p.inboundUsers).map (.inbound,·)++(occupied p.proxyPathUsers).map (.proxyPath,·)

/-- The users of the right list are taken from the left one by one, so repetitions count. -/
def sameInt64Set (left right : List Int) : Bool :=
  left.length=right.length && right.isPerm left

def accessProjectionMembershipDiffKeys (before after : AccessProjection) : List NodeKey :=
  (nodeKeysFromAccessProjection before++nodeKeysFromAccessProjection after).filter
    (fun key => !sameInt64Set (before.usersOf key) (after.usersOf key))

namespace TransportTopology

variable (t : TransportTopology)

def authServer (key : NodeKey) : Option Int :=
  match key.1 with
  | .proxyPath => do
    let path ← t.paths.find? (fun path => path.id=key.2)
    (t.accountingServer path).filter (·≠0)
  | .inbound => (t.inbounds.find? (fun inbound => inbound.id=key.2)).map (fun inbound => inbound.serverID)
  | .externalOutbound => none

def affectedAuthServers (keys : List NodeKey) (serverOnline : Int → Bool) : List Int×Nat×List Int :=
  let servers := keys.filterMap t.authServer
  let paths := keys.dedup.filter (fun key => key.1=.proxyPath && (t.authServer key).isSome)
  (sortUnique servers,paths.length,sortUnique (servers.filter (!serverOnline ·)))

def affectedServersFromAccessProjections (before after : AccessProjection)
    (serverOnline : Int → Bool) : List Int :=
  let keys := accessProjectionMembershipDiffKeys before after
  if keys=[] then [] else (t.affectedAuthServers keys serverOnline).1

/-- The users a server bills under the bindings of a projection. -/
def projectedUsers (serverID : Int) (p : AccessProjection) : List Int :=
  t.accountingUsers serverID ((viewBindings p.inboundUsers).map (fun b => ⟨b.1,b.2,true⟩))
    ((viewBindings p.proxyPathUsers).map (fun b => ⟨b.1,b.2,true⟩))

end TransportTopology

/-- A topology whose rows the database has numbered. -/
structure StoredTopology extends TransportTopology where
  pathsNumbered : ∀path∈paths,0<path.id
  inboundsNumbered : ∀inbound∈inbounds,0< inbound.id

theorem sameInt64Set_iff : sameInt64Set left right=true ↔ left.Perm right := by
  rw [sameInt64Set,Bool.and_eq_true,decide_eq_true_eq,isPerm_iff]
  exact ⟨fun h => h.2.symm,fun h => ⟨h.length_eq,h.symm⟩⟩

theorem mem_nodeKeys {p : AccessProjection} {key : NodeKey} :
    key∈nodeKeysFromAccessProjection p ↔ 0<key.2 ∧ p.usersOf key≠[] := by
  obtain ⟨type,k⟩ := key
  have hmem view : (∃users,(view.lookup k=some users ∧ 0<k ∧ users≠[])) ↔
      0<k ∧ usersIn view k≠[] := by
    cases h : view.lookup k <;> simp [usersIn,h]
  cases type <;> simp [nodeKeysFromAccessProjection,AccessProjection.usersOf,mem_rows,← hmem]

theorem mem_diffKeys {before after : AccessProjection} {key : NodeKey} :
    key∈accessProjectionMembershipDiffKeys before after ↔
      0<key.2 ∧ ¬(before.usersOf key).Perm (after.usersOf key) := by
  rw [accessProjectionMembershipDiffKeys,mem_filter,mem_append,mem_nodeKeys,mem_nodeKeys,
    Bool.not_eq_true',← Bool.not_eq_true,sameInt64Set_iff,← and_or_left,and_assoc]
  refine and_congr_right fun _ => and_iff_right_of_imp fun hne => ?_
  by_contra hnil
  rw [not_or,not_not,not_not] at hnil
  exact hne (by rw [hnil.1,hnil.2])

namespace TransportTopology

variable {t : TransportTopology} {before after : AccessProjection}

theorem mem_affected {serverOnline : Int → Bool} :
    serverID∈t.affectedServersFromAccessProjections before after serverOnline ↔
      ∃key,t.authServer key=some serverID ∧ 0<key.2 ∧
        ¬(before.usersOf key).Perm (after.usersOf key) := by
  simp only [and_comm (a := t.authServer _=_),← mem_diffKeys]
  rw [affectedServersFromAccessProjections]
  split_ifs with hnil
  · simp [hnil]
  · rw [affectedAuthServers,mem_sortUnique,mem_filterMap]

theorem authServer_iff : t.authServer key=some serverID ↔
    (∃path∈t.paths,key=(.proxyPath,path.id) ∧ t.accountingServer path=some serverID ∧ serverID≠0) ∨
    ∃inbound∈t.inbounds,key=(.inbound,inbound.id) ∧ inbound.serverID=serverID := by
  obtain ⟨type,k⟩ := key
  constructor
  · intro h
    cases type with
    | proxyPath =>
      obtain ⟨path,hfind,hs⟩ := Option.bind_eq_some_iff.mp h
      have hid := find?_some hfind
      obtain rfl := of_decide_eq_true hid
      obtain ⟨hs,hzero⟩ := Option.filter_eq_some_iff.mp hs
      exact .inl ⟨path,mem_of_find?_eq_some hfind,rfl,hs,of_decide_eq_true hzero⟩
    | inbound =>
      obtain ⟨inbound,hfind,hs⟩ := Option.map_eq_some_iff.mp h
      have hid := find?_some hfind
      obtain rfl := of_decide_eq_true hid
      exact .inr ⟨inbound,mem_of_find?_eq_some hfind,rfl,hs⟩
    | externalOutbound => cases h
  · rintro (⟨path,hm,⟨⟩,hs,hzero⟩ | ⟨inbound,hm,⟨⟩,rfl⟩)
    · have hfind := find_of_key t.pathIDs hm (by simp) (fun b hb => of_decide_eq_true hb)
      simp [authServer,hfind,hs,hzero]
    · have hfind := find_of_key t.inboundIDs hm (by simp) (fun b hb => of_decide_eq_true hb)
      simp [authServer,hfind]

theorem mem_projectedUsers : u∈t.projectedUsers serverID p ↔
    (∃path∈t.paths,t.accountingServer path=some serverID ∧ u∈usersIn p.proxyPathUsers path.id) ∨
    ∃inbound∈t.inbounds,inbound.serverID=serverID ∧ (inbound.enabled=true ∧
      ∀path∈t.paths,path.enabled=true → path.inboundID≠inbound.id) ∧
      u∈usersIn p.inboundUsers inbound.id := by
  rw [projectedUsers,mem_accountingUsers]
  simp only [mem_map]
  constructor
  · rintro (⟨-,⟨⟨i,v⟩,hb,rfl⟩,-,rfl,path,hm,rfl,hs⟩ |
      ⟨-,⟨⟨i,v⟩,hb,rfl⟩,-,rfl,inbound,hm,rfl,he,hs,hno⟩)
    · exact .inl ⟨path,hm,hs,mem_viewBindings.mp hb⟩
    · exact .inr ⟨inbound,hm,hs,⟨he,hno⟩,mem_viewBindings.mp hb⟩
  rintro (⟨path,hm,hs,hu⟩ | ⟨inbound,hm,hs,⟨he,hno⟩,hu⟩)
  · exact .inl ⟨_,⟨_,mem_viewBindings.mpr hu,rfl⟩,rfl,rfl,path,hm,rfl,hs⟩
  · exact .inr ⟨_,⟨_,mem_viewBindings.mpr hu,rfl⟩,rfl,rfl,inbound,hm,rfl,he,hs,hno⟩

end TransportTopology

open TransportTopology in
theorem unaffected_servers_keep_users (t : StoredTopology) (before after : AccessProjection)
    (serverOnline : Int → Bool) :
    (∀serverID≠0,serverID∉t.affectedServersFromAccessProjections before after serverOnline →
      ∀u,u∈t.projectedUsers serverID before ↔ u∈t.projectedUsers serverID after) ∧
    ∀serverID∈t.affectedServersFromAccessProjections before after serverOnline,
      (∃path∈t.paths,t.accountingServer path=some serverID ∧
        ¬(usersIn before.proxyPathUsers path.id).Perm (usersIn after.proxyPathUsers path.id)) ∨
      ∃inbound∈t.inbounds,inbound.serverID=serverID ∧
        ¬(usersIn before.inboundUsers inbound.id).Perm (usersIn after.inboundUsers inbound.id) := by
  simp only [mem_affected,authServer_iff]
  constructor
  · intro serverID hzero hnot u
    have hsame key (hkey : t.authServer key=some serverID) (hpos : 0<key.2) :
        u∈before.usersOf key ↔ u∈after.usersOf key :=
      Perm.mem_iff (of_not_not fun hne => hnot ⟨key,authServer_iff.mp hkey,hpos,hne⟩)
    rw [mem_projectedUsers,mem_projectedUsers]
    refine or_congr ?_ ?_
    · refine exists_congr fun path => and_congr_right fun hm => and_congr_right fun hs => ?_
      exact hsame _ (authServer_iff.mpr (.inl ⟨path,hm,rfl,hs,hzero⟩)) (t.pathsNumbered path hm)
    refine exists_congr fun inbound => and_congr_right fun hm => and_congr_right fun hs => ?_
    exact and_congr_right fun _ => hsame _ (authServer_iff.mpr (.inr ⟨inbound,hm,rfl,hs⟩))
      (t.inboundsNumbered inbound hm)
  · rintro serverID ⟨key,⟨path,hm,rfl,hs,-⟩ | ⟨inbound,hm,rfl,hs⟩,-,hne⟩
    · exact .inl ⟨path,hm,hs,hne⟩
    · exact .inr ⟨inbound,hm,hs,hne⟩

def numberedRelay : StoredTopology where
  toTransportTopology := relayTopology
  pathsNumbered := by decide
  inboundsNumbered := by decide

def onPlainInbound (users : List Int) : AccessProjection := ⟨AList.insert 2 users ∅,∅,∅,∅⟩

theorem other_server_keeps_users :
    1∈numberedRelay.affectedServersFromAccessProjections (onPlainInbound [6]) (onPlainInbound [])
      (fun _ => true) ∧
    ∀u,u∈numberedRelay.projectedUsers 2 (onPlainInbound [6]) ↔
      u∈numberedRelay.projectedUsers 2 (onPlainInbound []) :=
  ⟨by decide +kernel,(unaffected_servers_keep_users _ _ _ (fun _ => true)).1 2 (by decide)
    (by decide +kernel)⟩

/-- A user that is listed twice before and once after. -/
theorem repeated_user_affects_server :
    1∈numberedRelay.affectedServersFromAccessProjections (onPlainInbound [6,6]) (onPlainInbound [6])
      (fun _ => true) ∧
    ∀key u,u∈(onPlainInbound [6,6]).usersOf key ↔ u∈(onPlainInbound [6]).usersOf key := by
  refine ⟨by decide +kernel,fun ⟨type,k⟩ u => ?_⟩
  cases type with
  | inbound =>
    simp only [AccessProjection.usersOf,usersIn,onPlainInbound,lookup_insert_eq]
    split_ifs <;> simp
  | _ => rfl

end Oboard.Core
