import Oboard.Core.AccessSnapshot
import Mathlib.Data.List.Find

namespace Oboard.Core

open GoText Ascending List Table AccessIndex Option

def recordOf {ρ : Type} (id : ρ → Int) (records : List ρ) (k : Int) : Option ρ :=
  records.reverse.find? (fun r => id r=k)

theorem byID_lookup (id : ρ → Int) (records : List ρ) (k) :
    (byID id records).lookup k=recordOf id records k := by
  rw [byID,lookup_putAll_map id (fun r => r)]
  simp [recordOf]

variable {id : ρ → Int}

theorem recordOf_mem (h : recordOf id records k=some r) : r∈records ∧ id r=k :=
  ⟨mem_reverse.mp (mem_of_find?_eq_some h),by simpa using find?_some h⟩

theorem recordOf_isSome : (recordOf id records k).isSome ↔ ∃r∈records,id r=k := by
  simp [recordOf,find?_isSome]

theorem find_last_perm {l m : List ρ} (hp : l.Perm m)
    (hu : ∀a∈l,∀b∈l,p a=true → p b=true → a=b) : l.reverse.find? p=m.reverse.find? p :=
  find_perm ((reverse_perm l).trans (hp.trans (reverse_perm m).symm))
    (by simpa only [mem_reverse] using hu)

theorem recordOf_perm (hp : l.Perm m)
    (hn : (l.map id).Nodup) (k) : recordOf id l k=recordOf id m k := by
  refine find_last_perm hp (fun a ha b hb h1 h2 => inj_on_of_nodup_map hn ha hb ?_)
  rw [of_decide_eq_true h1,of_decide_eq_true h2]

section Grants

variable (ix : AccessIndex) (userID : Int) (n : NodeKey)

theorem foldl_denyStep (exs : List UserNodeException)
    (s : List NodeKey×Table NodeKey EffectiveNodeGrant) :
    (n∈(exs.foldl denyStep s).1 ↔ n∈s.1 ∨ ∃ex∈exs,ex.effect=.deny ∧ ex.node=n) ∧
    (exs.foldl denyStep s).2.lookup n=
      if ∃ex∈exs,ex.effect=.deny ∧ ex.node=n then none else s.2.lookup n := by
  induction exs generalizing s with
  | nil => simp
  | cons ex exs ih =>
    obtain ⟨hmem,hlook⟩ := ih (denyStep s ex)
    rw [foldl_cons,hmem,hlook]
    by_cases hd : ex.effect=.deny
    · have hs : denyStep s ex=(ex.node::s.1,s.2.erase ex.node) := if_pos hd
      rw [hs]
      constructor
      · simp only [mem_cons,exists_eq_or_imp,hd,true_and]
        tauto
      simp only [mem_cons,exists_eq_or_imp,hd,true_and]
      by_cases hn : ex.node=n
      · simp [hn]
      · simp [hn,AList.lookup_erase_ne (Ne.symm hn)]
    · have hs : denyStep s ex=s := if_neg hd
      rw [hs]
      simp [hd]

def allowOf (exs : List UserNodeException) (n : NodeKey) : Option UserNodeException :=
  exs.reverse.find? (fun ex => ex.effect=.allow && ex.node=n)

theorem allowOf_isSome : (allowOf exs n).isSome ↔ ∃ex∈exs,ex.effect=.allow ∧ ex.node=n := by
  simp [allowOf,find?_isSome]

theorem find_allowed (exs : List UserNodeException) (denied : List NodeKey) :
    (exs.filter (fun ex => ex.effect=.allow && !denied.contains ex.node)).reverse.find?
      (·.node=n)=if n∈denied then none else allowOf exs n := by
  rw [← filter_reverse,find?_filter]
  by_cases hn : n∈denied
  · rw [if_pos hn,find?_eq_none]
    rintro ex - hex
    simp only [Bool.and_eq_true,Bool.not_eq_true',decide_eq_true_eq] at hex
    obtain ⟨⟨-,hno⟩,rfl⟩ := hex
    simp [hn] at hno
  · rw [if_neg hn,allowOf]
    refine find?_congr (fun ex _ => ?_)
    by_cases he : ex.node=n
    · simp [he,hn]
    · simp [he]

theorem grantsOf_lookup : (ix.grantsOf userID).lookup n=
      if ∃ex∈ix.exceptionsOf userID,ex.effect=.deny ∧ ex.node=n then none
      else ((allowOf (ix.exceptionsOf userID) n).map exceptionGrant).or
        ((ix.planGrants userID).lookup n) := by
  obtain ⟨hmem,hlook⟩ := foldl_denyStep n (ix.exceptionsOf userID) ([],ix.planGrants userID)
  have hden : n∈((ix.exceptionsOf userID).foldl denyStep ([],ix.planGrants userID)).1 ↔
      ∃ex∈ix.exceptionsOf userID,ex.effect=.deny ∧ ex.node=n := by
    simpa using hmem
  unfold grantsOf
  simp only
  rw [lookup_putAll_map UserNodeException.node,hlook,find_allowed]
  by_cases hd : ∃ex∈ix.exceptionsOf userID,ex.effect=.deny ∧ ex.node=n
  · rw [if_pos hd,if_pos hd,if_pos (hden.mpr hd)]
    rfl
  · rw [if_neg hd,if_neg hd,if_neg (hd ∘ hden.mp)]

theorem planGrants_lookup : (ix.planGrants userID).lookup n=(ix.planOf userID).bind (fun plan =>
      ((ix.planNodes.filter (·.planID=plan.id)).reverse.find?
        (·.node=n)).map (planGrant plan)) := by
  unfold planGrants
  cases ix.planOf userID with
  | none => simp
  | some plan =>
    rw [lookup_putAll_map SubscriptionPlanNode.node]
    simp

theorem grantsOf_node (h : (ix.grantsOf userID).lookup n=some g) : (g.nodeType,g.nodeID)=n := by
  rw [grantsOf_lookup] at h
  split_ifs at h
  rcases or_eq_some_iff.mp h with h | ⟨-,h⟩
  · obtain ⟨ex,hex,rfl⟩ := map_eq_some_iff.mp h
    have := find?_some hex
    simp only [Bool.and_eq_true,decide_eq_true_eq] at this
    exact this.2
  rw [planGrants_lookup] at h
  obtain ⟨plan,-,h⟩ := bind_eq_some_iff.mp h
  obtain ⟨pn,hpn,rfl⟩ := map_eq_some_iff.mp h
  have hnode : pn.node=n := by simpa using find?_some hpn
  exact hnode

end Grants

section Views

variable {ix : AccessIndex} {order : IterationOrder} {κ : Type} [DecidableEq κ]

def usersIn (view : Table κ (List Int)) (k : κ) : List Int := (view.lookup k).getD []

def nodeRows (userID : Int) (entry : NodeKey×EffectiveNodeGrant) : List (NodeKey×Int) :=
  [(entry.1,userID)]

/-- The enabled inbound a granted path enters at. -/
def AccessIndex.pathEntry (ix : AccessIndex) (pathID : Int) : Option Int :=
  ((ix.pathByID.lookup pathID).map ProxyPath.inboundID).filter ix.inboundEnabled

section

variable (ix : AccessIndex) (userID : Int) (entry : NodeKey×EffectiveNodeGrant)

def pathRows : List (Int×Int) :=
  if entry.2.nodeType=.proxyPath ∧ (ix.pathEntry entry.2.nodeID).isSome
  then [(entry.2.nodeID,userID)] else []

def inboundRows : List (Int×Int) :=
  match entry.2.nodeType with
  | .proxyPath => (ix.pathEntry entry.2.nodeID).toList.map (fun i => (i,userID))
  | .inbound => if ix.inboundEnabled entry.2.nodeID then [(entry.2.nodeID,userID)] else []
  | .externalOutbound => []

end

def externalRows (userID : Int) (entry : NodeKey×EffectiveNodeGrant) : List (Int×Int) :=
  if entry.2.nodeType=.externalOutbound then [(entry.2.nodeID,userID)] else []

theorem projectGrant_spec : ix.projectGrant userID snap entry={snap with
      nodeUsers := (nodeRows userID entry).foldl push snap.nodeUsers
      proxyPathUsers := (pathRows ix userID entry).foldl push snap.proxyPathUsers
      inboundUsers := (inboundRows ix userID entry).foldl push snap.inboundUsers
      externalOutboundUsers :=
        (externalRows userID entry).foldl push snap.externalOutboundUsers} := by
  unfold projectGrant nodeRows pathRows inboundRows externalRows pathEntry
  cases entry.2.nodeType with
  | proxyPath =>
    cases ix.pathByID.lookup entry.2.nodeID with
    | none => simp
    | some path =>
      by_cases h : ix.inboundEnabled path.inboundID=true
      · simp [h,Option.filter]
      · simp [h,Option.filter]
  | inbound =>
    by_cases h : ix.inboundEnabled entry.2.nodeID=true
    · simp [h]
    · simp [h]
  | externalOutbound => simp

section

variable (ix : AccessIndex) (order : IterationOrder) (rows : Int → NodeKey×EffectiveNodeGrant → List (κ×Int))

def turnRows (userID : Int) : List (κ×Int) :=
  if (ix.active.lookup userID).isSome
  then (order.grants userID (ix.grantsOf userID).rows).flatMap (rows userID) else []

def viewRows : List (κ×Int) :=
  (order.users ix.active.keys).flatMap (turnRows ix order rows)

end

theorem foldl_resolveUser_view (field : EffectiveAccessSnapshot → Table κ (List Int))
    (rows : Int → NodeKey×EffectiveNodeGrant → List (κ×Int))
    (hframe : ∀snap a b,field {snap with userNodes := a,userPolicies := b}=field snap)
    (hproj : ∀u snap e,field (ix.projectGrant u snap e)=(rows u e).foldl push (field snap))
    (snap : EffectiveAccessSnapshot) :
    field ((order.users ix.active.keys).foldl (ix.resolveUser order) snap)=
      (viewRows ix order rows).foldl push (field snap) := by
  refine field_foldl_push field (turnRows ix order rows) (fun snap u => ?_) _ snap
  unfold resolveUser turnRows
  cases ix.active.lookup u with
  | none => rfl
  | some user =>
    simp only [isSome_some,if_true]
    rw [field_foldl_push field (rows u) (hproj u),hframe]

omit [DecidableEq κ] in
/-- A view row belongs to an active user and one of their grants, in any iteration order. -/
theorem mem_viewRows {rows : Int → NodeKey×EffectiveNodeGrant → List (κ×Int)} :
    row∈viewRows ix order rows ↔ ∃u,(ix.active.lookup u).isSome ∧
      ∃n g,(ix.grantsOf u).lookup n=some g ∧ row∈rows u (n,g) := by
  simp only [viewRows,mem_flatMap,(order.users_perm _).mem_iff]
  constructor
  · rintro ⟨u,-,h⟩
    unfold turnRows at h
    split_ifs at h with hu
    · obtain ⟨⟨n,g⟩,hg,hrow⟩ := mem_flatMap.mp h
      exact ⟨u,hu,n,g,mem_rows.mp ((order.grants_perm u _).mem_iff.mp hg),hrow⟩
    · simp at h
  · rintro ⟨u,hu,n,g,hg,hrow⟩
    refine ⟨u,AList.mem_keys.mp (AList.lookup_isSome.mp hu),?_⟩
    rw [turnRows,if_pos hu,mem_flatMap]
    exact ⟨(n,g),(order.grants_perm u _).mem_iff.mpr (mem_rows.mpr hg),hrow⟩

def viewOf (rows : List (κ×Int)) : Table κ (List Int) := sortView (rows.foldl push ∅)

theorem viewOf_lookup (rows : List (κ×Int)) (k : κ) : (viewOf rows).lookup k=
      if valuesOf rows k=[] then none else some (sortUnique (valuesOf rows k)) := by
  rw [viewOf,sortView,lookup_mapRows,lookup_foldl_push]
  split_ifs <;> simp [sortUnique,compactSortedUserIDs]

theorem mem_usersIn_viewOf {rows : List (κ×Int)} : u∈usersIn (viewOf rows) k ↔ (k,u)∈rows := by
  rw [usersIn,viewOf_lookup,← mem_valuesOf]
  split_ifs with h
  · simp [h]
  · exact mem_sortUnique

theorem usersIn_viewOf_ascending (rows : List (κ×Int)) (k : κ) :
    (usersIn (viewOf rows) k).Pairwise (· < ·) := by
  rw [usersIn,viewOf_lookup]
  split_ifs
  · exact .nil
  · exact sortUnique_ascending _

theorem viewOf_lookup_congr {rows rows' : List (κ×Int)} (h : ∀row,row∈rows ↔ row∈rows') (k : κ) :
    (viewOf rows).lookup k=(viewOf rows').lookup k := by
  have hv : ∀u,u∈valuesOf rows k ↔ u∈valuesOf rows' k := fun u => by
    rw [mem_valuesOf,mem_valuesOf,h]
  have hnil : valuesOf rows k=[] ↔ valuesOf rows' k=[] := by
    simp only [eq_nil_iff_forall_not_mem,hv]
  rw [viewOf_lookup,viewOf_lookup,sortUnique_congr hv]
  simp only [hnil]

end Views

section Loop

variable (ix : AccessIndex) (order : IterationOrder)

theorem foldl_projectGrant_frame (entries : List (NodeKey×EffectiveNodeGrant))
    (snap : EffectiveAccessSnapshot) : let out := entries.foldl (ix.projectGrant userID) snap
    out.now=snap.now ∧ out.users=snap.users ∧ out.userNodes=snap.userNodes ∧
      out.userPolicies=snap.userPolicies ∧ out.pathInboundIDs=snap.pathInboundIDs := by
  induction entries generalizing snap with
  | nil => exact ⟨rfl,rfl,rfl,rfl,rfl⟩
  | cons e entries ih =>
    have h := ih (ix.projectGrant userID snap e)
    rw [projectGrant_spec] at h
    rw [foldl_cons,projectGrant_spec]
    exact h

def AccessIndex.nodesOf (ix : AccessIndex) (userID : Int) :
    Option (Table NodeKey EffectiveNodeGrant) :=
  if (ix.active.lookup userID).isSome ∧ (ix.grantsOf userID).entries≠[]
  then some (ix.grantsOf userID) else none

def AccessIndex.policyOf (ix : AccessIndex) (userID : Int) : Option EffectiveUserPolicy :=
  (ix.active.lookup userID).map (fun user =>
    effectiveUserPolicy user (ix.planOf userID) (ix.bindingByUser.lookup userID))

theorem resolveUser_frame (snap : EffectiveAccessSnapshot) :
    let out := ix.resolveUser order snap userID
    out.now=snap.now ∧ out.users=snap.users ∧ out.pathInboundIDs=snap.pathInboundIDs ∧
    (∀u,out.userNodes.lookup u=
      if u=userID then (ix.nodesOf userID).or (snap.userNodes.lookup u)
      else snap.userNodes.lookup u) ∧
    (∀u,out.userPolicies.lookup u=
      if u=userID then (ix.policyOf userID).or (snap.userPolicies.lookup u)
      else snap.userPolicies.lookup u) := by
  unfold resolveUser nodesOf policyOf
  cases hu : ix.active.lookup userID with
  | none => simp
  | some user =>
    obtain ⟨h1,h2,h3,h4,h5⟩ := foldl_projectGrant_frame ix
      (order.grants userID (ix.grantsOf userID).rows)
      {snap with
        userNodes := if (ix.grantsOf userID).entries=[] then snap.userNodes
          else snap.userNodes.insert userID (ix.grantsOf userID)
        userPolicies := snap.userPolicies.insert userID
          (effectiveUserPolicy user (ix.planOf userID) (ix.bindingByUser.lookup userID))}
    refine ⟨h1,h2,h5,fun u => ?_,fun u => ?_⟩
    · simp only [h3]
      by_cases he : (ix.grantsOf userID).entries=[]
      · simp [he]
      · simp [he,lookup_insert_eq]
    · simp only [h4]
      simp [lookup_insert_eq]

theorem foldl_resolveUser_frame (us : List Int) (snap : EffectiveAccessSnapshot) :
    let out := us.foldl (ix.resolveUser order) snap
    out.now=snap.now ∧ out.users=snap.users ∧ out.pathInboundIDs=snap.pathInboundIDs ∧
    (∀u,out.userNodes.lookup u=
      if u∈us then (ix.nodesOf u).or (snap.userNodes.lookup u) else snap.userNodes.lookup u) ∧
    (∀u,out.userPolicies.lookup u=
      if u∈us then (ix.policyOf u).or (snap.userPolicies.lookup u)
      else snap.userPolicies.lookup u) := by
  induction us generalizing snap with
  | nil => simp
  | cons v us ih =>
    obtain ⟨h1,h2,h3,h4,h5⟩ := ih (ix.resolveUser order snap v)
    obtain ⟨g1,g2,g3,g4,g5⟩ := resolveUser_frame ix order snap
    rw [foldl_cons]
    refine ⟨h1.trans g1,h2.trans g2,h3.trans g3,fun u => ?_,fun u => ?_⟩
    · rw [h4,g4]
      by_cases hv : u=v
      · subst hv
        cases ix.nodesOf u <;> simp
      · simp [hv]
    · rw [h5,g5]
      by_cases hv : u=v
      · subst hv
        cases ix.policyOf u <;> simp
      · simp [hv]

theorem buildEffectiveAccessSnapshot_spec (order : IterationOrder) (clock : Time)
    (input : EffectiveAccessInput) : let snap := buildEffectiveAccessSnapshot order clock input
    let ix := input.index (effectiveNow clock input.now)
    snap.now=effectiveNow clock input.now ∧ snap.users=ix.active ∧
    (∀p,snap.pathInboundIDs.lookup p=(ix.pathByID.lookup p).map ProxyPath.inboundID) ∧
    (∀u,snap.userNodes.lookup u=ix.nodesOf u) ∧
    (∀u,snap.userPolicies.lookup u=ix.policyOf u) ∧
    snap.nodeUsers=viewOf (viewRows ix order nodeRows) ∧
    snap.proxyPathUsers=viewOf (viewRows ix order (pathRows ix)) ∧
    snap.inboundUsers=viewOf (viewRows ix order (inboundRows ix)) ∧
    snap.externalOutboundUsers=viewOf (viewRows ix order externalRows) := by
  intro snap ix
  let start : EffectiveAccessSnapshot := {
    now := effectiveNow clock input.now
    users := ix.active
    userNodes := ∅
    inboundUsers := ∅
    proxyPathUsers := ∅
    externalOutboundUsers := ∅
    nodeUsers := ∅
    userPolicies := ∅
    pathInboundIDs := putAll ∅ (input.paths.map (fun p => (p.id,p.inboundID)))}
  have hview {κ : Type} [DecidableEq κ] (field : EffectiveAccessSnapshot → Table κ (List Int))
      (rows : Int → NodeKey×EffectiveNodeGrant → List (κ×Int)) (hstart : field start=∅)
      (hframe : ∀snap a b,field {snap with userNodes := a,userPolicies := b}=field snap)
      (hproj : ∀u snap e, field (ix.projectGrant u snap e)=(rows u e).foldl push (field snap)) :
      sortView (field ((order.users ix.active.keys).foldl (ix.resolveUser order) start))=
        viewOf (viewRows ix order rows) := by
    rw [foldl_resolveUser_view field rows hframe hproj,hstart,viewOf]
  have hkeys u : u∈order.users ix.active.keys ↔ (ix.active.lookup u).isSome := by
    rw [(order.users_perm _).mem_iff,← AList.mem_keys,AList.lookup_isSome]
  obtain ⟨h1,h2,h3,h4,h5⟩ :=
    foldl_resolveUser_frame ix order (order.users ix.active.keys) start
  refine ⟨h1,h2,fun p => ?_,fun u => ?_,fun u => ?_,?_,?_,?_,?_⟩
  · change ((order.users ix.active.keys).foldl (ix.resolveUser order) start).pathInboundIDs.lookup
      p=((byID ProxyPath.id input.paths).lookup p).map ProxyPath.inboundID
    rw [h3,byID_lookup]
    simp only [start]
    rw [lookup_putAll_map ProxyPath.id ProxyPath.inboundID]
    simp [recordOf]
  · refine (h4 u).trans ?_
    by_cases hu : (ix.active.lookup u).isSome
    · simp [hkeys,hu,start]
    · simp [hkeys,hu,start,nodesOf]
  · refine (h5 u).trans ?_
    cases hu : ix.active.lookup u <;> simp [hkeys,hu,start,policyOf]
  · exact hview _ nodeRows rfl (fun _ _ _ => rfl) (fun u s e => by rw [projectGrant_spec])
  · exact hview _ (pathRows ix) rfl (fun _ _ _ => rfl) (fun u s e => by rw [projectGrant_spec])
  · exact hview _ (inboundRows ix) rfl (fun _ _ _ => rfl) (fun u s e => by rw [projectGrant_spec])
  · exact hview _ externalRows rfl (fun _ _ _ => rfl) (fun u s e => by rw [projectGrant_spec])

end Loop

end Oboard.Core
