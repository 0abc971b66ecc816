import Oboard.Controller.AccessChanges

namespace Oboard.Controller

open GoText Oboard.Core Store List

section Sources

variable (data : StoredAccess) (t : Time) (u : Int) (n : NodeKey)

def StoredAccess.effectiveInput : EffectiveAccessInput :=
  data.input (data.planBindings.listEffectiveUserPlanBindings t) t

def GivenByException : Prop :=
  ActiveUser (data.effectiveInput t) u ∧ ¬ExceptionNames (data.effectiveInput t) t u n .deny ∧
    ExceptionNames (data.effectiveInput t) t u n .allow

def GivenByPlan : Prop :=
  ActiveUser (data.effectiveInput t) u ∧ ¬ExceptionNames (data.effectiveInput t) t u n .deny ∧
    PlanGives (data.effectiveInput t) t u n

def ShowsInbound (gives : NodeKey → Prop) (i : Int) : Prop :=
  InboundOpen (data.effectiveInput t) i ∧
    (gives (.inbound,i) ∨ ∃p,EntersAt (data.effectiveInput t) p i ∧ gives (.proxyPath,p))

def ShowsPath (gives : NodeKey → Prop) (p : Int) : Prop :=
  gives (.proxyPath,p) ∧ ∃i,EntersAt (data.effectiveInput t) p i ∧ InboundOpen (data.effectiveInput t) i

end Sources

variable {i p : Int}

section Shows

variable {data : StoredAccess} {t : Time} {f g : NodeKey → Prop}

theorem showsInbound_or : ShowsInbound data t (fun n => f n ∨ g n) i ↔
    ShowsInbound data t f i ∨ ShowsInbound data t g i := by
  unfold ShowsInbound
  constructor
  · rintro ⟨hopen,(hf | hg) | ⟨p,hp,hf | hg⟩⟩
    · exact .inl ⟨hopen,.inl hf⟩
    · exact .inr ⟨hopen,.inl hg⟩
    · exact .inl ⟨hopen,.inr ⟨p,hp,hf⟩⟩
    · exact .inr ⟨hopen,.inr ⟨p,hp,hg⟩⟩
  · rintro (⟨hopen,hf | ⟨p,hp,hf⟩⟩ | ⟨hopen,hg | ⟨p,hp,hg⟩⟩)
    · exact ⟨hopen,.inl (.inl hf)⟩
    · exact ⟨hopen,.inr ⟨p,hp,.inl hf⟩⟩
    · exact ⟨hopen,.inl (.inr hg)⟩
    · exact ⟨hopen,.inr ⟨p,hp,.inr hg⟩⟩

theorem showsPath_or : ShowsPath data t (fun n => f n ∨ g n) p ↔
    ShowsPath data t f p ∨ ShowsPath data t g p :=
  or_and_right

theorem showsInbound_congr (h : ∀n,f n ↔ g n) :
    ShowsInbound data t f i ↔ ShowsInbound data t g i := by
  rw [funext (fun n => propext (h n))]

theorem showsPath_congr (h : ∀n,f n ↔ g n) : ShowsPath data t f p ↔ ShowsPath data t g p := by
  rw [funext (fun n => propext (h n))]

end Shows

section Snapshots

variable {order : IterationOrder} {clock : Time} {data : StoredAccess} {u : Int}

theorem singleBinding_stored (bindings : PlanBindings) :
    SingleBinding (data.input (bindings.listEffectiveUserPlanBindings t) m) t := by
  intro b hb b' hb' _ _ hu
  obtain ⟨id,row,hrow,hon,rfl⟩ := PlanBindings.mem_listEffectiveUserPlanBindings.mp hb
  obtain ⟨id',row',hrow',hon',rfl⟩ := PlanBindings.mem_listEffectiveUserPlanBindings.mp hb'
  obtain rfl := bindings.oneEnabled id row id' row' hrow hrow' (row.enabled_of_inForce hon)
    (row'.enabled_of_inForce hon') hu
  obtain rfl := Option.some.inj (hrow.symm.trans hrow')
  rfl

variable {t : Time} {bindings : List UserPlanBinding}

theorem hasGrant_stored : (storedSnapshot order clock data t).HasGrant u n ↔
      GivenByException data (effectiveNow clock t) u n ∨
      GivenByPlan data (effectiveNow clock t) u n := by
  rw [storedSnapshot,snapshotFromConfig,hasGrant_iff (singleBinding_stored _)]
  rw [Granted,and_or_left,and_or_left]
  rfl

theorem hasGrant_unbound (hb : ∀b∈bindings,b.userID≠u) :
    (snapshotFromConfig order clock data bindings t).HasGrant u n ↔
      GivenByException data (effectiveNow clock t) u n := by
  have hnone : ¬((((data.input bindings t).index (effectiveNow clock t)).planGrants u).lookup
      n).isSome := by
    rw [planGrants_isSome]
    rintro ⟨plan,hplan,-⟩
    obtain ⟨b,hrec,-⟩ := planOf_eq.mp hplan
    obtain ⟨hmem,hu⟩ := recordOf_mem hrec
    exact hb b (mem_of_mem_filter hmem) hu
  rw [snapshotFromConfig,hasGrant_index,active_isSome,grantsOf_isSome,exceptionsOf_effect,
    exceptionsOf_effect]
  have hor {a : Prop} : (a ∨ ((((data.input bindings t).index (effectiveNow clock t)).planGrants
      u).lookup n).isSome) ↔ a := or_iff_left hnone
  exact and_congr_right' (and_congr_right' hor)

theorem mem_inbounds : u∈usersIn (snapshotFromConfig order clock data bindings t).inboundUsers i ↔
      ShowsInbound data (effectiveNow clock t)
        (fun n => (snapshotFromConfig order clock data bindings t).HasGrant u n) i :=
  mem_inboundUsers

theorem mem_paths : u∈usersIn (snapshotFromConfig order clock data bindings t).proxyPathUsers p ↔
      ShowsPath data (effectiveNow clock t)
        (fun n => (snapshotFromConfig order clock data bindings t).HasGrant u n) p :=
  mem_proxyPathUsers

theorem mem_inbounds_stored : u∈usersIn (storedSnapshot order clock data t).inboundUsers i ↔
      ShowsInbound data (effectiveNow clock t) (GivenByException data (effectiveNow clock t) u) i ∨
      ShowsInbound data (effectiveNow clock t) (GivenByPlan data (effectiveNow clock t) u) i := by
  rw [← showsInbound_or]
  exact mem_inbounds.trans (showsInbound_congr (fun _ => hasGrant_stored))

theorem mem_paths_stored : u∈usersIn (storedSnapshot order clock data t).proxyPathUsers p ↔
      ShowsPath data (effectiveNow clock t) (GivenByException data (effectiveNow clock t) u) p ∨
      ShowsPath data (effectiveNow clock t) (GivenByPlan data (effectiveNow clock t) u) p := by
  rw [← showsPath_or]
  exact mem_paths.trans (showsPath_congr (fun _ => hasGrant_stored))

section Unbound

variable {bindings : List UserPlanBinding} (hb : ∀b∈bindings,b.userID≠u) {t : Time}
include hb

theorem mem_inbounds_unbound :
    u∈usersIn (snapshotFromConfig order clock data bindings t).inboundUsers i ↔
      ShowsInbound data (effectiveNow clock t) (GivenByException data (effectiveNow clock t) u) i :=
  mem_inbounds.trans (showsInbound_congr (fun _ => hasGrant_unbound hb))

theorem mem_paths_unbound :
    u∈usersIn (snapshotFromConfig order clock data bindings t).proxyPathUsers p ↔
      ShowsPath data (effectiveNow clock t) (GivenByException data (effectiveNow clock t) u) p :=
  mem_paths.trans (showsPath_congr (fun _ => hasGrant_unbound hb))

end Unbound

end Snapshots

/-- The projections of a change grant a user what the stored state grants: prepare at creation and
activation, finalize at activation. -/
structure Untouched (order : IterationOrder) (now : Time) (data : StoredAccess)
    (draft : AccessChangeDraft) (u : Int) : Prop where
  prepareInbounds : ∀i,u∈usersIn draft.prepareProjection.inboundUsers i ↔
    u∈usersIn (storedSnapshot order now data now).inboundUsers i ∨
    u∈usersIn (storedSnapshot order now data draft.activateAt).inboundUsers i
  preparePaths : ∀p,u∈usersIn draft.prepareProjection.proxyPathUsers p ↔
    u∈usersIn (storedSnapshot order now data now).proxyPathUsers p ∨
    u∈usersIn (storedSnapshot order now data draft.activateAt).proxyPathUsers p
  finalizeInbounds : ∀i,u∈usersIn draft.finalizeProjection.inboundUsers i ↔
    u∈usersIn (storedSnapshot order now data draft.activateAt).inboundUsers i
  finalizePaths : ∀p,u∈usersIn draft.finalizeProjection.proxyPathUsers p ↔
    u∈usersIn (storedSnapshot order now data draft.activateAt).proxyPathUsers p

/-- Whatever the plan of a user opens, an allow exception opens as well. -/
structure PlanRedundant (data : StoredAccess) (created activated : Time) (u : Int) : Prop where
  inbounds : ∀i,ShowsInbound data activated (GivenByPlan data activated u) i →
    ShowsInbound data activated (GivenByException data activated u) i
  paths : ∀p,ShowsPath data activated (GivenByPlan data activated u) p →
    ShowsPath data activated (GivenByException data activated u) p
  createdInbounds : ∀i,ShowsInbound data created (GivenByPlan data created u) i →
    ShowsInbound data created (GivenByException data created u) i ∨
    ShowsInbound data activated (GivenByException data activated u) i
  createdPaths : ∀p,ShowsPath data created (GivenByPlan data created u) p →
    ShowsPath data created (GivenByException data created u) p ∨
    ShowsPath data activated (GivenByException data activated u) p

section Assignment

variable (oldOrder newOrder order : IterationOrder) (now : Time) (data : StoredAccess)
  (requested userIDs : List Int) (planID : Int) (startsAt expiresAt : Option Time)
  (expectedPlans : Option (Table Int Int)) {u : Int}

theorem previous_users (hu : u∉userIDs) : ∀b∈filterEffectiveBindings (filterBindingsForUsers
      (data.planBindings.listEnabledUserPlanBindings requested) userIDs) now,b.userID≠u := by
  rintro b hb rfl
  have hmem := (mem_filter.mp (mem_of_mem_filter hb)).2
  exact hu (contains_iff_mem.mp hmem)

theorem assigned_users (t) (hu : u∉userIDs) :
    ∀b∈filterEffectiveBindings (userIDs.map (assignmentBinding planID startsAt expiresAt)) t,
      b.userID≠u := by
  rintro b hb rfl
  obtain ⟨v,hv,rfl⟩ := mem_map.mp (mem_of_mem_filter hb)
  exact hu hv

private theorem absorb_or (h0 : p0 → e0 ∨ e1) (h1 : p1 → e1) : e0 ∨ e1 ↔ (e0 ∨ p0) ∨ e1 ∨ p1 := by
  tauto

theorem untouched_iff (hu : u∉userIDs) :
    let draft := assignUsers oldOrder newOrder now data requested userIDs planID startsAt expiresAt
      expectedPlans
    Untouched order now data draft u ↔
      PlanRedundant data (effectiveNow now now) (effectiveNow now draft.activateAt) u := by
  intro draft
  have hold := previous_users now data requested userIDs hu
  have hnew := assigned_users userIDs planID startsAt expiresAt
    (effectiveWindow now startsAt expiresAt) hu
  have hfi i : u∈usersIn draft.finalizeProjection.inboundUsers i ↔ _ :=
    mem_inbounds_unbound hnew
  have hfp p : u∈usersIn draft.finalizeProjection.proxyPathUsers p ↔ _ :=
    mem_paths_unbound hnew
  have hpi i : u∈usersIn draft.prepareProjection.inboundUsers i ↔ _ :=
    mem_mergeUserIDMaps.trans (or_congr (mem_inbounds_unbound hold) (mem_inbounds_unbound hnew))
  have hpp p : u∈usersIn draft.prepareProjection.proxyPathUsers p ↔ _ :=
    mem_mergeUserIDMaps.trans (or_congr (mem_paths_unbound hold) (mem_paths_unbound hnew))
  constructor
  · intro h
    exact ⟨fun i hi => (hfi i).mp ((h.finalizeInbounds i).mpr (mem_inbounds_stored.mpr (.inr hi))),
      fun p hp => (hfp p).mp ((h.finalizePaths p).mpr (mem_paths_stored.mpr (.inr hp))),
      fun i hi => (hpi i).mp ((h.prepareInbounds i).mpr (.inl (mem_inbounds_stored.mpr (.inr hi)))),
      fun p hp => (hpp p).mp ((h.preparePaths p).mpr (.inl (mem_paths_stored.mpr (.inr hp))))⟩
  · intro h
    refine ⟨fun i => (hpi i).trans ?_,fun p => (hpp p).trans ?_,fun i => (hfi i).trans ?_,
      fun p => (hfp p).trans ?_⟩
    · rw [mem_inbounds_stored,mem_inbounds_stored]
      exact absorb_or (h.createdInbounds i) (h.inbounds i)
    · rw [mem_paths_stored,mem_paths_stored]
      exact absorb_or (h.createdPaths p) (h.paths p)
    · rw [mem_inbounds_stored]
      exact (or_iff_left_of_imp (h.inbounds i)).symm
    · rw [mem_paths_stored]
      exact (or_iff_left_of_imp (h.paths p)).symm

/-- An assignment leaves the users outside it alone exactly when their plans open nothing that
their exceptions do not open. -/
theorem assignment_touches_only_its_users_iff :
    (∀u,u∉userIDs → Untouched order now data (assignUsers oldOrder newOrder now data requested
        userIDs planID startsAt expiresAt expectedPlans) u) ↔
      ∀u,u∉userIDs → PlanRedundant data (effectiveNow now now)
        (effectiveNow now (assignUsers oldOrder newOrder now data requested userIDs planID startsAt
          expiresAt expectedPlans).activateAt) u :=
  forall_congr' (fun _ => forall_congr' (fun hu => untouched_iff oldOrder newOrder order now data
    requested userIDs planID startsAt expiresAt expectedPlans hu))

end Assignment

def twoUsers : StoredAccess where
  users := [⟨1,.active,0,0,"",0,"",0,.unset,0,[]⟩,⟨2,.active,0,0,"",0,"",0,.unset,0,[]⟩]
  subscriptionPlans := [⟨5,"plan",true,0,0,"",0⟩]
  activePlanNodes := [⟨5,.inbound,7,"",true⟩]
  userNodeExceptions := []
  proxyPaths := []
  inbounds := [⟨7,1,true,.vless⟩]
  planBindings := {
    rows := AList.insert 1 ⟨2,5,true,.active,none,none,none,true,none⟩ ∅
    nextID := 2
    fresh := fun id row h => by
      rw [Table.lookup_insert_eq] at h
      split_ifs at h with hid
      · subst hid
        decide
      · cases h
    oneEnabled := by decide }

/-- Assigning the plan to user 1 prepares and finalizes servers without user 2. -/
theorem assignment_drops_other_user :
    ∃draft,planAssignmentApply storedOrder storedOrder 100 twoUsers ⟨[1],5,none,none,none⟩=.ok draft ∧
      2∉draft.userIDs ∧ 2∈usersIn (storedSnapshot storedOrder 100 twoUsers 100).inboundUsers 7 ∧
      2∉usersIn draft.prepareProjection.inboundUsers 7 ∧
      2∉usersIn draft.finalizeProjection.inboundUsers 7 ∧
      ¬Untouched storedOrder 100 twoUsers draft 2 := by
  have hstored : 2∈usersIn (storedSnapshot storedOrder 100 twoUsers 100).inboundUsers 7 := by
    decide +kernel
  refine ⟨_,rfl,by decide +kernel,hstored,by decide +kernel,by decide +kernel,fun h => ?_⟩
  exact absurd ((h.prepareInbounds 7).mpr (.inl hstored)) (by decide +kernel)

end Oboard.Controller
