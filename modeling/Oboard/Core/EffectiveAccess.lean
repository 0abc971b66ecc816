import Oboard.Core.AccessSnapshotProof

namespace Oboard.Core

open GoText Ascending List AccessIndex Option EffectiveAccessInput EffectiveAccessSnapshot

section

variable (snap : EffectiveAccessSnapshot) (u : Int) (n : NodeKey)

def EffectiveAccessSnapshot.grantOf : Option EffectiveNodeGrant :=
  (snap.userNodes.lookup u).bind (fun grants => grants.lookup n)

def EffectiveAccessSnapshot.HasGrant : Prop :=
  (snap.grantOf u n).isSome

end

section Declared

variable (input : EffectiveAccessInput) (t : Time) (u : Int) (n : NodeKey)

def ActiveUser : Prop := ∃user∈input.users,user.id=u ∧ user.status=.active

def ExceptionNames (effect : UserNodeExceptionEffect) : Prop :=
  ∃ex∈input.exceptions,ex.effectiveAt t=true ∧ ex.userID=u ∧ ex.effect=effect ∧ ex.node=n

def PlanGives : Prop :=
  ∃b∈input.bindings,b.effectiveAt t=true ∧ b.userID=u ∧
    ∃plan,recordOf SubscriptionPlan.id input.plans b.planID=some plan ∧ plan.enabled=true ∧
    ∃pn∈input.planNodes,pn.enabled=true ∧ pn.planID=plan.id ∧ pn.node=n

/-- Deny exception before allow exception before plan before nothing. -/
def Granted : Prop :=
  ActiveUser input u ∧ ¬ExceptionNames input t u n .deny ∧
    (ExceptionNames input t u n .allow ∨ PlanGives input t u n)

def SingleBinding : Prop :=
  ∀b∈input.bindings,∀b'∈input.bindings,b.effectiveAt t=true → b'.effectiveAt t=true →
    b.userID=b'.userID → b=b'

def InboundOpen (input : EffectiveAccessInput) (i : Int) : Prop :=
  ∃inbound,recordOf Inbound.id input.inbounds i=some inbound ∧ inbound.enabled=true

def EntersAt (input : EffectiveAccessInput) (p i : Int) : Prop :=
  ∃path,recordOf ProxyPath.id input.paths p=some path ∧ path.inboundID=i

end Declared

section Index

variable {input : EffectiveAccessInput} {t : Time} {u : Int} {n : NodeKey}

theorem active_isSome : ((input.index t).active.lookup u).isSome ↔ ActiveUser input u := by
  change ((byID User.id (input.users.filter (·.status=.active))).lookup u).isSome ↔ _
  rw [byID_lookup,recordOf_isSome]
  simp only [ActiveUser]
  grind

theorem exceptionsOf_effect : (∃ex∈(input.index t).exceptionsOf u,ex.effect=effect ∧ ex.node=n) ↔
      ExceptionNames input t u n effect := by
  simp only [exceptionsOf,index,mem_filter,
    decide_eq_true_eq,ExceptionNames,and_assoc]

theorem inboundEnabled_iff : (input.index t).inboundEnabled i=true ↔ InboundOpen input i := by
  change ((byID Inbound.id input.inbounds).lookup i).any Inbound.enabled=true ↔ _
  rw [byID_lookup,Option.any_eq_true,InboundOpen]

theorem pathEntry_eq :
    (input.index t).pathEntry p=some i ↔ EntersAt input p i ∧ InboundOpen input i := by
  rw [pathEntry,filter_eq_some_iff,inboundEnabled_iff]
  refine and_congr_left' ?_
  change ((byID ProxyPath.id input.paths).lookup p).map _=some i ↔ _
  rw [byID_lookup,map_eq_some_iff,EntersAt]

theorem planGrants_isSome {ix : AccessIndex} : ((ix.planGrants u).lookup n).isSome ↔
      ∃plan,ix.planOf u=some plan ∧ ∃pn∈ix.planNodes,pn.planID=plan.id ∧ pn.node=n := by
  rw [planGrants_lookup]
  cases ix.planOf u with
  | none => simp
  | some plan => simp [and_assoc]

theorem grantsOf_isSome {ix : AccessIndex} : ((ix.grantsOf u).lookup n).isSome ↔
      ¬(∃ex∈ix.exceptionsOf u,ex.effect=.deny ∧ ex.node=n) ∧
        ((∃ex∈ix.exceptionsOf u,ex.effect=.allow ∧ ex.node=n) ∨
          ((ix.planGrants u).lookup n).isSome) := by
  rw [grantsOf_lookup]
  split_ifs with h
  · simp [h]
  · rw [isSome_or,isSome_map,Bool.or_eq_true,allowOf_isSome]
    simp [h]

theorem planOf_eq : (input.index t).planOf u=some plan ↔
      ∃b,recordOf UserPlanBinding.userID (input.bindings.filter (·.effectiveAt t)) u=
        some b ∧ recordOf SubscriptionPlan.id input.plans b.planID=some plan ∧
        plan.enabled=true := by
  have hb : (input.index t).bindingByUser.lookup u=recordOf UserPlanBinding.userID
      (input.bindings.filter (·.effectiveAt t)) u := byID_lookup _ _ _
  have hp k : (input.index t).planByID.lookup k=
      recordOf SubscriptionPlan.id input.plans k := byID_lookup _ _ _
  simp only [planOf,bind_eq_bind,bind_eq_some_iff, ite_none_right_eq_some]
  grind

theorem planGrants_iff (hs : SingleBinding input t) :
    (((input.index t).planGrants u).lookup n).isSome ↔ PlanGives input t u n := by
  simp only [planGrants_isSome,planOf_eq]
  constructor
  · rintro ⟨plan,⟨b,hb,hplan,hen⟩,pn,hpn,hid,hnode⟩
    obtain ⟨hmem,hu⟩ := recordOf_mem hb
    obtain ⟨hmem,heff⟩ := mem_filter.mp hmem
    obtain ⟨hpn,hpe⟩ := mem_filter.mp hpn
    exact ⟨b,hmem,heff,hu,plan,hplan,hen,pn,hpn,hpe,hid,hnode⟩
  · rintro ⟨b,hmem,heff,hu,plan,hplan,hen,pn,hpn,hpe,hid,hnode⟩
    have hb : b∈input.bindings.filter (·.effectiveAt t) := mem_filter.mpr ⟨hmem,heff⟩
    obtain ⟨b',hb'⟩ := isSome_iff_exists.mp (recordOf_isSome.mpr ⟨b,hb,hu⟩)
    obtain ⟨hmem',hu'⟩ := recordOf_mem hb'
    obtain ⟨hmem',heff'⟩ := mem_filter.mp hmem'
    obtain rfl := hs b' hmem' b hmem heff' heff (hu'.trans hu.symm)
    exact ⟨plan,⟨b',hb',hplan,hen⟩,pn,mem_filter.mpr ⟨hpn,hpe⟩,hid,hnode⟩

end Index

section Snapshot

variable {order : IterationOrder} {clock : Time} {input : EffectiveAccessInput} {u : Int}

variable {n : NodeKey}

theorem hasGrant_index : (buildEffectiveAccessSnapshot order clock input).HasGrant u n ↔
      ((input.index (effectiveNow clock input.now)).active.lookup u).isSome ∧
      (((input.index (effectiveNow clock input.now)).grantsOf u).lookup n).isSome := by
  obtain ⟨-,-,-,hnodes,-⟩ := buildEffectiveAccessSnapshot_spec order clock input
  rw [EffectiveAccessSnapshot.HasGrant,grantOf,hnodes,nodesOf]
  split_ifs with h
  · simp [h.1]
  constructor
  · simp
  rintro ⟨ha,hg⟩
  refine absurd ⟨ha,fun hnil => ?_⟩ h
  obtain ⟨g,hg⟩ := isSome_iff_exists.mp hg
  have := (Table.mem_entries_iff _ _ _).mpr hg
  simp [hnil] at this

/-- A view lists the users that hold a grant its rows are made of. -/
theorem mem_view [DecidableEq κ] (R : NodeKey → κ → Prop)
    (hrows : ∀v g row,row∈rows v ((g.nodeType,g.nodeID),g) ↔
      row.2=v ∧ R (g.nodeType,g.nodeID) row.1) :
    u∈usersIn (viewOf (viewRows (input.index (effectiveNow clock input.now)) order rows)) k ↔
      ∃n,(buildEffectiveAccessSnapshot order clock input).HasGrant u n ∧ R n k := by
  rw [mem_usersIn_viewOf,mem_viewRows]
  simp only [hasGrant_index,isSome_iff_exists]
  constructor
  · rintro ⟨v,hv,n,g,hg,hrow⟩
    obtain rfl := grantsOf_node _ _ _ hg
    obtain ⟨rfl,hr⟩ := (hrows v g _).mp hrow
    exact ⟨_,⟨hv,g,hg⟩,hr⟩
  rintro ⟨n,⟨hv,g,hg⟩,hr⟩
  obtain rfl := grantsOf_node _ _ _ hg
  exact ⟨u,hv,_,g,hg,(hrows u g _).mpr ⟨rfl,hr⟩⟩

theorem mem_nodeUsers : u∈usersIn (buildEffectiveAccessSnapshot order clock input).nodeUsers n ↔
      (buildEffectiveAccessSnapshot order clock input).HasGrant u n := by
  obtain ⟨-,-,-,-,-,hview,-⟩ := buildEffectiveAccessSnapshot_spec order clock input
  rw [hview,mem_view (fun n k => k=n) (by simp [nodeRows,Prod.ext_iff,and_comm])]
  simp

theorem mem_proxyPathUsers :
    u∈usersIn (buildEffectiveAccessSnapshot order clock input).proxyPathUsers p ↔
      (buildEffectiveAccessSnapshot order clock input).HasGrant u (.proxyPath,p) ∧
      ∃i,EntersAt input p i ∧ InboundOpen input i := by
  obtain ⟨-,-,-,-,-,-,hview,-⟩ := buildEffectiveAccessSnapshot_spec order clock input
  rw [hview,mem_view (fun n k => n=(.proxyPath,k) ∧ ∃i,EntersAt input k i ∧ InboundOpen input i)]
  · simp
  intro v g row
  simp only [← pathEntry_eq (t := effectiveNow clock input.now),← isSome_iff_exists]
  unfold pathRows
  split_ifs <;> grind

theorem mem_inboundUsers :
    u∈usersIn (buildEffectiveAccessSnapshot order clock input).inboundUsers i ↔
      InboundOpen input i ∧
      ((buildEffectiveAccessSnapshot order clock input).HasGrant u (.inbound,i) ∨
        ∃p,EntersAt input p i ∧
          (buildEffectiveAccessSnapshot order clock input).HasGrant u (.proxyPath,p)) := by
  obtain ⟨-,-,-,-,-,-,-,hview,-⟩ := buildEffectiveAccessSnapshot_spec order clock input
  rw [hview,mem_view (fun n k => InboundOpen input k ∧
    (n=(.inbound,k) ∨ ∃p,n=(.proxyPath,p) ∧ EntersAt input p k))]
  · grind
  intro v g row
  unfold inboundRows
  cases g.nodeType with
  | proxyPath => grind [pathEntry_eq]
  | inbound => grind [inboundEnabled_iff]
  | externalOutbound => grind

theorem mem_externalOutboundUsers :
    u∈usersIn (buildEffectiveAccessSnapshot order clock input).externalOutboundUsers x ↔
      (buildEffectiveAccessSnapshot order clock input).HasGrant u (.externalOutbound,x) := by
  obtain ⟨-,-,-,-,-,-,-,-,hview⟩ := buildEffectiveAccessSnapshot_spec order clock input
  rw [hview,mem_view (fun n k => n=(.externalOutbound,k))]
  · simp
  intro v g row
  unfold externalRows
  split_ifs <;> grind

theorem hasGrant_iff (hs : SingleBinding input (effectiveNow clock input.now)) :
    (buildEffectiveAccessSnapshot order clock input).HasGrant u n ↔
      Granted input (effectiveNow clock input.now) u n := by
  rw [hasGrant_index,active_isSome,grantsOf_isSome,exceptionsOf_effect,exceptionsOf_effect,
    planGrants_iff hs,Granted]

end Snapshot

/-- The snapshot grants exactly what is declared, and its views agree with the grants. -/
structure DeclaredAccess (input : EffectiveAccessInput) (t : Time)
    (snap : EffectiveAccessSnapshot) : Prop where
  grants : ∀u n,snap.HasGrant u n ↔ Granted input t u n
  nodes : ∀n u,u∈usersIn snap.nodeUsers n ↔ snap.HasGrant u n
  paths : ∀p u,u∈usersIn snap.proxyPathUsers p ↔
    snap.HasGrant u (.proxyPath,p) ∧ ∃i,EntersAt input p i ∧ InboundOpen input i
  inbounds : ∀i u,u∈usersIn snap.inboundUsers i ↔ InboundOpen input i ∧
    (snap.HasGrant u (.inbound,i) ∨ ∃p,EntersAt input p i ∧ snap.HasGrant u (.proxyPath,p))
  externals : ∀x u,u∈usersIn snap.externalOutboundUsers x ↔ snap.HasGrant u (.externalOutbound,x)
  ascending : (∀n,(usersIn snap.nodeUsers n).Pairwise (· < ·)) ∧
    (∀p,(usersIn snap.proxyPathUsers p).Pairwise (· < ·)) ∧
    (∀i,(usersIn snap.inboundUsers i).Pairwise (· < ·)) ∧
    ∀x,(usersIn snap.externalOutboundUsers x).Pairwise (· < ·)

/-- Equal as Go maps, whatever order their tables hold the rows in. -/
structure SameSnapshot (a b : EffectiveAccessSnapshot) : Prop where
  now : a.now=b.now
  users : ∀u,a.users.lookup u=b.users.lookup u
  grants : ∀u n,a.grantOf u n=b.grantOf u n
  userNodes : ∀u,(a.userNodes.lookup u).isSome=(b.userNodes.lookup u).isSome
  inboundUsers : ∀i,a.inboundUsers.lookup i=b.inboundUsers.lookup i
  proxyPathUsers : ∀p,a.proxyPathUsers.lookup p=b.proxyPathUsers.lookup p
  externalOutboundUsers : ∀x,a.externalOutboundUsers.lookup x=b.externalOutboundUsers.lookup x
  nodeUsers : ∀n,a.nodeUsers.lookup n=b.nodeUsers.lookup n
  userPolicies : ∀u,a.userPolicies.lookup u=b.userPolicies.lookup u
  pathInboundIDs : ∀p,a.pathInboundIDs.lookup p=b.pathInboundIDs.lookup p

structure Reordered (a b : EffectiveAccessInput) : Prop where
  users : a.users.Perm b.users
  exceptions : a.exceptions.Perm b.exceptions
  planNodes : a.planNodes.Perm b.planNodes
  paths : a.paths.Perm b.paths
  bindings : a.bindings=b.bindings
  plans : a.plans=b.plans
  inbounds : a.inbounds=b.inbounds
  now : a.now=b.now

/-- The unique keys of the tables the records come from. -/
structure UniqueRecords (input : EffectiveAccessInput) : Prop where
  users : (input.users.map User.id).Nodup
  exceptions : (input.exceptions.map (fun ex => (ex.userID,ex.node))).Nodup
  planNodes : (input.planNodes.map (fun pn => (pn.planID,pn.node))).Nodup
  paths : (input.paths.map ProxyPath.id).Nodup

theorem declaredAccess (hs : SingleBinding input (effectiveNow clock input.now)) :
    DeclaredAccess input (effectiveNow clock input.now)
      (buildEffectiveAccessSnapshot order clock input) where
  grants _ _ := hasGrant_iff hs
  nodes _ _ := mem_nodeUsers
  paths _ _ := mem_proxyPathUsers
  inbounds _ _ := mem_inboundUsers
  externals _ _ := mem_externalOutboundUsers
  ascending := by
    obtain ⟨-,-,-,-,-,h1,h2,h3,h4⟩ := buildEffectiveAccessSnapshot_spec order clock input
    rw [h1,h2,h3,h4]
    exact ⟨usersIn_viewOf_ascending _,usersIn_viewOf_ascending _,usersIn_viewOf_ascending _,
      usersIn_viewOf_ascending _⟩

section Order

variable {a b : EffectiveAccessInput} {t : Time}

/-- Two indexes that answer every lookup of the main loop alike. -/
structure SameIndex (x y : AccessIndex) : Prop where
  active : ∀u,x.active.lookup u=y.active.lookup u
  grants : ∀u n,(x.grantsOf u).lookup n=(y.grantsOf u).lookup n
  plan : ∀u,x.planOf u=y.planOf u
  binding : ∀u,x.bindingByUser.lookup u=y.bindingByUser.lookup u
  inbound : ∀i,x.inboundEnabled i=y.inboundEnabled i
  path : ∀p,x.pathByID.lookup p=y.pathByID.lookup p

theorem SameIndex.refl (x : AccessIndex) : SameIndex x x :=
  ⟨fun _ => rfl,fun _ _ => rfl,fun _ => rfl,fun _ => rfl,fun _ => rfl,fun _ => rfl⟩

theorem SameIndex.pathEntry (h : SameIndex x y) (p) : x.pathEntry p=y.pathEntry p := by
  rw [AccessIndex.pathEntry,AccessIndex.pathEntry,h.path,funext h.inbound]

theorem SameIndex.viewRows (h : SameIndex x y) (order order')
    {rows rows' : Int → NodeKey×EffectiveNodeGrant → List (κ×Int)} (hrows : rows=rows')
    (row) : row∈viewRows x order rows ↔ row∈viewRows y order' rows' := by
  simp only [mem_viewRows,h.active,h.grants,hrows]

theorem SameIndex.nodesOf (h : SameIndex x y) (u) : (x.nodesOf u).isSome=(y.nodesOf u).isSome ∧
      ∀n,(x.nodesOf u).bind (·.lookup n)=(y.nodesOf u).bind (·.lookup n) := by
  have hnil : (x.grantsOf u).entries=[] ↔ (y.grantsOf u).entries=[] := by
    have hempty (g : Table NodeKey EffectiveNodeGrant) : g.entries=[] ↔ ∀n,g.lookup n=none := by
      constructor
      · exact fun hg n => by rw [AList.lookup,hg,dlookup_nil]
      intro hg
      rw [eq_nil_iff_forall_not_mem]
      rintro ⟨n,r⟩ hr
      simpa [hg n] using (Table.mem_entries_iff _ _ _).mp hr
    simp only [hempty,h.grants]
  unfold AccessIndex.nodesOf
  simp only [h.active,ne_eq,hnil]
  split_ifs
  · exact ⟨rfl,fun n => h.grants u n⟩
  · exact ⟨rfl,fun _ => rfl⟩

theorem sameSnapshot_of_index (hnow : a.now=b.now)
    (h : SameIndex (a.index (effectiveNow clock a.now)) (b.index (effectiveNow clock b.now))) :
    SameSnapshot (buildEffectiveAccessSnapshot order clock a)
      (buildEffectiveAccessSnapshot order' clock b) := by
  obtain ⟨a1,a2,a3,a4,a5,a6,a7,a8,a9⟩ := buildEffectiveAccessSnapshot_spec order clock a
  obtain ⟨b1,b2,b3,b4,b5,b6,b7,b8,b9⟩ := buildEffectiveAccessSnapshot_spec order' clock b
  refine ⟨by rw [a1,b1,hnow],fun u => by rw [a2,b2,h.active],fun u n => ?_,fun u => ?_,
    fun i => ?_,fun p => ?_,fun x => ?_,fun n => ?_,fun u => ?_,fun p => by rw [a3,b3,h.path]⟩
  · rw [grantOf,grantOf,a4,b4]
    exact (h.nodesOf u).2 n
  · rw [a4,b4]
    exact (h.nodesOf u).1
  · rw [a8,b8]
    refine viewOf_lookup_congr (h.viewRows order order' ?_) i
    funext u e
    simp only [inboundRows,h.pathEntry,h.inbound]
  · rw [a7,b7]
    refine viewOf_lookup_congr (h.viewRows order order' ?_) p
    funext u e
    simp only [pathRows,h.pathEntry]
  · rw [a9,b9]
    exact viewOf_lookup_congr (h.viewRows order order' rfl) x
  · rw [a6,b6]
    exact viewOf_lookup_congr (h.viewRows order order' rfl) n
  · rw [a5,b5,policyOf,policyOf,h.active,h.plan,h.binding]

theorem exceptionsOf_perm (h : Reordered a b) :
    ((a.index t).exceptionsOf u).Perm ((b.index t).exceptionsOf u) :=
  (h.exceptions.filter _).filter _

theorem exceptionsOf_unique (hu : UniqueRecords a) (h : ex∈(a.index t).exceptionsOf u)
    (h' : ex'∈(a.index t).exceptionsOf u) (hn : ex.node=ex'.node) : ex=ex' := by
  simp only [exceptionsOf,index,mem_filter,
    decide_eq_true_eq] at h h'
  refine inj_on_of_nodup_map hu.exceptions h.1.1 h'.1.1 ?_
  simp [h.2,h'.2,hn]

theorem sameIndex_of_reordered (hu : UniqueRecords a) (h : Reordered a b) :
    SameIndex (a.index t) (b.index t) := by
  have hplan u : (a.index t).planOf u=(b.index t).planOf u := by
    simp only [planOf,index,h.bindings,h.plans]
  have hpath p : (a.index t).pathByID.lookup p=(b.index t).pathByID.lookup p := by
    change (byID _ _).lookup p=(byID _ _).lookup p
    rw [byID_lookup,byID_lookup,recordOf_perm h.paths hu.paths]
  refine ⟨fun u => ?_,fun u n => ?_,hplan,fun u => ?_,fun i => ?_,hpath⟩
  · change (byID _ _).lookup u=(byID _ _).lookup u
    rw [byID_lookup,byID_lookup]
    exact recordOf_perm (h.users.filter _) (hu.users.sublist (filter_sublist.map _)) u
  · have hdeny : (∃ex∈(a.index t).exceptionsOf u,ex.effect=.deny ∧ ex.node=n) ↔
        ∃ex∈(b.index t).exceptionsOf u,ex.effect=.deny ∧ ex.node=n := by
      simp only [(exceptionsOf_perm h).mem_iff]
    have hallow : allowOf ((a.index t).exceptionsOf u) n=allowOf ((b.index t).exceptionsOf u) n := by
      refine find_last_perm (exceptionsOf_perm h) (fun ex hex ex' hex' h1 h2 => ?_)
      simp only [Bool.and_eq_true,decide_eq_true_eq] at h1 h2
      exact exceptionsOf_unique hu hex hex' (h1.2.trans h2.2.symm)
    have hgive : ((a.index t).planGrants u).lookup n=((b.index t).planGrants u).lookup n := by
      rw [planGrants_lookup,planGrants_lookup,hplan]
      refine congrArg _ (funext (fun plan => congrArg _ ?_))
      refine find_last_perm ((h.planNodes.filter _).filter _) (fun pn hpn pn' hpn' h1 h2 => ?_)
      simp only [mem_filter,decide_eq_true_eq] at hpn hpn' h1 h2
      refine inj_on_of_nodup_map hu.planNodes (mem_of_mem_filter hpn.1)
        (mem_of_mem_filter hpn'.1) ?_
      simp [hpn.2,hpn'.2,h1,h2]
    rw [grantsOf_lookup,grantsOf_lookup,hallow,hgive]
    simp only [hdeny]
  · simp only [index,h.bindings]
  · simp only [inboundEnabled,index,h.inbounds]

end Order

/-- Effective access is the declared priority, its views agree, and neither map iteration
order nor the order of records with unique keys matters. -/
theorem effective_access_is_declared_priority (order order' : IterationOrder) (clock : Time)
    (input input' : EffectiveAccessInput)
    (hs : SingleBinding input (effectiveNow clock input.now)) :
    DeclaredAccess input (effectiveNow clock input.now)
      (buildEffectiveAccessSnapshot order clock input) ∧
    SameSnapshot (buildEffectiveAccessSnapshot order clock input)
      (buildEffectiveAccessSnapshot order' clock input) ∧
    (UniqueRecords input → Reordered input input' →
      SameSnapshot (buildEffectiveAccessSnapshot order clock input)
        (buildEffectiveAccessSnapshot order' clock input')) := by
  refine ⟨declaredAccess hs,sameSnapshot_of_index rfl (.refl _),fun hu hr => ?_⟩
  refine sameSnapshot_of_index hr.now ?_
  rw [← hr.now]
  exact sameIndex_of_reordered hu hr

def storedOrder : IterationOrder := ⟨id,fun _ => .refl _,fun _ l => l,fun _ _ => .refl _⟩

def reversedOrder : IterationOrder :=
  ⟨List.reverse,reverse_perm,fun _ => List.reverse,fun _ => reverse_perm⟩

def allowInbound (id : Int) : UserNodeException := ⟨id,1,.inbound,7,.allow,.active,none,none⟩

def oneUserInput (exceptions : List UserNodeException) : EffectiveAccessInput where
  users := [⟨1,.active,0,0,"",0,"",0,.unset,0,[]⟩]
  bindings := []
  plans := []
  planNodes := []
  exceptions := exceptions
  paths := []
  inbounds := [⟨7,1,true,.vless⟩]
  now := 1

theorem effective_access_one_exception : DeclaredAccess (oneUserInput [allowInbound 1]) 1
      (buildEffectiveAccessSnapshot storedOrder 5 (oneUserInput [allowInbound 1])) ∧
    SameSnapshot (buildEffectiveAccessSnapshot storedOrder 5 (oneUserInput [allowInbound 1]))
      (buildEffectiveAccessSnapshot reversedOrder 5 (oneUserInput [allowInbound 1])) := by
  obtain ⟨h,-,hsame⟩ := effective_access_is_declared_priority storedOrder reversedOrder 5
    (oneUserInput [allowInbound 1]) (oneUserInput [allowInbound 1]) (by simp [SingleBinding,oneUserInput])
  exact ⟨h,hsame ⟨by decide,by decide,by decide,by decide⟩
    ⟨.refl _,.refl _,.refl _,.refl _,rfl,rfl,rfl,rfl⟩⟩

/-- Two allow exceptions for one node: the grant carries whichever comes last. -/
theorem duplicate_exceptions_depend_on_order :
    ∃input input',SingleBinding input (effectiveNow 5 input.now) ∧ Reordered input input' ∧
      ¬SameSnapshot (buildEffectiveAccessSnapshot storedOrder 5 input)
        (buildEffectiveAccessSnapshot storedOrder 5 input') := by
  refine ⟨oneUserInput [allowInbound 1,allowInbound 2],oneUserInput [allowInbound 2,allowInbound 1],
    by simp [SingleBinding,oneUserInput],
    ⟨.refl _,.swap _ _ _,.refl _,.refl _,rfl,rfl,rfl,rfl⟩,fun h => ?_⟩
  have hne : (buildEffectiveAccessSnapshot storedOrder 5
      (oneUserInput [allowInbound 1,allowInbound 2])).grantOf 1 (.inbound,7)≠
      (buildEffectiveAccessSnapshot storedOrder 5
        (oneUserInput [allowInbound 2,allowInbound 1])).grantOf 1 (.inbound,7) := by
    decide +kernel
  exact hne (h.grants 1 (.inbound,7))

end Oboard.Core
