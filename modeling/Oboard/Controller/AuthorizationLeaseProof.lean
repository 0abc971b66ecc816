import Oboard.Controller.AuthorizationLease

namespace Oboard.Controller

open GoText Ascending Oboard.Core Spans List Table AccessIndex

variable {a e : Time} {user : User}

section Snapshots

variable {data : RoutingConfig} {users users' : List User} {s s' : Time} {u : Int}

def indexAt (data : RoutingConfig) (users : List User) (s : Time) : AccessIndex :=
  (data.accessInput users s).index s

theorem snapshotAt_congr (order order') (clock clock') (hs : s≠0) (hs' : s'≠0)
    (hactive : ActiveUser (data.accessInput users s) u ↔ ActiveUser (data.accessInput users' s') u)
    (hgrants : (indexAt data users s).grantsOf u=(indexAt data users' s').grantsOf u) :
    (∀i,u∈usersIn (snapshotAt order clock data users s).inboundUsers i ↔
      u∈usersIn (snapshotAt order' clock' data users' s').inboundUsers i) ∧
    ∀p,u∈usersIn (snapshotAt order clock data users s).proxyPathUsers p ↔
      u∈usersIn (snapshotAt order' clock' data users' s').proxyPathUsers p := by
  have hnow c t ht : effectiveNow c t=t := if_neg ht
  have hgrant n : (snapshotAt order clock data users s).HasGrant u n ↔
      (snapshotAt order' clock' data users' s').HasGrant u n := by
    unfold snapshotAt
    rw [hasGrant_index,hasGrant_index,active_isSome,active_isSome,hactive]
    refine and_congr_right' ?_
    have h1 : (data.accessInput users s).index (effectiveNow clock s)=indexAt data users s := by
      rw [hnow clock s hs,indexAt]
    have h2 : (data.accessInput users' s').index (effectiveNow clock' s')=
        indexAt data users' s' := by
      rw [hnow clock' s' hs',indexAt]
    have hlook : ((data.accessInput users s).index (effectiveNow clock s)).grantsOf u=
        ((data.accessInput users' s').index (effectiveNow clock' s')).grantsOf u := by
      rw [h1,hgrants,h2]
    exact iff_of_eq (congrArg (fun g => (AList.lookup n g).isSome=true) hlook)
  constructor
  · intro i
    unfold snapshotAt at hgrant ⊢
    rw [mem_inboundUsers,mem_inboundUsers]
    refine and_congr_right' (or_congr (hgrant _) (exists_congr (fun p => ?_)))
    exact and_congr_right' (hgrant _)
  · intro p
    unfold snapshotAt at hgrant ⊢
    rw [mem_proxyPathUsers,mem_proxyPathUsers]
    exact and_congr (hgrant _) Iff.rfl

def Quiet (data : RoutingConfig) (user : User) (a s : Time) : Prop :=
  ∀e∈data.boundaries user,¬(a<e ∧ e ≤ s)

private theorem le_iff_of_quiet {a e s : Int} (has : a ≤ s) (h : ¬(a<e ∧ e ≤ s)) : e≤a ↔ e ≤ s := by
  omega

theorem withinWindow_quiet (has : a ≤ s)
    (hstart : ∀e∈startsAt,¬(a<e ∧ e ≤ s)) (hend : ∀e∈expiresAt,¬(a<e ∧ e ≤ s)) :
    withinWindow startsAt expiresAt a=withinWindow startsAt expiresAt s := by
  have h1 : startsAt.all (·≤a)=startsAt.all (fun t => t ≤ s) := by
    cases startsAt with
    | none => rfl
    | some e =>
      simp only [Option.all_some,decide_eq_decide]
      exact le_iff_of_quiet has (hstart e rfl)
  have h2 : expiresAt.all (a<·)=expiresAt.all (s<·) := by
    cases expiresAt with
    | none => rfl
    | some e =>
      simp only [Option.all_some,decide_eq_decide,← not_le]
      exact not_congr (le_iff_of_quiet has (hend e rfl))
  rw [withinWindow,withinWindow,h1,h2]

theorem boundaries_binding (hb : b∈data.planBindings) (hu : b.userID=user.id)
    (he : e∈b.startsAt ∨ e∈b.expiresAt) : e∈data.boundaries user := by
  refine mem_append_left _ (mem_flatMap.mpr ⟨b,?_,?_⟩)
  · exact mem_filter.mpr ⟨hb,by simpa using hu⟩
  · simpa using he

theorem boundaries_exception (hex : ex∈data.userNodeExceptions) (hu : ex.userID=user.id)
    (he : e∈ex.startsAt ∨ e∈ex.expiresAt) : e∈data.boundaries user := by
  refine mem_append_right _ (mem_flatMap.mpr ⟨ex,?_,?_⟩)
  · exact mem_filter.mpr ⟨hex,by simpa using hu⟩
  · simpa using he

theorem grantsOf_quiet (has : a ≤ s) (hq : Quiet data user a s) :
    (indexAt data users a).grantsOf user.id=(indexAt data users' s).grantsOf user.id := by
  have hbind b (hb : b∈data.planBindings) (hu : b.userID=user.id) :
      b.effectiveAt a=b.effectiveAt s := by
    rw [UserPlanBinding.effectiveAt,UserPlanBinding.effectiveAt,withinWindow_quiet has
      (fun e he => hq e (boundaries_binding hb hu (.inl he)))
      (fun e he => hq e (boundaries_binding hb hu (.inr he)))]
  have hexc ex (hex : ex∈data.userNodeExceptions) (hu : ex.userID=user.id) :
      ex.effectiveAt a=ex.effectiveAt s := by
    rw [UserNodeException.effectiveAt,UserNodeException.effectiveAt,withinWindow_quiet has
      (fun e he => hq e (boundaries_exception hex hu (.inl he)))
      (fun e he => hq e (boundaries_exception hex hu (.inr he)))]
  have hexceptions : (indexAt data users a).exceptionsOf user.id=
      (indexAt data users' s).exceptionsOf user.id := by
    change (data.userNodeExceptions.filter (·.effectiveAt a)).filter _=
      (data.userNodeExceptions.filter (·.effectiveAt s)).filter _
    rw [filter_filter,filter_filter]
    refine filter_congr (fun ex hex => ?_)
    by_cases hu : ex.userID=user.id
    · rw [hexc ex hex hu]
    · simp [hu]
  have hplan : (indexAt data users a).planOf user.id=(indexAt data users' s).planOf user.id := by
    have hb : (indexAt data users a).bindingByUser.lookup user.id=
        (indexAt data users' s).bindingByUser.lookup user.id := by
      change (byID _ _).lookup _=(byID _ _).lookup _
      rw [byID_lookup,byID_lookup,recordOf,recordOf,← filter_reverse,← filter_reverse,
        find?_filter,find?_filter]
      refine find?_congr (fun b hb => ?_)
      by_cases hu : b.userID=user.id
      · have := hbind b (mem_reverse.mp hb) hu
        simp [this]
      · simp [hu]
    rw [planOf,hb]
    rfl
  have hgrants : (indexAt data users a).planGrants user.id=
      (indexAt data users' s).planGrants user.id := by
    rw [planGrants,hplan]
    rfl
  rw [grantsOf,grantsOf,hexceptions,hgrants]

end Snapshots

section Scopes

variable {order order' : IterationOrder} {clock : Time} {data : RoutingConfig} {s : Time}
  {k : CredentialScope}

theorem scopesAt_userID (h : k∈scopesAt order clock data users s) :
    ∃user∈users,k.userID=user.id := by
  obtain ⟨identity,hid,_,_,_,hk⟩ := mem_proxyCredentialScopes.mp h
  obtain ⟨user,huser,heq,-⟩ := identity_spec hid
  exact ⟨user,huser,(routeScope_spec hk).1.trans heq⟩

theorem scopesAt_single (hs : s≠0) (hids : (data.users.map User.id).Nodup)
    (huser : user∈data.users) (hk : k.userID=user.id) :
    k∈scopesAt order clock data data.users s ↔ k∈scopesAt order' clock data [user] s := by
  have hsame {v} hv h : v=user :=
    inj_on_of_nodup_map hids hv huser h
  have hactive : ActiveUser (data.accessInput data.users s) user.id ↔
      ActiveUser (data.accessInput [user] s) user.id := by
    constructor
    · rintro ⟨v,hv,hid,ha⟩
      exact ⟨user,mem_singleton_self _,rfl,hsame hv hid ▸ ha⟩
    · rintro ⟨v,hv,hid,ha⟩
      exact ⟨user,huser,rfl,mem_singleton.mp hv ▸ ha⟩
  obtain ⟨hi,hp⟩ := snapshotAt_congr order order' clock clock hs hs hactive rfl
  have hidentity {identity} (huid : identity.id=user.id) :
      identity∈dataPlaneIdentitiesAt data.users clock ↔
        identity∈dataPlaneIdentitiesAt [user] clock := by
    simp only [mem_dataPlaneIdentitiesAt]
    constructor
    · rintro ⟨v,hv,ha,h⟩
      have hvid : v.id=user.id := by
        rcases h with rfl | ⟨-,-,h⟩
        · exact huid
        · exact (transitionIdentities_spec h).1.symm.trans huid
      obtain rfl := hsame hv hvid
      exact ⟨_,mem_singleton_self _,ha,h⟩
    · rintro ⟨v,hv,ha,h⟩
      obtain rfl := mem_singleton.mp hv
      exact ⟨_,huser,ha,h⟩
  simp only [scopesAt,mem_proxyCredentialScopes]
  refine exists_congr fun identity => ?_
  by_cases huid : identity.id=user.id
  · rw [hidentity huid,huid]
    simp only [reaches_congr hi hp]
  have hno inbound pathID : k∉routeScope clock identity inbound pathID :=
    fun h => huid ((routeScope_spec h).1.symm.trans hk)
  simp only [hno,and_false,exists_false]

theorem scopes_quiet (clock') (ha : a≠0) (hs : s≠0) (has : a ≤ s) (hq : Quiet data user a s) :
    k∈proxyCredentialScopes now [user] data.topology (snapshotAt order clock data [user] a) ↔
      k∈proxyCredentialScopes now [user] data.topology
        (snapshotAt order' clock' data [user] s) := by
  have hactive : ActiveUser (data.accessInput [user] a) user.id ↔
      ActiveUser (data.accessInput [user] s) user.id := Iff.rfl
  obtain ⟨hi,hp⟩ :=
    snapshotAt_congr order order' clock clock' ha hs hactive (grantsOf_quiet has hq)
  simp only [mem_proxyCredentialScopes]
  refine exists_congr (fun identity => and_congr_right (fun hid => ?_))
  obtain ⟨v,hv,huid,-⟩ := identity_spec hid
  obtain rfl := mem_singleton.mp hv
  simp only [huid,reaches_congr hi hp]

theorem scopesAt_quiet (ha : a≠0) (hs : s≠0) (has : a ≤ s) (hq : Quiet data user a s) :
    k∈scopesAt order clock data [user] a ↔ k∈scopesAt order' clock data [user] s :=
  scopes_quiet clock ha hs has hq

theorem scopesAt_later (hs : s≠0) (hle : clock≤later) :
    k∈scopesAt order later data [user] s ↔ k∈scopesAt order' clock data [user] s ∧
      (k.device≠"" → later<user.deviceTransitionUntil) := by
  have hself : Quiet data user s s := fun e _ h => absurd h.2 (not_le.mpr h.1)
  rw [scopesAt,proxyCredentialScopes_later hle]
  exact and_congr_left' (scopes_quiet clock hs hs le_rfl hself)

end Scopes

section Intervals

variable {order : IterationOrder} {data : RoutingConfig} {t0 t : Time} {k : CredentialScope}
  {user : User}

/-- A user has at most as many boundaries in a stretch as a projection evaluates. -/
def WithinCap (data : RoutingConfig) (user : User) (t0 t : Time) : Prop :=
  ((data.eventsAfter user t0).filter (fun e => e≤t)).length≤authorizationMaxEventsPerUser

instance : Decidable (WithinCap data user t0 t) := inferInstanceAs (Decidable (_ ≤ _))

theorem mem_eventsAfter : e∈data.eventsAfter user t0 ↔ e∈data.boundaries user ∧ t0<e := by
  simp [RoutingConfig.eventsAfter,mem_sortUnique]

theorem mem_take_of_cap {l : List Time} (hasc : l.Pairwise (· < ·))
    (he : e∈l) (hcap : (l.filter (·≤e)).length≤n) : e∈l.take n := by
  induction l generalizing n with
  | nil => simp at he
  | cons a l ih =>
    obtain ⟨hlt,hrest⟩ := pairwise_cons.mp hasc
    rcases mem_cons.mp he with rfl | hel
    · cases n with
      | zero => simp at hcap
      | succ n => simp
    have hae : a≤e := (hlt e hel).le
    rw [filter_cons_of_pos (by simpa using hae),length_cons] at hcap
    cases n with
    | zero => omega
    | succ n => exact mem_cons_of_mem _ (ih hrest hel (by omega))

def scopeSamples (order : IterationOrder) (data : RoutingConfig) (t0 : Time) (user : User)
    (k : CredentialScope) : List (Time×Bool) :=
  ((data.eventsAfter user t0).take authorizationMaxEventsPerUser).map
    (fun s => (s,decide (k∈scopesAt order t0 data [user] s)))

theorem scopeSamples_ascending (order) (data) (t0) (user) (k) (held : Bool) :
    ((t0,held)::scopeSamples order data t0 user k).Pairwise (fun a b => a.1<b.1) := by
  refine pairwise_cons.mpr ⟨fun e he => ?_,?_⟩
  · obtain ⟨s,hs,rfl⟩ := mem_map.mp he
    exact (mem_eventsAfter.mp (mem_of_mem_take hs)).2
  · rw [scopeSamples,pairwise_map]
    exact (sortUnique_ascending _).sublist (take_sublist _ _)

theorem sampled_scopes (order) (k) (hpos : 0<t0) (hle : t0≤t) (hcap : WithinCap data user t0 t) :
    sampleAt (decide (k∈scopesAt order t0 data [user] t0)) (scopeSamples order data t0 user k) t=
      decide (k∈scopesAt order t0 data [user] t) := by
  have hasc : (data.eventsAfter user t0).Pairwise (· < ·) := sortUnique_ascending _
  -- scopes are only compared after the build instant, where no instant is the zero time
  let f : Time → Bool := fun s => decide (k∈scopesAt order t0 data [user] (max t0 s))
  have hf s (hs : t0 ≤ s) : f s=decide (k∈scopesAt order t0 data [user] s) := by
    simp only [f,max_eq_right hs]
  have hconst : ∀a s,a ≤ s → (∀e,(e∈data.boundaries user ∧ t0<e) → ¬(a<e ∧ e ≤ s)) → f a=f s := by
    intro a s has hq
    have hne x : max t0 x≠0 := (lt_of_lt_of_le hpos (le_max_left _ _)).ne'
    refine decide_eq_decide.mpr (scopesAt_quiet (hne a) (hne s) (max_le_max_left _ has) ?_)
    intro e he h
    obtain ⟨h1,h2⟩ := h
    have ht0 : t0<e := lt_of_le_of_lt (le_max_left _ _) h1
    refine hq e ⟨he,ht0⟩ ⟨lt_of_le_of_lt (le_max_right _ _) h1,?_⟩
    exact (le_max_iff.mp h2).resolve_left (not_le.mpr ht0)
  have hmap : scopeSamples order data t0 user k=
      ((data.eventsAfter user t0).take authorizationMaxEventsPerUser).map (fun s => (s,f s)) := by
    refine map_congr_left (fun s hs => ?_)
    rw [hf s (mem_eventsAfter.mp (mem_of_mem_take hs)).2.le]
  rw [hmap,← hf t0 le_rfl,← hf t hle]
  refine sampleAt_eq hconst hle ?_ (fun e he hlt hle' => ?_)
  · refine pairwise_cons.mpr ⟨fun e he => ?_,hasc.sublist (take_sublist _ _)⟩
    exact (mem_eventsAfter.mp (mem_of_mem_take he)).2
  refine mem_take_of_cap hasc (mem_eventsAfter.mpr he) (le_trans ?_ hcap)
  refine (monotone_filter_right _ (fun x hx => ?_)).length_le
  simp only [decide_eq_true_eq] at hx ⊢
  exact hx.trans hle'

variable {scopesNow : List CredentialScope} {a : List AuthorizationInterval}

theorem userIntervals_unique (ha : (k,a)∈userIntervals order data t0 scopesNow user)
    (hb : (k,b)∈userIntervals order data t0 scopesNow user) : a=b := by
  unfold userIntervals at ha hb
  simp only at ha hb
  split_ifs at ha hb
  · obtain ⟨_,-,ha⟩ := mem_map.mp ha
    obtain ⟨_,-,hb⟩ := mem_map.mp hb
    rw [← (Prod.mk.inj ha).2,← (Prod.mk.inj hb).2]
  obtain ⟨x,-,ha⟩ := mem_map.mp ha
  obtain ⟨y,-,hb⟩ := mem_map.mp hb
  obtain ⟨rfl,rfl⟩ := Prod.mk.inj ha
  obtain ⟨rfl,rfl⟩ := Prod.mk.inj hb
  rfl

theorem userIntervals_userID
    (h : (k,a)∈userIntervals order data t0 scopesNow user) : k.userID=user.id := by
  unfold userIntervals at h
  simp only at h
  split_ifs at h
  · obtain ⟨x,hx,h⟩ := mem_map.mp h
    obtain ⟨rfl,-⟩ := Prod.mk.inj h
    simpa using (mem_filter.mp hx).2
  obtain ⟨x,hx,h⟩ := mem_map.mp h
  obtain ⟨rfl,-⟩ := Prod.mk.inj h
  rcases mem_append.mp (mem_eraseDups.mp hx) with hx | hx
  · simpa using (mem_filter.mp hx).2
  obtain ⟨p,hp,hx⟩ := mem_flatMap.mp hx
  obtain ⟨s,-,rfl⟩ := mem_map.mp hp
  obtain ⟨v,hv,hid⟩ := scopesAt_userID hx
  rw [hid,mem_singleton.mp hv]

theorem mem_scopesNow (order) (hpos : 0<t0) (hids : (data.users.map User.id).Nodup)
    (huser : user∈data.users) (hk : k.userID=user.id) :
    k∈(scopesAt order t0 data data.users t0).eraseDups.filter (·.userID=user.id) ↔
      k∈scopesAt order t0 data [user] t0 := by
  rw [mem_filter,mem_eraseDups,decide_eq_true_eq,scopesAt_single hpos.ne' hids huser hk]
  exact and_iff_left hk

section

variable (order : IterationOrder) (hpos : 0<t0) (hle : t0≤t) (hids : (data.users.map User.id).Nodup)
include hpos hle hids

/-- The windows of a user's scopes hold exactly the instants at which they are authorized. -/
theorem userIntervals_covers (huser : user∈data.users)
    (hk : k.userID=user.id) (hcap : WithinCap data user t0 t) :
    (∃a,(k,a)∈userIntervals order data t0 (scopesAt order t0 data data.users t0).eraseDups user ∧
      ∃i∈a,i.covers t=true) ↔ k∈scopesAt order t0 data [user] t := by
  have hmine := mem_scopesNow order hpos hids huser hk
  have hsampled := sampled_scopes order k hpos hle hcap
  unfold userIntervals
  simp only
  split_ifs with hev
  · rw [scopeSamples,hev] at hsampled
    have hsame : k∈scopesAt order t0 data [user] t0 ↔ k∈scopesAt order t0 data [user] t :=
      decide_eq_decide.mp hsampled
    simp only [mem_map,Prod.mk.injEq]
    constructor
    · rintro ⟨a,⟨x,hx,rfl,-⟩,-⟩
      exact hsame.mp (hmine.mp hx)
    intro h
    exact ⟨_,⟨k,hmine.mpr (hsame.mpr h),rfl,rfl⟩,_,mem_singleton_self _,
      by simpa [Span.covers] using hle⟩
  · have hcov := exists_covers_iff (o := none) (t := t) (by simp)
      (scopeSamples_ascending order data t0 user k (decide (k∈scopesAt order t0 data [user] t0)))
    simp only [sampleAt,if_pos hle,hsampled,decide_eq_true_eq] at hcov
    have hsamples : (t0,((scopesAt order t0 data data.users t0).eraseDups.filter
          (·.userID=user.id)).contains k)::
        (((data.eventsAfter user t0).take authorizationMaxEventsPerUser).map
          (fun s => (s,scopesAt order t0 data [user] s))).map (fun p => (p.1,p.2.contains k))=
        (t0,decide (k∈scopesAt order t0 data [user] t0))::scopeSamples order data t0 user k := by
      have hnow : decide (k∈(scopesAt order t0 data data.users t0).eraseDups.filter
          (·.userID=user.id))=decide (k∈scopesAt order t0 data [user] t0) :=
        decide_eq_decide.mpr hmine
      rw [contains_eq_mem,hnow,map_map,scopeSamples]
      simp only [Function.comp_def,contains_eq_mem]
    constructor
    · rintro ⟨a,ha,hi⟩
      obtain ⟨x,-,heq⟩ := mem_map.mp ha
      obtain ⟨rfl,rfl⟩ := Prod.mk.inj heq
      rw [hsamples] at hi
      exact hcov.mp hi
    · intro h
      refine ⟨_,mem_map.mpr ⟨k,?_,rfl⟩,?_⟩
      · -- an authorized instant has a sample at which the scope is present
        have htrue := hsampled.trans (decide_eq_true h)
        rw [mem_eraseDups,mem_append]
        rcases sampleAt_true htrue with h0 | ⟨e,he,hp⟩
        · exact .inl (hmine.mpr (of_decide_eq_true h0))
        · obtain ⟨s,hs,rfl⟩ := mem_map.mp he
          exact .inr (mem_flatMap.mpr ⟨_,mem_map_of_mem hs,of_decide_eq_true hp⟩)
      · rw [hsamples]
        exact hcov.mpr h

theorem intervalsByScope_covers (hcap : ∀user∈data.users,WithinCap data user t0 t) :
    (∃i∈((intervalsByScope order data t0).lookup k).getD [],i.covers t=true) ↔
      ∃user∈data.users,k.userID=user.id ∧ k∈scopesAt order t0 data [user] t := by
  have hcovers {user} huser (hk : k.userID=user.id) :=
    userIntervals_covers order hpos hle hids huser hk (hcap user huser)
  have hlookup : (intervalsByScope order data t0).lookup k=
      (data.users.flatMap (userIntervals order data t0
        (scopesAt order t0 data data.users t0).eraseDups)).reverse.lookup k := by
    rw [intervalsByScope,lookup_putAll]
    simp
  have hstored {a} (h : (intervalsByScope order data t0).lookup k=some a) :
      ∃user∈data.users,(k,a)∈userIntervals order data t0
        (scopesAt order t0 data data.users t0).eraseDups user := by
    rw [hlookup] at h
    exact mem_flatMap.mp (mem_reverse.mp (mem_of_lookup h))
  constructor
  · rintro ⟨i,hi,hc⟩
    cases hl : (intervalsByScope order data t0).lookup k with
    | none => simp [hl] at hi
    | some a =>
      obtain ⟨user,huser,ha⟩ := hstored hl
      have hk := userIntervals_userID ha
      rw [hl] at hi
      exact ⟨user,huser,hk,(hcovers huser hk).mp ⟨a,ha,i,hi,hc⟩⟩
  · rintro ⟨user,huser,hk,h⟩
    obtain ⟨a,ha,i,hi,hc⟩ := (hcovers huser hk).mpr h
    obtain ⟨b,hl⟩ := lookup_of_mem (mem_reverse.mpr (mem_flatMap.mpr ⟨user,huser,ha⟩))
    rw [← hlookup] at hl
    obtain ⟨user',huser',hb⟩ := hstored hl
    obtain rfl : user'=user := inj_on_of_nodup_map hids huser' huser
      ((userIntervals_userID hb).symm.trans hk)
    rw [hl,userIntervals_unique hb ha]
    exact ⟨i,hi,hc⟩

end

theorem boundedIntervals_covers {stop} : (∃i∈boundedIntervals stop intervals,i.covers t=true) ↔
      (∃i∈intervals,i.covers t=true) ∧ t<stop := by
  simp only [boundedIntervals,mem_map,mem_filter,decide_eq_true_eq]
  constructor
  · rintro ⟨-,⟨i,⟨hi,hstart⟩,rfl⟩,hc⟩
    split_ifs at hc with hs
    · simp only [Span.covers,Option.all_some,Bool.and_eq_true,decide_eq_true_eq] at hc
      refine ⟨⟨i,hi,?_⟩,hc.2⟩
      simp only [Span.covers,Bool.and_eq_true,decide_eq_true_eq,Option.all_eq_true] at hs ⊢
      exact ⟨hc.1,fun e he => lt_trans hc.2 (hs e he)⟩
    refine ⟨⟨i,hi,hc⟩,?_⟩
    simp only [Option.all_eq_true,decide_eq_true_eq,not_forall,not_lt] at hs
    obtain ⟨e,he,hes⟩ := hs
    simp only [Span.covers,Bool.and_eq_true,decide_eq_true_eq,Option.all_eq_true] at hc
    exact lt_of_lt_of_le (hc.2 e he) hes
  · rintro ⟨⟨i,hi,hc⟩,ht⟩
    have hc' := hc
    simp only [Span.covers,Bool.and_eq_true,decide_eq_true_eq] at hc'
    refine ⟨_,⟨i,⟨hi,lt_of_le_of_lt hc'.1 ht⟩,rfl⟩,?_⟩
    split_ifs
    · simp [Span.covers,hc'.1,ht]
    · exact hc

end Intervals

section Entries

variable {data : RoutingConfig} {t0 t : Time} {c : ProxyCredential}

def AuthorizedAt (order : IterationOrder) (data : RoutingConfig) (c : ProxyCredential) (t : Time) :
    Prop :=
  c.active=true ∧ c.id≠"" ∧
    ∃user∈data.users,c.userID=user.id ∧ proxyScopeKey c∈scopesAt order t data [user] t

instance (order : IterationOrder) : Decidable (AuthorizedAt order data c t) :=
  inferInstanceAs (Decidable (_ ∧ _ ∧ ∃user∈_,_ ∧ _))

theorem affectedAuthServers_length (topology) (node) :
    (affectedAuthServers topology node).length≤1 := by
  unfold affectedAuthServers
  split
  · split
    · simp
    · exact Option.length_toList_le
  · rw [length_map]
    exact Option.length_toList_le
  · simp

theorem credentialEntry_eq_some {e : AuthorizationEntry} :
    credentialEntry data t0 intervals c=some e ↔ c.active=true ∧ c.id≠"" ∧
      credentialWindows data t0 intervals c≠[] ∧ routeServers data c≠[] ∧
      e=⟨c.id,routeServers data c,credentialWindows data t0 intervals c⟩ := by
  rw [credentialEntry,Option.ite_none_left_eq_some,not_or,not_or,not_or]
  simp only [Bool.not_eq_true,Bool.not_eq_false',Option.some.injEq,and_assoc,
    eq_comm (b := e)]

theorem credentialWindows_covers (order) (hpos : 0<t0) (hle : t0≤t)
    (hids : (data.users.map User.id).Nodup) (hcap : ∀user∈data.users,WithinCap data user t0 t) :
    (∃i∈credentialWindows data t0 (intervalsByScope order data t0) c,i.covers t=true) ↔
      ∃user∈data.users,c.userID=user.id ∧ proxyScopeKey c∈scopesAt order t data [user] t := by
  have hcovers := intervalsByScope_covers (k := proxyScopeKey c) order hpos hle hids hcap
  have hlater {user} : proxyScopeKey c∈scopesAt order t data [user] t ↔
      proxyScopeKey c∈scopesAt order t0 data [user] t ∧
        (c.deviceIDHash≠"" → t<user.deviceTransitionUntil) :=
    scopesAt_later (lt_of_lt_of_le hpos hle).ne' hle
  have hstop {user} (huser : user∈data.users) (hid : c.userID=user.id) :
      ((byID User.id data.users).lookup c.userID).elim 0 User.deviceTransitionUntil=
        user.deviceTransitionUntil := by
    rw [byID_lookup]
    obtain ⟨v,hv⟩ := Option.isSome_iff_exists.mp (recordOf_isSome.mpr ⟨user,huser,hid.symm⟩)
    obtain ⟨hmem,hvid⟩ := recordOf_mem hv
    rw [hv,inj_on_of_nodup_map hids hmem huser (hvid.trans hid)]
    rfl
  have hkey : (proxyScopeKey c).userID=c.userID := rfl
  unfold credentialWindows
  by_cases hdev : c.deviceIDHash=""
  · rw [if_pos hdev,hcovers]
    simp only [hlater,hdev,ne_eq,not_true_eq_false,false_imp_iff,and_true,hkey]
  rw [if_neg hdev]
  constructor
  · intro h
    split_ifs at h with hs
    · simp at h
    obtain ⟨hc,hlt⟩ := boundedIntervals_covers.mp h
    obtain ⟨user,huser,hid,hk⟩ := hcovers.mp hc
    rw [hstop huser hid] at hlt
    exact ⟨user,huser,hid,hlater.mpr ⟨hk,fun _ => hlt⟩⟩
  · rintro ⟨user,huser,hid,hk⟩
    obtain ⟨hk,hlt⟩ := hlater.mp hk
    rw [hstop huser hid,if_neg (not_le.mpr (lt_of_le_of_lt hle (hlt hdev)))]
    exact boundedIntervals_covers.mpr ⟨hcovers.mpr ⟨user,huser,hid,hk⟩,hlt hdev⟩

end Entries

end Oboard.Controller
