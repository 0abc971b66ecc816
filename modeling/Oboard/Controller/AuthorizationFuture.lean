import Oboard.Controller.AuthorizationLeaseProof

namespace Oboard.Controller

open GoText Ascending Oboard.Core Spans List ServerGrant Option

section Grants

variable {serverID : Int} {t : Time}

theorem indexEntries_lookup (hlen : ∀e∈entries,e.servers.length≤1) :
    ((indexEntries entries).lookup serverID).getD []=
      (entries.zipIdx.filter (·.1.servers.contains serverID)).map Prod.snd := by
  have hvalues (l : List (AuthorizationEntry×Nat)) (hl : ∀e∈l,e.1.servers.length≤1) :
      Table.valuesOf (l.flatMap (fun e => e.1.servers.map (fun id => (id,e.2)))) serverID=
        (l.filter (·.1.servers.contains serverID)).map Prod.snd := by
    induction l with
    | nil => rfl
    | cons e l ih =>
      obtain ⟨he,hl⟩ := forall_mem_cons.mp hl
      have hrest := ih hl
      simp only [Table.valuesOf,flatMap_cons,filter_append,map_append] at hrest ⊢
      rw [hrest]
      rcases hs : e.1.servers with _|⟨a,_|⟨b,rest⟩⟩
      · simp [hs]
      · by_cases ha : a=serverID
        · simp [hs,ha]
        · simp [hs,ha,Ne.symm ha]
      · simp [hs] at he
  have hasc : ((entries.zipIdx.filter (·.1.servers.contains serverID)).map
      Prod.snd).Pairwise (· ≤ ·) := by
    have hall : (entries.zipIdx.map Prod.snd).Pairwise (· ≤ ·) := by
      rw [zipIdx_map_snd]
      exact (pairwise_lt_range' 1).imp le_of_lt
    exact hall.sublist (filter_sublist.map _)
  have hlen' : ∀e∈entries.zipIdx,e.1.servers.length≤1 := fun e he =>
    hlen e.1 (mem_of_getElem? (mem_zipIdx_iff_getElem?.mp he))
  rw [indexEntries,Table.lookup_mapRows,Table.lookup_foldl_push,hvalues _ hlen']
  split_ifs with h
  · rw [h]
    rfl
  · simp only [AList.lookup_empty,getD_none,nil_append,map_some, getD_some]
    exact hasc.insertionSort_eq

def entryGrant (serverID : Int) (t : Time) (e : AuthorizationEntry) : Option ServerGrant :=
  if e.servers.contains serverID then e.grantAt t else none

theorem grantsAt_eq {p : AuthorizationProjection} (hindex : p.byServer=indexEntries p.entries)
    (hlen : ∀e∈p.entries,e.servers.length≤1) :
    p.grantsAt serverID t=p.entries.filterMap (entryGrant serverID t) := by
  rw [AuthorizationProjection.grantsAt,hindex,indexEntries_lookup hlen,filterMap_map,
    filterMap_filter]
  have hstep : ∀x∈p.entries.zipIdx,
      (if x.1.servers.contains serverID=true then ((fun index => p.entries[index]?.bind
        (·.grantAt t))∘Prod.snd) x else none)=
        (entryGrant serverID t∘Prod.fst) x := by
    intro x hx
    simp only [Function.comp_apply,entryGrant,mem_zipIdx_iff_getElem?.mp hx,bind_some]
  rw [filterMap_congr hstep,← filterMap_map,zipIdx_map_fst]

theorem entryGrant_key : (entryGrant serverID t e).map key=
      if serverID∈e.servers ∧ ∃i∈e.intervals,i.covers t=true then some e.key else none := by
  unfold entryGrant AuthorizationEntry.grantAt
  by_cases hs : serverID∈e.servers
  · cases hf : e.intervals.find? (·.covers t) with
    | none =>
      have hno := find?_eq_none.mp hf
      have hno' : ¬∃i∈e.intervals,i.covers t=true := fun ⟨i,hi,hc⟩ => hno i hi hc
      simp [hs,hno']
    | some i =>
      have hyes : ∃i∈e.intervals,i.covers t=true :=
        ⟨i,mem_of_find?_eq_some hf,by simpa using find?_some hf⟩
      simp [hs,hyes]
  · simp [hs]

end Grants

section Future

variable {data : RoutingConfig} {order : IterationOrder}
  {t0 t : Time}

theorem build_index : (buildAuthorizationProjection order t0 data credentials).byServer=
        indexEntries (buildAuthorizationProjection order t0 data credentials).entries ∧
      ∀e∈(buildAuthorizationProjection order t0 data credentials).entries, e.servers.length≤1 := by
  refine ⟨rfl,fun e he => ?_⟩
  obtain ⟨c,-,hc⟩ := mem_filterMap.mp ((mem_insertionSort _).mp he)
  obtain ⟨-,-,-,-,rfl⟩ := credentialEntry_eq_some.mp hc
  exact affectedAuthServers_length _ _

/-- The key a credential contributes to the answer of one server. -/
def authorizedKey (order : IterationOrder) (data : RoutingConfig) (serverID : Int)
    (t : Time) (c : ProxyCredential) : Option String :=
  if serverID∈routeServers data c ∧ AuthorizedAt order data c t then some c.id else none

theorem entryKey_eq (hpos : 0<t0) (hle : t0≤t) (hids : (data.users.map User.id).Nodup)
    (hcap : ∀user∈data.users,WithinCap data user t0 t) :
    (credentialEntry data t0 (intervalsByScope order data t0) c).bind
      (fun e => (entryGrant serverID t e).map key)=
      authorizedKey order data serverID t c := by
  have hcovers := credentialWindows_covers (c := c) order hpos hle hids hcap
  unfold authorizedKey AuthorizedAt
  cases he : credentialEntry data t0 (intervalsByScope order data t0) c with
  | none =>
    refine (if_neg ?_).symm
    rintro ⟨hserver,hactive,hid,hauth⟩
    obtain ⟨i,hi,-⟩ := hcovers.mpr hauth
    have hsome := credentialEntry_eq_some.mpr ⟨hactive,hid,ne_nil_of_mem hi,
      ne_nil_of_mem hserver,rfl⟩
    simp [hsome] at he
  | some e =>
    obtain ⟨hactive,hid,-,-,rfl⟩ := credentialEntry_eq_some.mp he
    simp only [bind_some,entryGrant_key,hcovers]
    simp only [hactive,hid,ne_eq,not_false_eq_true,true_and]

theorem grantsAt_keys (hpos : 0<t0) (hle : t0≤t) (hids : (data.users.map User.id).Nodup)
    (hcap : ∀user∈data.users,WithinCap data user t0 t) :
    (((buildAuthorizationProjection order t0 data credentials).grantsAt serverID t).map
      key).Perm (credentials.filterMap (authorizedKey order data serverID t)) ∧
    (((buildAuthorizationProjection order t0 data credentials).grantsAt serverID t).map
      key).Pairwise (· ≤ ·) := by
  obtain ⟨hindex,hlen⟩ := build_index
  rw [grantsAt_eq hindex hlen,map_filterMap]
  constructor
  · have hperm := perm_insertionSort (fun a b : AuthorizationEntry => a.key≤b.key)
      (credentials.filterMap (credentialEntry data t0 (intervalsByScope order data t0)))
    have h := hperm.filterMap (fun e => (entryGrant serverID t e).map key)
    rw [filterMap_filterMap] at h
    simp only [entryKey_eq hpos hle hids hcap] at h
    exact h
  · have hsorted : (buildAuthorizationProjection order t0 data credentials).entries.Pairwise
        (fun a b => a.key≤b.key) := by
      have htotal : ∀a b : AuthorizationEntry,a.key≤b.key ∨ b.key≤a.key := fun a b => String.le_total _ _
      have htrans : ∀a b c : AuthorizationEntry,a.key≤b.key → b.key≤c.key → a.key≤c.key :=
        fun _ _ _ => String.le_trans
      have : Std.Total (fun a b : AuthorizationEntry => a.key≤b.key) := ⟨htotal⟩
      have : IsTrans AuthorizationEntry (fun a b => a.key≤b.key) := ⟨htrans⟩
      exact pairwise_insertionSort _ _
    refine hsorted.filterMap _ (fun a b hab x hx y hy => ?_)
    rw [entryGrant_key] at hx hy
    split_ifs at hx hy
    rw [← some.inj hx,← some.inj hy]
    exact hab

theorem authorizedAt_order (ht : t≠0) :
    AuthorizedAt order data c t ↔ AuthorizedAt order' data c t := by
  have hself user : Quiet data user t t := fun e _ h => absurd h.2 (not_le.mpr h.1)
  unfold AuthorizedAt
  refine and_congr_right' (and_congr_right' (exists_congr (fun user => and_congr_right' ?_)))
  exact and_congr_right' (scopesAt_quiet ht ht le_rfl (hself user))

theorem withinCap_self : WithinCap data user t t := by
  have hnil : (data.eventsAfter user t).filter (·≤t)=[] := by
    rw [filter_eq_nil_iff]
    intro e he
    simpa using (mem_eventsAfter.mp he).2
  rw [WithinCap,hnil]
  exact Nat.zero_le _

theorem grantsAt_deadline {serverID : Int}
    (hg : g∈(buildAuthorizationProjection order t0 data credentials).grantsAt serverID t) :
    t<g.deadline ∧ g.deadline≤t+authorizationLeaseDuration ∧ ∀s,t ≤ s → s<g.deadline →
      g.key∈((buildAuthorizationProjection order t0 data credentials).grantsAt serverID s).map
        key := by
  obtain ⟨hindex,hlen⟩ := build_index
  rw [grantsAt_eq hindex hlen] at hg
  obtain ⟨e,he,hgrant⟩ := mem_filterMap.mp hg
  unfold entryGrant at hgrant
  split_ifs at hgrant with hserver
  obtain ⟨i,hi,rfl⟩ := map_eq_some_iff.mp hgrant
  have hc : i.covers t=true := by simpa using find?_some hi
  have hstop : ∀x∈i.stop,t<x := by
    simp only [Span.covers,Bool.and_eq_true,Option.all_eq_true,decide_eq_true_eq] at hc
    exact hc.2
  have hlease : t<t+authorizationLeaseDuration := by
    have : (0 : Int)<authorizationLeaseDuration := by decide
    exact lt_add_of_pos_right t this
  refine ⟨?_,?_,fun s hts hs => ?_⟩
  · unfold leaseDeadline
    cases hst : i.stop with
    | none => exact hlease
    | some x => exact lt_min (hstop x hst) hlease
  · unfold leaseDeadline
    cases i.stop with
    | none => exact le_rfl
    | some x => exact min_le_right _ _
  · rw [grantsAt_eq hindex hlen,map_filterMap]
    refine mem_filterMap.mpr ⟨e,he,?_⟩
    rw [entryGrant_key]
    refine if_pos ⟨by simpa using hserver,i,mem_of_find?_eq_some hi,?_⟩
    refine Span.covers_of_le hc hts (fun x hx => lt_of_lt_of_le hs ?_)
    have hx : i.stop=some x := hx
    simp only [leaseDeadline,hx,elim_some]
    exact min_le_left _ _

end Future

/-- A projection answers a later instant like one built then, as far as its evaluated boundaries
reach. -/
theorem projection_answers_the_future (order order' : IterationOrder) (data : RoutingConfig)
    (credentials : List ProxyCredential) (serverID : Int) {t0 t : Time} (hpos : 0<t0) (hle : t0≤t)
    (hids : (data.users.map User.id).Nodup) (hcap : ∀user∈data.users,WithinCap data user t0 t) :
    ((buildAuthorizationProjection order t0 data credentials).grantsAt serverID t).map key=
      ((buildAuthorizationProjection order' t data credentials).grantsAt serverID t).map key ∧
    ∀g∈(buildAuthorizationProjection order t0 data credentials).grantsAt serverID t,
      t<g.deadline ∧ g.deadline≤t+authorizationLeaseDuration ∧
      ∀s,t ≤ s → s<g.deadline → (∀user∈data.users,WithinCap data user t0 s) →
        g.key∈((buildAuthorizationProjection order' s data credentials).grantsAt serverID s).map
          key := by
  have hsame {s : Time} (hs : t0 ≤ s) (hcap : ∀user∈data.users,WithinCap data user t0 s) :
      ((buildAuthorizationProjection order t0 data credentials).grantsAt serverID s).map key=
        ((buildAuthorizationProjection order' s data credentials).grantsAt serverID s).map
          key := by
    have hspos : 0<s := lt_of_lt_of_le hpos hs
    obtain ⟨hp,hasc⟩ := grantsAt_keys hpos hs hids hcap
    obtain ⟨hp',hasc'⟩ := grantsAt_keys hspos le_rfl hids (fun user _ => withinCap_self)
    have hkey : authorizedKey order data serverID s=authorizedKey order' data serverID s := by
      funext c
      exact if_congr (and_congr_right' (authorizedAt_order hspos.ne')) rfl rfl
    rw [hkey] at hp
    exact (hp.trans hp'.symm).eq_of_pairwise
      (fun _ _ _ _ h1 h2 => String.le_antisymm h1 h2) hasc hasc'
  refine ⟨hsame hle hcap,fun g hg => ?_⟩
  obtain ⟨h1,h2,h3⟩ := grantsAt_deadline hg
  exact ⟨h1,h2,fun s hts hs hcap' => hsame (hle.trans hts) hcap' ▸ h3 s hts hs⟩

def leaseUser : User := ⟨1,.active,0,0,"",0,"",0,.unset,0,[]⟩

def leaseCredential : ProxyCredential := ⟨"cred",1,1,0,"",0,.vless,true,false,"","",""⟩

def leaseConfig (exceptions : List UserNodeException) : RoutingConfig where
  users := [leaseUser]
  planBindings := []
  subscriptionPlans := []
  activePlanNodes := []
  userNodeExceptions := exceptions
  topology := ⟨[⟨1,1,true,.vless⟩],[],[]⟩

def inboundUntil (stop : Time) : UserNodeException :=
  ⟨0,1,.inbound,1,.allow,.active,none,some stop⟩

theorem projection_answers_expiry :
    ((buildAuthorizationProjection storedOrder 100 (leaseConfig [inboundUntil 200])
      [leaseCredential]).grantsAt 1 250).map key=
    ((buildAuthorizationProjection reversedOrder 250 (leaseConfig [inboundUntil 200])
      [leaseCredential]).grantsAt 1 250).map key :=
  (projection_answers_the_future storedOrder reversedOrder (leaseConfig [inboundUntil 200])
    [leaseCredential] 1 (by decide) (by decide) (by decide) (by decide +kernel)).1

def manyExceptions : List UserNodeException :=
  (List.range 32).map (fun n => ⟨n,1,.externalOutbound,n,.allow,.active,none,some (101+n)⟩)++
    [inboundUntil 200]

/-- The boundary behind the evaluated ones is missed, so the deadline is too late. -/
theorem deadline_beyond_evaluated_boundaries :
    (∀user∈(leaseConfig manyExceptions).users,WithinCap (leaseConfig manyExceptions) user 100 100) ∧
    ∃g∈(buildAuthorizationProjection storedOrder 100 (leaseConfig manyExceptions)
      [leaseCredential]).grantsAt 1 100,
      g.key="cred" ∧ 200<g.deadline ∧
      (buildAuthorizationProjection storedOrder 200 (leaseConfig manyExceptions)
        [leaseCredential]).grantsAt 1 200=[] := by
  refine ⟨fun user _ => withinCap_self,⟨"cred",100+authorizationLeaseDuration,none⟩,
    ?_,rfl,by decide,?_⟩
  · decide +kernel
  · decide +kernel

end Oboard.Controller
