import Oboard.Controller.AuthorizationLease
import Oboard.Store.AuthorizationStates

namespace Oboard.Controller

open GoText Spans Store List ServerGrant

def authorizationLeaseReissueAfter : Int := 30*second

structure AuthorizationLease where
  revision : Int
  sequence : Int
  digest : String
  expiresAt : Time
  grants : Table String Time
  denied : List String

structure BuiltProjection where
  routingRevision : Nat
  content : AuthorizationProjection

/-- The lease one server was last issued, with the address of the projection it comes from. The
zero boundary is none. -/
structure ServerAuthorizationLease where
  projection : Option Nat := none
  lease : Option AuthorizationLease := none
  issuedAt : Time := 0
  nextBoundary : Time := 0

def AuthorizationProjection.serverEdges (p : AuthorizationProjection) (serverID : Int) : List Time :=
  ((p.byServer.lookup serverID).getD []).flatMap (fun index => p.entries[index]?.elim []
    (fun entry => entry.intervals.flatMap (fun i => i.start::i.stop.toList)))

def considerEdge (after next edge : Time) : Time :=
  if edge=0 ∨ edge≤after then next else if next=0 ∨ edge<next then edge else next

def AuthorizationProjection.nextServerTransition (p : AuthorizationProjection) (serverID : Int)
    (after : Time) : Time :=
  (p.serverEdges serverID).foldl (considerEdge after) 0

/-- What identifies a grant: its credential and its business boundary. -/
def ServerGrant.identity (g : ServerGrant) : String×Option Time := (g.key,g.boundary)

def authorizationDigest (hash : List (String×Option Time) → String) (grants : List ServerGrant) :
    String :=
  hash (grants.map identity)

def ServerAuthorizationLease.reusable (state : ServerAuthorizationLease) (address : Nat) (now : Time) : Bool :=
  state.lease.any (fun lease => state.projection=some address &&
    0≤now-state.issuedAt && now-state.issuedAt<authorizationLeaseReissueAfter &&
    (state.nextBoundary=0 || now<state.nextBoundary) && lease.expiresAt≠0 && now<lease.expiresAt)

def pendingAuthorizationDenials (l : AuthorizationLedger) (serverID : Int) : List String :=
  (l.denials.rows.filterMap (fun row =>
    if row.1.1=serverID ∧ row.2.confirmedAt=none then some row.1.2 else none)).insertionSort (· ≤ ·)

/-- The lease a server must hold now: the recorded one while it is reusable, else a new one. A
projection in memory never changes. -/
def currentAuthorizationLease (hash : List (String×Option Time) → String)
    (memory : Nat → BuiltProjection) (address : Nat) (serverID : Int) (now : Time)
    (l : AuthorizationLedger) (state : ServerAuthorizationLease) :
    Except String (AuthorizationLedger×ServerAuthorizationLease) :=
  if state.reusable address now then .ok (l,state)
  else do
    let p := memory address
    let grants := p.content.grantsAt serverID now
    let expires := now+authorizationLeaseDuration
    let digest := authorizationDigest hash grants
    let (l,evaluation,sequence) ← evaluateAuthorizationDesiredWithSequence l serverID
      p.routingRevision digest (grants.map key) now expires
    let granted : Table String Time := Table.putAll ∅ (grants.map (fun g => (g.key,g.deadline)))
    let lease : AuthorizationLease := ⟨evaluation.state.desiredRevision,sequence,digest,expires,
      granted,(pendingAuthorizationDenials l serverID).filter (fun key => key∉granted)⟩
    return (l,⟨some address,some lease,now,p.content.nextServerTransition serverID now⟩)

open Option

section reuse

variable {p : AuthorizationProjection} {serverID : Int} {t0 t : Time}

theorem nextServerTransition_le (hpos : 0≤t0) (hedge : edge∈p.serverEdges serverID)
    (hlater : t0<edge) :
    p.nextServerTransition serverID t0≠0 ∧ p.nextServerTransition serverID t0≤edge := by
  have aux (edges : List Time) (next : Time) :
      (next≠0 → edges.foldl (considerEdge t0) next≠0 ∧ edges.foldl (considerEdge t0) next≤next) ∧
      ∀edge∈edges,t0<edge →
        edges.foldl (considerEdge t0) next≠0 ∧ edges.foldl (considerEdge t0) next≤edge := by
    induction edges generalizing next with
    | nil => exact ⟨fun h => ⟨h,le_rfl⟩,by simp⟩
    | cons first edges ih =>
      obtain ⟨hnext,hedges⟩ := ih (considerEdge t0 next first)
      have hkept : next≠0 → considerEdge t0 next first≠0 ∧ considerEdge t0 next first≤next := by
        intro hne
        unfold considerEdge
        split_ifs with hskip hless
        · exact ⟨hne,le_rfl⟩
        · exact ⟨fun h => hskip (.inl h),(hless.resolve_left hne).le⟩
        · exact ⟨hne,le_rfl⟩
      have hfirst : t0<first → considerEdge t0 next first≠0 ∧ considerEdge t0 next first≤first := by
        intro hlt
        have hne : first≠0 := (lt_of_le_of_lt hpos hlt).ne'
        unfold considerEdge
        rw [if_neg (by rw [not_or]; exact ⟨hne,not_le.mpr hlt⟩)]
        split_ifs with hless
        · exact ⟨hne,le_rfl⟩
        · rw [not_or,not_lt] at hless
          exact hless
      refine ⟨fun hne => ?_,forall_mem_cons.mpr ⟨fun hlt => ?_,hedges⟩⟩
      · obtain ⟨h0,hle⟩ := hkept hne
        exact ⟨(hnext h0).1,(hnext h0).2.trans hle⟩
      · obtain ⟨h0,hle⟩ := hfirst hlt
        exact ⟨(hnext h0).1,(hnext h0).2.trans hle⟩
  exact (aux _ 0).2 edge hedge hlater

/-- No edge of the server lies after the first instant and up to the second. -/
def NoEdge (p : AuthorizationProjection) (serverID : Int) (t0 t : Time) : Prop :=
  ∀edge∈p.serverEdges serverID,t0<edge → t<edge

variable {i : AuthorizationInterval}

theorem covers_of_noEdge (hle : t0≤t)
    (h : ∀edge∈i.start::i.stop.toList,t0<edge → t<edge) : i.covers t=i.covers t0 := by
  have hstart : i.start≤t ↔ i.start≤t0 :=
    ⟨fun hs => not_lt.mp fun hlt => (h _ mem_cons_self hlt).not_ge hs,fun hs => hs.trans hle⟩
  have hstop : i.stop.all (t<·)=i.stop.all (t0<·) := by
    cases hs : i.stop with
    | none => rfl
    | some e =>
      simp only [all_some,decide_eq_decide]
      exact ⟨fun hlt => lt_of_le_of_lt hle hlt,h e (by simp [hs])⟩
  simp only [Span.covers,hstart,hstop]

variable {entry : AuthorizationEntry}

theorem entry_edges (h : NoEdge p serverID t0 t)
    (hindex : index∈(p.byServer.lookup serverID).getD []) (hentry : p.entries[index]?=some entry)
    (hi : i∈entry.intervals) : ∀edge∈i.start::i.stop.toList,t0<edge → t<edge := by
  intro edge hedge
  refine h edge (mem_flatMap.mpr ⟨index,hindex,?_⟩)
  rw [hentry]
  exact mem_flatMap.mpr ⟨i,hi,hedge⟩

theorem grantAt_of_noEdge (hle : t0≤t)
    (h : ∀i∈entry.intervals,∀edge∈i.start::i.stop.toList,t0<edge → t<edge) :
    (entry.grantAt t).map identity=(entry.grantAt t0).map identity := by
  have hfind : entry.intervals.find? (·.covers t)= entry.intervals.find? (·.covers t0) :=
    find?_congr fun i hi => covers_of_noEdge hle (h i hi)
  simp only [AuthorizationEntry.grantAt,hfind,Option.map_map]
  rfl

theorem grantsAt_of_noEdge (hle : t0≤t) (h : NoEdge p serverID t0 t) :
    (p.grantsAt serverID t).map identity= (p.grantsAt serverID t0).map identity := by
  unfold AuthorizationProjection.grantsAt
  rw [map_filterMap,map_filterMap]
  refine filterMap_congr fun index hindex => ?_
  cases hentry : p.entries[index]? with
  | none => rfl
  | some entry => exact grantAt_of_noEdge hle fun i hi => entry_edges h hindex hentry hi

theorem deadline_after (hg : g∈p.grantsAt serverID t0)
    (h : NoEdge p serverID t0 t) (hlease : t<t0+authorizationLeaseDuration) : t<g.deadline := by
  obtain ⟨index,hindex,hgrant⟩ := mem_filterMap.mp hg
  obtain ⟨entry,hentry,hgrant⟩ := bind_eq_some_iff.mp hgrant
  obtain ⟨i,hfind,rfl⟩ := map_eq_some_iff.mp hgrant
  have hcovers : i.covers t0=true := by simpa using find?_some hfind
  have hedges := entry_edges h hindex hentry (mem_of_find?_eq_some hfind)
  unfold leaseDeadline
  cases hstop : i.stop with
  | none => exact hlease
  | some e =>
    simp only [Span.covers,hstop,all_some,Bool.and_eq_true,decide_eq_true_eq] at hcovers
    exact lt_min (hedges e (by simp [hstop]) hcovers.2) hlease

end reuse

/-- A reused lease says what it said when it was issued, with all deadlines ahead. -/
theorem reused_lease_is_sound (hash : List (String×Option Time) → String)
    (memory : Nat → BuiltProjection) (address later : Nat) (serverID : Int) (t0 t : Time)
    (l l' : AuthorizationLedger) (state issued : ServerAuthorizationLease) (hpos : 0<t0)
    (hfresh : state.reusable address t0=false)
    (hissue : currentAuthorizationLease hash memory address serverID t0 l state=.ok (l',issued))
    (hreuse : issued.reusable later t=true) :
    ((memory later).content.grantsAt serverID t).map identity=
      ((memory address).content.grantsAt serverID t0).map identity ∧
    ∃lease,issued.lease=some lease ∧
      authorizationDigest hash ((memory later).content.grantsAt serverID t)=lease.digest ∧
      ∀key deadline,lease.grants.lookup key=some deadline → t<deadline := by
  unfold currentAuthorizationLease at hissue
  rw [hfresh,if_neg Bool.false_ne_true] at hissue
  obtain ⟨⟨l1,evaluation,sequence⟩,-,hissue⟩ := Runs.bind_ok hissue
  obtain ⟨-,rfl⟩ := Prod.mk.inj (Except.ok.inj hissue)
  simp only [ServerAuthorizationLease.reusable,any_some,Bool.and_eq_true,Bool.or_eq_true,
    decide_eq_true_eq] at hreuse
  obtain ⟨⟨⟨⟨⟨haddress,hnonneg⟩,hshort⟩,hnext⟩,-⟩,-⟩ := hreuse
  obtain rfl := some.inj haddress
  have hle : t0≤t := sub_nonneg.mp hnonneg
  have hlease : t<t0+authorizationLeaseDuration := by
    have hwindow : authorizationLeaseReissueAfter≤authorizationLeaseDuration := by decide
    exact sub_lt_iff_lt_add'.mp (lt_of_lt_of_le hshort hwindow)
  have hedge : NoEdge (memory address).content serverID t0 t := by
    intro edge hedge hlater
    obtain ⟨hne,hbefore⟩ := nextServerTransition_le hpos.le hedge hlater
    exact lt_of_lt_of_le (hnext.resolve_left hne) hbefore
  have hsame := grantsAt_of_noEdge hle hedge
  refine ⟨hsame,_,rfl,congrArg hash hsame,fun key deadline hkey => ?_⟩
  rw [Table.lookup_putAll_map,AList.lookup_empty,or_none] at hkey
  obtain ⟨g,hfind,rfl⟩ := map_eq_some_iff.mp hkey
  exact deadline_after (mem_reverse.mp (mem_of_find?_eq_some hfind)) hedge hlease

def leasedProjection : BuiltProjection :=
  ⟨7,0,[⟨"cred",[1],[⟨5,some 100⟩]⟩],AList.insert 1 [0] ∅⟩

theorem lease_reused_before_its_edge :
    ∃issued,currentAuthorizationLease (fun _ => "digest") (fun _ => leasedProjection) 0 1 10 {} {}=
        .ok issued ∧
      issued.2.reusable 0 20=true ∧
      (leasedProjection.content.grantsAt 1 20).map identity=
        (leasedProjection.content.grantsAt 1 10).map identity := by
  refine ⟨_,rfl,by decide +kernel,?_⟩
  exact (reused_lease_is_sound (fun _ => "digest") (fun _ => leasedProjection) 0 0 1 10 20 {} _ {} _
    (by decide) rfl rfl (by decide +kernel)).1

end Oboard.Controller
