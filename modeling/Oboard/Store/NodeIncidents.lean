import Mathlib.Tactic.Tauto
import Oboard.Framework.GoText
import Oboard.Framework.Runs
import Oboard.Framework.Serial

namespace Oboard.Store

open Oboard.GoText Oboard.Runs List Table Serial

inductive NodeIncidentStatus where
  | active
  | recovering
  | resolved
  deriving DecidableEq, Repr

/-- The source writes and selects the one kind `server_offline`, so the kind column is left out. -/
structure NodeIncident where
  serverID : Int
  serverName : String
  status : NodeIncidentStatus := .active
  version : Int := 1
  firstOfflineAt : Time
  detectedAt : Time
  recoveryCandidateAt : Option Time := none
  recoveryDeadlineAt : Option Time := none
  recoveredAt : Option Time := none
  resolvedAt : Option Time := none
  outageDurationSeconds : Int := 0
  offlineThresholdSeconds : Int
  recoveryThresholdSeconds : Int
  flapCount : Int := 0
  snapshotJSON : String

def NodeIncident.unresolved (i : NodeIncident) : Bool := i.status≠.resolved

inductive RecoveryPolicy where
  | manual
  | auto
  deriving DecidableEq, Repr

def RecoveryPolicy.ofText (s : String) : Option RecoveryPolicy :=
  if s="manual" then some .manual else if s="auto" then some .auto else none

inductive IsolationStatus where
  | hidden
  | restored
  | removed
  deriving DecidableEq, Repr

structure NodePublicationIsolation where
  incidentID : Int
  inboundID : Option Int
  inboundName : String
  serverID : Int
  recoveryPolicy : RecoveryPolicy
  restoreAt : Option Time
  status : IsolationStatus := .hidden
  actorUserID : Int
  restoredBy : Option Int := none
  restoredAt : Option Time := none

structure IncidentStore where
  incidents : Serial NodeIncident := {}
  isolations : Serial NodePublicationIsolation := {}

namespace IncidentStore

def openIncident (σ : IncidentStore) (serverID : Int) : Option (Int×NodeIncident) :=
  Table.newest (σ.incidents.rows.rows.filter (fun r => r.2.serverID=serverID && r.2.unresolved))

def reopened (snapshotJSON : String) (i : NodeIncident) : NodeIncident :=
  {i with
    status := .active, version := i.version+1, recoveryCandidateAt := none,
    recoveryDeadlineAt := none, recoveredAt := none, resolvedAt := none,
    outageDurationSeconds := 0, flapCount := i.flapCount+1, snapshotJSON := snapshotJSON}

/-- The flag tells whether the incident is a new one. -/
def openOrReopenNodeIncident (σ : IncidentStore) (serverID : Int) (serverName : String)
    (firstOfflineAt detectedAt : Time) (offlineThreshold recoveryThreshold : Int)
    (snapshotJSON : String) : Except String (IncidentStore×(Int×NodeIncident)×Bool) :=
  if serverID≤0 then .error "node incident requires a server" else
  let snapshotJSON := if trimSpace snapshotJSON="" then "\x7b\x7d" else snapshotJSON
  match σ.openIncident serverID with
  | none =>
    let item : NodeIncident :=
      {serverID := serverID, serverName := serverName, firstOfflineAt := firstOfflineAt,
        detectedAt := detectedAt, offlineThresholdSeconds := offlineThreshold.tdiv second,
        recoveryThresholdSeconds := recoveryThreshold.tdiv second, snapshotJSON := snapshotJSON}
    .ok ({σ with incidents := σ.incidents.add item},(σ.incidents.next,item),true)
  | some (id,item) =>
    if item.status=.recovering then
      .ok ({σ with incidents := σ.incidents.update fun id' r =>
          if id'=id ∧ r.version=item.version then reopened snapshotJSON r else r},
        (id,reopened snapshotJSON item),false)
    else .ok (σ,(id,item),false)

def markNodeIncidentRecovering (σ : IncidentStore) (serverID : Int) (candidateAt : Time)
    (recoveryThreshold : Int) : IncidentStore :=
  {σ with incidents := σ.incidents.update fun _ r =>
    if r.serverID=serverID ∧ r.status=.active then
      {r with
        status := .recovering, version := r.version+1, recoveryCandidateAt := some candidateAt,
        recoveryDeadlineAt := some (candidateAt+recoveryThreshold),
        recoveredAt := some candidateAt,
        recoveryThresholdSeconds := recoveryThreshold.tdiv second}
    else r}

def resolved (resolvedAt : Time) (duration : Int) (i : NodeIncident) : NodeIncident :=
  {i with
    status := .resolved, version := i.version+1, resolvedAt := some resolvedAt,
    outageDurationSeconds := duration}

def resolveNodeIncident (σ : IncidentStore) (incidentID expectedVersion : Int) (resolvedAt : Time) :
    Except String IncidentStore :=
  match σ.incidents.lookup incidentID with
  | none => .error "sql: no rows in result set"
  | some item =>
    match item.recoveryCandidateAt with
    | none => .error "node incident recovery state changed"
    | some candidateAt =>
      if item.status≠.recovering ∨ item.version≠expectedVersion then
        .error "node incident recovery state changed"
      else
        .ok {
          incidents := σ.incidents.update fun id r =>
            if id=incidentID then
              resolved resolvedAt (max 0 ((candidateAt-item.firstOfflineAt).tdiv second)) r
            else r
          isolations := σ.isolations.update fun _ r =>
            if r.incidentID=incidentID ∧ r.status=.hidden ∧ r.recoveryPolicy=.auto then
              {r with status := .restored, restoredAt := some resolvedAt}
            else r}

def hiddenFor (inboundID : Int) (r : NodePublicationIsolation) : Bool :=
  r.status=.hidden && r.inboundID=some inboundID

/-- A row already hidden for the inbound takes the new policy and keeps its incident. -/
def rehide (inboundID : Int) (row r : NodePublicationIsolation) : NodePublicationIsolation :=
  if hiddenFor inboundID r then
    {r with
      recoveryPolicy := row.recoveryPolicy, restoreAt := row.restoreAt,
      actorUserID := row.actorUserID}
  else r

def hide (t : Serial NodePublicationIsolation) (inboundID : Int) (row : NodePublicationIsolation) :
    Serial NodePublicationIsolation :=
  if t.rows.rows.any (fun r => hiddenFor inboundID r.2) then
    t.update (fun _ => rehide inboundID row)
  else t.add row

/-- One turn of the loop over the requested inbounds, with the inbounds seen so far. -/
def isolateInbound (inbounds : Table Int (String×Int)) (incidentID : Int) (incident : NodeIncident)
    (actorUserID : Int) (policy : RecoveryPolicy) (restoreAt : Option Time)
    (s : Serial NodePublicationIsolation×List Int) (inboundID : Int) :
    Except String (Serial NodePublicationIsolation×List Int) :=
  if inboundID≤0 ∨ inboundID∈s.2 then .ok s else
  match inbounds.lookup inboundID with
  | none => .error "sql: no rows in result set"
  | some (name,serverID) =>
    if serverID≠incident.serverID then
      .error ("inbound "++toString inboundID++" is not on incident server")
    else
      .ok (hide s.1 inboundID
        {incidentID := incidentID, inboundID := some inboundID, inboundName := name,
          serverID := serverID, recoveryPolicy := policy, restoreAt := restoreAt.filter (·≠0),
          actorUserID := actorUserID},inboundID::s.2)

def createNodePublicationIsolations (σ : IncidentStore) (inbounds : Table Int (String×Int))
    (incidentID actorUserID : Int) (inboundIDs : List Int) (recoveryPolicy : String)
    (restoreAt : Option Time) : Except String IncidentStore := do
  match RecoveryPolicy.ofText recoveryPolicy with
  | none => .error "recovery policy must be manual or auto"
  | some policy =>
    if policy=.auto ∧ restoreAt≠none then
      .error "until-online isolation does not take an end time"
    else
      match σ.incidents.lookup incidentID with
      | none => .error "sql: no rows in result set"
      | some incident =>
        if incident.status=.resolved then .error "resolved node incident is read-only" else
        let (isolations,seen) ← inboundIDs.foldlM
          (isolateInbound inbounds incidentID incident actorUserID policy restoreAt)
          (σ.isolations,[])
        if seen=[] then .error "at least one inbound is required"
        else .ok {σ with isolations := isolations}

/-- The columns hold texts, and the query compares the texts. -/
def restoreDueNodePublicationIsolations (σ : IncidentStore) (at' : Time) : IncidentStore :=
  {σ with isolations := σ.isolations.update fun _ r =>
    if r.status=.hidden ∧
        r.restoreAt.any (fun t => decide (formatRFC3339Nano t≤formatRFC3339Nano at')) then
      {r with status := .restored, restoredAt := some at'}
    else r}

def restoreNodePublicationIsolation (σ : IncidentStore) (isolationID actorUserID : Int)
    (now : Time) : Except String IncidentStore :=
  match σ.isolations.lookup isolationID with
  | some ⟨_,_,_,_,_,_,.hidden,_,_,_⟩ =>
    .ok {σ with isolations := σ.isolations.update fun id r =>
      if id=isolationID ∧ r.status=.hidden then
        {r with status := .restored, restoredBy := some actorUserID, restoredAt := some now}
      else r}
  | _ => .error "sql: no rows in result set"

inductive Call where
  | openOrReopen (serverID : Int) (serverName : String) (firstOfflineAt detectedAt : Time)
      (offlineThreshold recoveryThreshold : Int) (snapshotJSON : String)
  | markRecovering (serverID : Int) (candidateAt : Time) (recoveryThreshold : Int)
  | resolve (incidentID expectedVersion : Int) (resolvedAt : Time)
  | isolate (inbounds : Table Int (String×Int)) (incidentID actorUserID : Int)
      (inboundIDs : List Int) (recoveryPolicy : String) (restoreAt : Option Time)
  | restoreDue (now : Time)
  | restore (isolationID actorUserID : Int) (now : Time)

/-- A failed call rolls its transaction back. -/
def step (σ : IncidentStore) : Call → IncidentStore×List Unit
  | .openOrReopen serverID serverName first detected offline recovery snapshot =>
    (keepOnError σ ((σ.openOrReopenNodeIncident serverID serverName first detected offline recovery
      snapshot).map (·.1)),[])
  | .markRecovering serverID candidateAt threshold =>
    (σ.markNodeIncidentRecovering serverID candidateAt threshold,[])
  | .resolve id version at' => (keepOnError σ (σ.resolveNodeIncident id version at'),[])
  | .isolate inbounds id actor ids policy restoreAt =>
    (keepOnError σ (σ.createNodePublicationIsolations inbounds id actor ids policy restoreAt),[])
  | .restoreDue now => (σ.restoreDueNodePublicationIsolations now,[])
  | .restore id actor now => (keepOnError σ (σ.restoreNodePublicationIsolation id actor now),[])

def OneOpen (t : Serial NodeIncident) : Prop :=
  ∀i j a b,t.lookup i=some a → t.lookup j=some b → a.unresolved → b.unresolved →
    a.serverID=b.serverID → i=j

def Unresolved (t : Serial NodeIncident) (id : Int) : Prop :=
  ∃i,t.lookup id=some i ∧ i.unresolved

def untilOnline (r : NodePublicationIsolation) : Bool := r.status=.hidden && r.recoveryPolicy=.auto

section

variable (opened : Int → Prop) (t : Serial NodePublicationIsolation)

/-- Each row hidden until the server is back belongs to an incident of the given kind. -/
def Belongs : Prop :=
  ∀k r,t.lookup k=some r → untilOnline r → opened r.incidentID

/-- The row hidden for an inbound, if any, belongs to an incident of the given kind. -/
def Attached (inboundID : Int) : Prop :=
  ∀k r,t.lookup k=some r → hiddenFor inboundID r → opened r.incidentID

end

variable {id : Int}

theorem openIncident_none {σ : IncidentStore}
    (h : σ.openIncident serverID=none) (hitem : σ.incidents.lookup id=some item)
    (hopen : item.unresolved) : item.serverID≠serverID := by
  intro hserver
  rw [openIncident,newest_eq_none,filter_eq_nil_iff] at h
  exact h (id,item) (mem_rows.mpr hitem) (by simp [hserver,hopen])

section incidents

theorem OneOpen.add (h : OneOpen t)
    (hnew : ∀i a,t.lookup i=some a → a.unresolved → a.serverID≠item.serverID) :
    OneOpen (t.add item) := by
  intro i j a b ha hb hao hbo hs
  rw [lookup_add] at ha hb
  split_ifs at ha hb with hi hj hj
  · rw [hi,hj]
  · cases ha
    exact absurd hs.symm (hnew j b hb hbo)
  · cases hb
    exact absurd hs (hnew i a ha hao)
  · exact h i j a b ha hb hao hbo hs

theorem OneOpen.update (h : OneOpen t) (hf : ∀i a,t.lookup i=some a →
      (f i a).serverID=a.serverID ∧ ((f i a).unresolved → a.unresolved)) :
    OneOpen (t.update f) := by
  intro i j a b ha hb hao hbo hs
  rw [lookup_update,Option.map_eq_some_iff] at ha hb
  obtain ⟨a,ha,rfl⟩ := ha
  obtain ⟨b,hb,rfl⟩ := hb
  have ⟨hsa,hua⟩ := hf i a ha
  have ⟨hsb,hub⟩ := hf j b hb
  exact h i j a b ha hb (hua hao) (hub hbo) (by rw [← hsa,← hsb,hs])

theorem Unresolved.add (h : Unresolved t id) (item) : Unresolved (t.add item) id := by
  obtain ⟨i,hi,ho⟩ := h
  exact ⟨i,lookup_add_of_some hi,ho⟩

theorem Unresolved.update (h : Unresolved t id)
    (hf : ∀i,t.lookup id=some i → i.unresolved → (f id i).unresolved) :
    Unresolved (t.update f) id := by
  obtain ⟨i,hi,ho⟩ := h
  exact ⟨f id i,by rw [lookup_update,hi]; rfl,hf i hi ho⟩

end incidents

section isolations

theorem Belongs.update (h : Belongs opened t)
    (hf : ∀k r,t.lookup k=some r → untilOnline (f k r) → f k r=r) : Belongs opened (t.update f) := by
  intro k r hr hu
  rw [lookup_update,Option.map_eq_some_iff] at hr
  obtain ⟨r,hr,rfl⟩ := hr
  have hsame := hf k r hr hu
  rw [hsame] at hu ⊢
  exact h k r hr hu

theorem lookup_hide (h : t.lookup k=some r) :
    (hide t inboundID row).lookup k=some (rehide inboundID row r) := by
  unfold hide
  split_ifs with hany
  · rw [lookup_update,h]
    rfl
  have hnot : hiddenFor inboundID r=false := by
    simp only [any_eq_true,not_exists,not_and,Bool.not_eq_true] at hany
    exact hany (k,r) (mem_rows.mpr h)
  rw [lookup_add_of_some h,rehide,hnot]
  rfl

theorem of_lookup_hide (h : (hide t inboundID row).lookup k=some r) :
    r=row ∨ ∃old,t.lookup k=some old ∧ r=rehide inboundID row old := by
  cases hold : t.lookup k with
  | some old =>
    rw [lookup_hide hold] at h
    exact .inr ⟨old,rfl,(Option.some.inj h).symm⟩
  | none =>
    unfold hide at h
    split_ifs at h
    · rw [lookup_update,hold] at h
      cases h
    rw [lookup_add,hold] at h
    split_ifs at h
    exact .inl (Option.some.inj h).symm

theorem rehide_incidentID : (rehide inboundID row r).incidentID=r.incidentID := by
  unfold rehide
  split_ifs <;> rfl

theorem hiddenFor_rehide : hiddenFor j (rehide inboundID row r)=hiddenFor j r := by
  unfold rehide
  split_ifs <;> rfl

theorem untilOnline_rehide : untilOnline (rehide inboundID row r)=
      if hiddenFor inboundID r then decide (row.recoveryPolicy=.auto) else untilOnline r := by
  unfold rehide
  split_ifs with h
  · simp only [hiddenFor,Bool.and_eq_true] at h
    simp [untilOnline,h.1]
  · rfl

theorem attached_hide (hopen : opened row.incidentID) :
    Attached opened (hide t inboundID row) j ↔ Attached opened t j := by
  constructor
  · intro h k r hr hh
    rw [← rehide_incidentID]
    exact h k _ (lookup_hide hr) (by rwa [hiddenFor_rehide])
  intro h k r hr hh
  rcases of_lookup_hide hr with rfl | ⟨old,hold,rfl⟩
  · exact hopen
  · rw [rehide_incidentID]
    exact h k old hold (by rwa [hiddenFor_rehide] at hh)

/-- Hiding until the server is back also claims the row that was already hidden. -/
theorem belongs_hide_auto (hopen : opened row.incidentID) (hauto : row.recoveryPolicy=.auto) :
    Belongs opened (hide t inboundID row) ↔ Belongs opened t ∧ Attached opened t inboundID := by
  constructor
  · intro h
    have hold k r (hr : t.lookup k=some r)
        (hu : hiddenFor inboundID r ∨ untilOnline r) : opened r.incidentID := by
      rw [← rehide_incidentID]
      refine h k _ (lookup_hide hr) ?_
      rw [untilOnline_rehide]
      split_ifs with hh
      · exact decide_eq_true hauto
      · exact hu.resolve_left hh
    exact ⟨fun k r hr hu => hold k r hr (.inr hu),fun k r hr hh => hold k r hr (.inl hh)⟩
  · rintro ⟨hb,ha⟩ k r hr hu
    rcases of_lookup_hide hr with rfl | ⟨old,hold,rfl⟩
    · exact hopen
    rw [rehide_incidentID]
    rw [untilOnline_rehide] at hu
    split_ifs at hu with hh
    · exact ha k old hold hh
    · exact hb k old hold hu

theorem belongs_hide_manual (hopen : opened row.incidentID) (hmanual : row.recoveryPolicy=.manual)
    (h : Belongs opened t) : Belongs opened (hide t inboundID row) := by
  intro k r hr hu
  rcases of_lookup_hide hr with rfl | ⟨old,hold,rfl⟩
  · exact hopen
  rw [rehide_incidentID]
  rw [untilOnline_rehide,hmanual] at hu
  split_ifs at hu
  · exact nomatch hu
  · exact h k old hold hu

end isolations

section loop

variable {opened : Int → Prop} {inbounds : Table Int (String×Int)}
  {incident : NodeIncident} {policy : RecoveryPolicy}

/-- What the loop found of the inbounds it went through, and what it did to the rows. -/
structure Isolated (opened : Int → Prop) (inbounds : Table Int (String×Int))
    (incident : NodeIncident) (policy : RecoveryPolicy) (inboundIDs : List Int)
    (s s' : Serial NodePublicationIsolation×List Int) : Prop where
  found : ∀id∈inboundIDs,0< id → id∉s.2 → ∃name,inbounds.lookup id=some (name,incident.serverID)
  seen : s'.2=[] ↔ s.2=[] ∧ ∀id∈inboundIDs,¬0< id
  auto : policy=.auto → (Belongs opened s'.1 ↔
    Belongs opened s.1 ∧ ∀id∈inboundIDs,0< id → id∉s.2 → Attached opened s.1 id)
  manual : policy=.manual → Belongs opened s.1 → Belongs opened s'.1

theorem isolateInbound_cases
    (h : isolateInbound inbounds incidentID incident actorUserID policy restoreAt s inboundID=.ok s') :
    (s'=s ∧ (inboundID≤0 ∨ inboundID∈s.2)) ∨ (0< inboundID ∧ inboundID∉s.2 ∧
        (∃name,inbounds.lookup inboundID=some (name,incident.serverID)) ∧
        ∃row : NodePublicationIsolation,row.incidentID=incidentID ∧ row.recoveryPolicy=policy ∧
          s'=(hide s.1 inboundID row,inboundID::s.2)) := by
  unfold isolateInbound at h
  split_ifs at h with hskip
  · exact .inl ⟨(Except.ok.inj h).symm,hskip⟩
  rw [not_or,not_le] at hskip
  split at h
  · cases h
  rename_i name serverID hlookup
  split_ifs at h with hserver
  rw [not_not] at hserver
  subst hserver
  exact .inr ⟨hskip.1,hskip.2,⟨name,hlookup⟩,_,rfl,rfl,(Except.ok.inj h).symm⟩

theorem isolated_of_ok (hopen : opened incidentID) (h : inboundIDs.foldlM
      (isolateInbound inbounds incidentID incident actorUserID policy restoreAt) s=.ok s') :
    Isolated opened inbounds incident policy inboundIDs s s' := by
  induction inboundIDs generalizing s with
  | nil =>
    cases h
    exact ⟨by simp,by simp,by simp,fun _ hb => hb⟩
  | cons id ids ih =>
    obtain ⟨s1,h1,h⟩ := bind_ok h
    have hrest := ih h
    rcases isolateInbound_cases h1 with ⟨rfl,hskip⟩ | ⟨hpos,hnew,hfound,row,hrow,hpolicy,rfl⟩
    · have hvoid P hp hs : P :=
        (hskip.elim (fun hle => not_lt.mpr hle hp) hs).elim
      have hseen : s1.2=[] → ¬0< id := by
        intro hnil hp
        rw [hnil] at hskip
        exact hskip.elim (fun hle => not_lt.mpr hle hp) nofun
      refine ⟨?_,?_,fun ha => ?_,hrest.manual⟩
      · exact forall_mem_cons.mpr ⟨hvoid _,hrest.found⟩
      · rw [hrest.seen,forall_mem_cons]
        tauto
      · rw [hrest.auto ha,forall_mem_cons]
        exact and_congr_right fun _ => (and_iff_right (hvoid _)).symm
    · have hopen' : opened row.incidentID := hrow ▸ hopen
      -- a later turn for the same inbound is skipped, so the first one has to answer for it
      have hlater {P : Int → Prop} (hid : P id) :
          (∀j∈ids,0<j → j∉id::s.2 → P j) ↔ ∀j∈ids,0<j → j∉s.2 → P j := by
        refine forall₃_congr fun j _ _ => ⟨fun hj hs => ?_,fun hj hs => ?_⟩
        · by_cases hji : j=id
          · exact hji ▸ hid
          · exact hj (by simp [hji,hs])
        · exact hj (fun hmem => hs (mem_cons_of_mem _ hmem))
      refine ⟨?_,?_,fun ha => ?_,fun hm hb => ?_⟩
      · exact forall_mem_cons.mpr ⟨fun _ _ => hfound,(hlater hfound).mp hrest.found⟩
      · simp [hrest.seen,hpos]
      · rw [hrest.auto ha,belongs_hide_auto hopen' (hpolicy.trans ha),forall_mem_cons]
        simp only [attached_hide hopen',and_assoc]
        refine and_congr_right fun _ => ?_
        constructor
        · exact fun ⟨hid,hids⟩ => ⟨fun _ _ => hid,(hlater hid).mp hids⟩
        · exact fun ⟨hid,hids⟩ => ⟨hid hpos hnew,(hlater (hid hpos hnew)).mpr hids⟩
      · exact hrest.manual hm (belongs_hide_manual hopen' (hpolicy.trans hm) hb)

theorem isolate_all {inboundIDs : List Int}
    (h : ∀id∈inboundIDs,0< id → ∃name,inbounds.lookup id=some (name,incident.serverID))
    : ∃s',inboundIDs.foldlM
      (isolateInbound inbounds incidentID incident actorUserID policy restoreAt) s=.ok s' := by
  refine foldlM_ok (fun id hid s => ?_) s
  unfold isolateInbound
  split_ifs with hskip
  · exact ⟨s,rfl⟩
  rw [not_or,not_le] at hskip
  obtain ⟨name,hname⟩ := h id hid hskip.1
  rw [hname]
  exact ⟨_,if_neg (not_not_intro rfl)⟩

end loop

/-- A request to hide inbounds that names an unresolved incident and inbounds of its server. -/
def Accepted (σ : IncidentStore) (inbounds : Table Int (String×Int)) (incidentID : Int)
    (inboundIDs : List Int) : Prop :=
  ∃incident,σ.incidents.lookup incidentID=some incident ∧ incident.unresolved ∧
    (∃id∈inboundIDs,0< id) ∧
    ∀id∈inboundIDs,0< id → ∃name,inbounds.lookup id=some (name,incident.serverID)

/-- An accepted request to hide until recovery meets no row hidden for an incident that is over. -/
def JoinsOpenIncident (σ : IncidentStore) : Call → Prop
  | .isolate inbounds incidentID _ inboundIDs recoveryPolicy restoreAt =>
    recoveryPolicy="auto" → restoreAt=none → σ.Accepted inbounds incidentID inboundIDs →
      ∀id∈inboundIDs,0< id → Attached (Unresolved σ.incidents) σ.isolations id
  | _ => True

structure Tracked (σ : IncidentStore) : Prop where
  oneOpen : OneOpen σ.incidents
  belongs : Belongs (Unresolved σ.incidents) σ.isolations

/-- Resolving the incident brings back every row hidden until its recovery. -/
structure ComesBack (σ : IncidentStore) : Prop where
  oneOpen : OneOpen σ.incidents
  restored : ∀k r,σ.isolations.lookup k=some r → untilOnline r →
    Unresolved σ.incidents r.incidentID ∧
    ∀version at' σ',σ.resolveNodeIncident r.incidentID version at'=.ok σ' →
      ∃r',σ'.isolations.lookup k=some r' ∧ r'.status=.restored

variable {σ σ' : IncidentStore}

theorem resolveNodeIncident_ok (h : σ.resolveNodeIncident id version at'=.ok σ') : ∃duration,
      σ'.incidents=σ.incidents.update (fun i r => if i=id then resolved at' duration r else r) ∧
      σ'.isolations=σ.isolations.update (fun _ r =>
        if r.incidentID=id ∧ r.status=.hidden ∧ r.recoveryPolicy=.auto then
          {r with status := .restored, restoredAt := some at'}
        else r) := by
  unfold resolveNodeIncident at h
  split at h
  · cases h
  split at h
  · cases h
  split_ifs at h
  cases h
  exact ⟨_,rfl,rfl⟩

theorem comesBack_iff : ComesBack σ ↔ Tracked σ := by
  refine ⟨fun h => ⟨h.oneOpen,fun k r hr hu => (h.restored k r hr hu).1⟩,fun h => ⟨h.oneOpen,?_⟩⟩
  intro k r hr hu
  refine ⟨h.belongs k r hr hu,fun version at' σ' hres => ?_⟩
  obtain ⟨-,-,hiso⟩ := resolveNodeIncident_ok hres
  simp only [untilOnline,Bool.and_eq_true,decide_eq_true_eq] at hu
  rw [hiso,lookup_update,hr,Option.map_some,if_pos ⟨rfl,hu⟩]
  exact ⟨_,rfl,rfl⟩

namespace Tracked

variable (h : Tracked σ)

include h

theorem openOrReopen {serverID : Int}
    (hcall : σ.openOrReopenNodeIncident serverID serverName first detected offline recovery
      snapshot=.ok (σ',answer)) : Tracked σ' := by
  unfold openOrReopenNodeIncident at hcall
  split at hcall
  · cases hcall
  generalize (if trimSpace snapshot="" then "\x7b\x7d" else snapshot)=snapshot at hcall
  cases hopen : σ.openIncident serverID with
  | none =>
    rw [hopen] at hcall
    cases hcall
    refine ⟨h.oneOpen.add fun i a ha ho => openIncident_none hopen ha ho,fun k r hr hu => ?_⟩
    exact (h.belongs k r hr hu).add _
  | some found =>
    obtain ⟨id,item⟩ := found
    have hitem : σ.incidents.lookup id=some item :=
      mem_rows.mp (mem_filter.mp (newest_mem hopen)).1
    rw [hopen] at hcall
    dsimp only at hcall
    split_ifs at hcall with hrec
    · cases hcall
      refine ⟨h.oneOpen.update fun i a ha => ?_,fun k r hr hu => (h.belongs k r hr hu).update ?_⟩
      · split_ifs with hi
        · rw [hi.1,hitem,Option.some.injEq] at ha
          subst ha
          exact ⟨rfl,fun _ => by rw [NodeIncident.unresolved,hrec]; rfl⟩
        · exact ⟨rfl,fun ho => ho⟩
      · intro i _ ho
        split_ifs
        · rfl
        · exact ho
    · cases hcall
      exact h

theorem markRecovering (serverID) (candidateAt) (threshold) :
    Tracked (σ.markNodeIncidentRecovering serverID candidateAt threshold) := by
  refine ⟨h.oneOpen.update fun i a _ => ?_,fun k r hr hu => (h.belongs k r hr hu).update ?_⟩
  · split_ifs with hi
    · exact ⟨rfl,fun _ => by rw [NodeIncident.unresolved,hi.2]; rfl⟩
    · exact ⟨rfl,id⟩
  intro i _ ho
  split_ifs
  · rfl
  · exact ho

theorem resolve (hcall : σ.resolveNodeIncident id version at'=.ok σ') : Tracked σ' := by
  obtain ⟨duration,hinc,hiso⟩ := resolveNodeIncident_ok hcall
  refine ⟨?_,fun k r hr hu => ?_⟩
  · rw [hinc]
    refine h.oneOpen.update fun i a _ => ?_
    split_ifs
    · exact ⟨rfl,nofun⟩
    · exact ⟨rfl,fun ho => ho⟩
  · rw [hiso,lookup_update,Option.map_eq_some_iff] at hr
    obtain ⟨old,hold,rfl⟩ := hr
    split_ifs at hu ⊢ with hrestored
    · exact nomatch hu
    rw [hinc]
    refine (h.belongs k old hold hu).update fun i _ ho => ?_
    simp only [untilOnline,Bool.and_eq_true,decide_eq_true_eq] at hu
    rw [if_neg fun heq => hrestored ⟨heq,hu⟩]
    exact ho

theorem restoreDue (now) : Tracked (σ.restoreDueNodePublicationIsolations now) := by
  refine ⟨h.oneOpen,h.belongs.update fun k r _ hu => ?_⟩
  split_ifs at hu ⊢
  · exact nomatch hu
  · rfl

theorem restore (hcall : σ.restoreNodePublicationIsolation id actor now=.ok σ') : Tracked σ' := by
  unfold restoreNodePublicationIsolation at hcall
  split at hcall
  · cases hcall
    refine ⟨h.oneOpen,h.belongs.update fun k r _ hu => ?_⟩
    split_ifs at hu ⊢
    · exact nomatch hu
    · rfl
  · cases hcall

end Tracked

section isolate

theorem createNodePublicationIsolations_ok :
    σ.createNodePublicationIsolations inbounds incidentID actorUserID inboundIDs recoveryPolicy
        restoreAt=.ok σ' ↔
      ∃policy incident s',RecoveryPolicy.ofText recoveryPolicy=some policy ∧
        ¬(policy=.auto ∧ restoreAt≠none) ∧ σ.incidents.lookup incidentID=some incident ∧
        incident.status≠.resolved ∧
        inboundIDs.foldlM (isolateInbound inbounds incidentID incident actorUserID policy restoreAt)
          (σ.isolations,[])=.ok s' ∧ s'.2≠[] ∧ σ'={σ with isolations := s'.1} := by
  unfold createNodePublicationIsolations
  constructor
  · intro h
    split at h
    · cases h
    rename_i policy hpolicy
    split_ifs at h with hend
    split at h
    · cases h
    rename_i incident hincident
    split_ifs at h with hres
    obtain ⟨s',hs,h⟩ := bind_ok h
    dsimp only at h
    split_ifs at h with hseen
    exact ⟨policy,incident,s',hpolicy,hend,hincident,hres,hs,hseen,(Except.ok.inj h).symm⟩
  · rintro ⟨policy,incident,s',hpolicy,hend,hincident,hres,hs,hseen,rfl⟩
    rw [hpolicy]
    dsimp only
    rw [if_neg hend,hincident]
    dsimp only
    rw [if_neg hres,hs]
    exact if_neg hseen

theorem ofText_auto : RecoveryPolicy.ofText s=some .auto ↔ s="auto" := by
  unfold RecoveryPolicy.ofText
  split_ifs with hm ha
  · simp [hm]
  · simp [ha]
  · simp [ha]

theorem Tracked.isolate_iff (h : Tracked σ) :
    Tracked (keepOnError σ (σ.createNodePublicationIsolations inbounds incidentID actorUserID
      inboundIDs recoveryPolicy restoreAt)) ↔
    σ.JoinsOpenIncident
      (.isolate inbounds incidentID actorUserID inboundIDs recoveryPolicy restoreAt) := by
  cases hcall : σ.createNodePublicationIsolations inbounds incidentID actorUserID inboundIDs
    recoveryPolicy restoreAt with
  | error e =>
    refine iff_of_true h ?_
    rintro hauto hend ⟨incident,hincident,hopen,⟨id,hid,hpos⟩,hfound⟩
    obtain ⟨s',hs⟩ : ∃s',inboundIDs.foldlM (isolateInbound inbounds incidentID incident actorUserID
        .auto restoreAt) (σ.isolations,[])=.ok s' := isolate_all hfound
    have hdone : Isolated (Unresolved σ.incidents) inbounds incident .auto inboundIDs
        (σ.isolations,[]) s' := isolated_of_ok ⟨incident,hincident,hopen⟩ hs
    have hseen : s'.2≠[] := fun hnil => (hdone.seen.mp hnil).2 id hid hpos
    have hok := createNodePublicationIsolations_ok.mpr
      ⟨.auto,incident,s',ofText_auto.mpr hauto,fun hne => hne.2 hend,hincident,
        of_decide_eq_true hopen,hs,hseen,rfl⟩
    rw [hcall] at hok
    cases hok
  | ok σ' =>
    obtain ⟨policy,incident,s',hpolicy,hend,hincident,hres,hs,hseen,rfl⟩ :=
      createNodePublicationIsolations_ok.mp hcall
    have hdone : Isolated (Unresolved σ.incidents) inbounds incident policy inboundIDs
        (σ.isolations,[]) s' := isolated_of_ok ⟨incident,hincident,decide_eq_true hres⟩ hs
    cases policy with
    | manual =>
      refine iff_of_true ⟨h.oneOpen,hdone.manual rfl h.belongs⟩ fun hauto => ?_
      rw [ofText_auto.mpr hauto] at hpolicy
      cases hpolicy
    | auto =>
      have hbelongs := hdone.auto rfl
      rw [and_iff_right h.belongs] at hbelongs
      constructor
      · exact fun ht _ _ _ id hid hpos => hbelongs.mp ht.belongs id hid hpos (not_mem_nil)
      intro hjoin
      have hsome : ∃id∈inboundIDs,0< id := by
        by_contra hnone
        push Not at hnone
        exact hseen (hdone.seen.mpr ⟨rfl,fun id hid => not_lt.mpr (hnone id hid)⟩)
      refine ⟨h.oneOpen,hbelongs.mpr fun id hid hpos _ => ?_⟩
      refine hjoin (ofText_auto.mp hpolicy) (by_contra fun hne => hend ⟨rfl,hne⟩) ?_ id hid hpos
      exact ⟨incident,hincident,decide_eq_true hres,hsome,
        fun id hid hpos => hdone.found id hid hpos not_mem_nil⟩

end isolate

theorem Tracked.step_iff (h : Tracked σ) (call) :
    Tracked (σ.step call).1 ↔ σ.JoinsOpenIncident call := by
  cases call with
  | openOrReopen serverID serverName first detected offline recovery snapshot =>
    refine iff_of_true ?_ trivial
    cases hcall : σ.openOrReopenNodeIncident serverID serverName first detected offline recovery
      snapshot with
    | error e => simpa [step,hcall,Except.map,keepOnError] using h
    | ok answer => simpa [step,hcall,Except.map,keepOnError] using h.openOrReopen hcall
  | markRecovering serverID candidateAt threshold =>
    exact iff_of_true (h.markRecovering serverID candidateAt threshold) trivial
  | resolve id version at' =>
    refine iff_of_true ?_ trivial
    cases hcall : σ.resolveNodeIncident id version at' with
    | error e => simpa [step,hcall,keepOnError] using h
    | ok σ' => simpa [step,hcall,keepOnError] using h.resolve hcall
  | isolate inbounds id actor ids policy restoreAt => exact h.isolate_iff
  | restoreDue now => exact iff_of_true (h.restoreDue now) trivial
  | restore id actor now =>
    refine iff_of_true ?_ trivial
    cases hcall : σ.restoreNodePublicationIsolation id actor now with
    | error e => simpa [step,hcall,keepOnError] using h
    | ok σ' => simpa [step,hcall,keepOnError] using h.restore hcall

/-- Hidden nodes come back exactly when no request to hide meets a row that a resolved incident left
hidden. -/
theorem hidden_nodes_come_back_iff (calls : List Call) :
    (∀before,before<+:calls → ComesBack (run step {} before).1) ↔
      RunGuarded step JoinsOpenIncident {} calls := by
  have hinit : Tracked {} :=
    ⟨fun i j a b ha => by simp [Serial.lookup] at ha,fun k r hr => by simp [Serial.lookup] at hr⟩
  simp only [comesBack_iff]
  exact throughout_iff_runGuarded (fun σ call h => h.step_iff call) hinit calls

def strayCalls : List Call :=
  let inbounds := Table.putAll ∅ [(3,("edge",7))]
  [.openOrReopen 7 "tokyo" 0 0 0 0 "",.isolate inbounds 1 1 [3] "manual" none,
    .markRecovering 7 60 0,.resolve 1 2 90,
    .openOrReopen 7 "tokyo" 200 200 0 0 "",.isolate inbounds 2 1 [3] "auto" none,
    .markRecovering 7 260 0,.resolve 2 2 290]

theorem stray_node_stays_hidden : ((run step {} strayCalls).1.isolations.lookup 1).map
        (fun r => (r.incidentID,r.status,r.recoveryPolicy))=some (1,.hidden,.auto) ∧
      ((run step {} strayCalls).1.incidents.lookup 1).map (·.status)=some .resolved ∧
      ((run step {} strayCalls).1.incidents.lookup 2).map (·.status)=some .resolved := by
  decide

end IncidentStore

end Oboard.Store
