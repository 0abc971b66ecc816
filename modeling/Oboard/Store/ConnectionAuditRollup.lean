import Oboard.Framework.Runs
import Oboard.Store.ConnectionAudit

namespace Oboard.Store

open GoText Runs List Table

structure RollupState where
  store : AuditStore := {}
  jobs : List Recompute := []
  clock : Time := 0

inductive RollupMove where
  | addReports (now budgetAt : Time) (config : Option AuditCollectionConfig)
      (reports : List ConnectionAuditReport)
  | refresh (now : Time) (userID : Int) (at_ : Time)
  /-- A dirty hour is picked for a recomputation. -/
  | list (key : HourKey)
  | advance (job : Nat)

def rollupStep (env : AuditEnv) (σ : RollupState) : RollupMove → RollupState×List Empty
  | .addReports now budgetAt config reports =>
    match addConnectionAuditReportsResult now budgetAt config σ.store reports with
    | .error _ => ({σ with clock := now},[])
    | .ok (store,_) => ({σ with store := store,clock := now},[])
  | .refresh now userID at_ =>
    match refreshConnectionProbeEpisodes env now σ.store userID at_ with
    | .error _ => ({σ with clock := now},[])
    | .ok store => ({σ with store := store,clock := now},[])
  | .list key => match σ.store.dirty.lookup key with
    | none => (σ,[])
    | some dirtyAt => ({σ with jobs := σ.jobs++[{key := key,dirtyAt := dirtyAt}]},[])
  | .advance i => match σ.jobs[i]? with
    | none => (σ,[])
    | some job =>
      let next := recomputeConnectionAuditHour env σ.store job
      ({σ with store := next.1,jobs := σ.jobs.set i next.2},[])

def currentRow (env : AuditEnv) (reports : List ConnectionAuditReport) (key : HourKey) :
    HourlyRow where
  totals := hourAggregate (hourReports reports key)
  dimensions := connectionAuditHourDimensions env (hourReports reports key)

/-- No stored row is stale without a mark. -/
def Fresh (env : AuditEnv) (s : AuditStore) : Prop :=
  ∀key row,s.hourly.lookup key=some row → s.dirty.lookup key=none → row=currentRow env s.reports key

/-- The clock has moved on, and its texts with it. -/
def Later (σ : RollupState) (now : Time) : Prop :=
  σ.clock<now ∧ formatRFC3339Nano σ.clock<formatRFC3339Nano now

instance (σ : RollupState) (now : Time) : Decidable (Later σ now) :=
  inferInstanceAs (Decidable (_ ∧ _))

def Ticks (σ : RollupState) : RollupMove → Prop
  | .addReports now _ _ _ | .refresh now _ _ => Later σ now
  | .list _ | .advance _ => True

instance (σ : RollupState) : ∀move,Decidable (Ticks σ move)
  | .addReports now _ _ _ | .refresh now _ _ => inferInstanceAs (Decidable (Later σ now))
  | .list _ | .advance _ => inferInstanceAs (Decidable True)

def RecomputePhase.hasRead : RecomputePhase → Bool
  | .summed _ | .read _ _ => true
  | .listed | .done => false

def RecomputePhase.writes : RecomputePhase → Bool
  | .read _ _ => true
  | _ => false

/-- Hours whose present aggregate is stored without a mark or in the hands of a recomputation. -/
def watched (σ : RollupState) : List HourKey :=
  ((σ.store.hourly.rows.map (·.1)).filter (fun key => (σ.store.dirty.lookup key).isNone))++
    (σ.jobs.filter (·.phase.hasRead)).map (·.key)

/-- By the stored texts the report starts in no watched hour but its own. -/
def InOwnHour (σ : RollupState) (report : ConnectionAuditReport) : Prop :=
  report.startedAt≠0 ∧ ∀key∈watched σ,report.userID=key.1 → report.startedIn key.2=true →
    key.2=connectionAuditHour report.startedAt

instance (σ : RollupState) (report : ConnectionAuditReport) : Decidable (InOwnHour σ report) :=
  inferInstanceAs (Decidable (_ ∧ ∀key∈_,_ → _ → _))

/-- No report of a refresh starts before its cutoff and ends after it, every report starts in its
own hour, and a recomputation writes its row while the hour still has a mark. -/
def Unstraddled (σ : RollupState) : RollupMove → Prop
  | .addReports _ _ _ reports => ∀report∈reports,InOwnHour σ report
  | .refresh _ userID at_ =>
    (σ.store.reports.filter (endedSince userID (probeCutoff at_))).length≤ probeScanLimit ∧
    ∀report∈σ.store.reports,endedSince userID (probeCutoff at_) report=true →
      probeCutoff at_≤report.startedAt ∧ InOwnHour σ report
  | .list _ => True
  | .advance i => ∀job∈σ.jobs[i]?,job.phase.writes=true → (σ.store.dirty.lookup job.key).isSome=true

instance (σ : RollupState) : ∀move,Decidable (Unstraddled σ move)
  | .addReports _ _ _ _ => inferInstanceAs (Decidable (∀report∈_,InOwnHour σ report))
  | .refresh _ _ _ => inferInstanceAs (Decidable (_ ∧ ∀report∈_,_ → _ ∧ InOwnHour σ report))
  | .list _ => inferInstanceAs (Decidable True)
  | .advance _ => inferInstanceAs (Decidable (∀job∈_,_ → _))

variable {r : ConnectionAuditReport} {key : HourKey}

section reports

/-- Two reports that differ in their probe state at most. -/
def SameEvidence (r r' : ConnectionAuditReport) : Prop := r'={r with probeState := r'.probeState}

theorem SameEvidence.trans (h : SameEvidence r r')
    (h' : SameEvidence r' r'') : SameEvidence r r'' := by
  unfold SameEvidence at *
  rw [h'] at *
  rw [h]

theorem clearProbeState_same (userID) (cutoff) (r) :
    SameEvidence r (clearProbeState userID cutoff r) := by
  unfold clearProbeState SameEvidence
  split_ifs <;> rfl

theorem assignProbeState_same (state) (r) : SameEvidence r (assignProbeState r state) := by
  unfold assignProbeState SameEvidence
  split_ifs <;> rfl

theorem refreshReport_same (userID) (cutoff) (states)
    (r) : SameEvidence r (refreshReport userID cutoff states r) := by
  unfold refreshReport
  have h := clearProbeState_same userID cutoff r
  generalize clearProbeState userID cutoff r=r' at h ⊢
  induction states generalizing r' with
  | nil => exact h
  | cons state states ih => exact ih _ (h.trans (assignProbeState_same state r'))

variable {f : ConnectionAuditReport → ConnectionAuditReport} (hf : ∀r,SameEvidence r (f r))
include hf

theorem map_same (g : ConnectionAuditReport → α)
    (hg : ∀(r : ConnectionAuditReport) state,g {r with probeState := state}=g r)
    (l : List ConnectionAuditReport) : (l.map f).map g=l.map g := by
  rw [map_map]
  apply map_congr_left
  intro r _
  rw [Function.comp_apply,hf r,hg]

theorem currentRow_same (env : AuditEnv)
    (hcounts : ∀r∈reports,r.userID=key.1 → r.startedIn key.2=true → (f r).counts=r.counts) :
    currentRow env (reports.map f) key=currentRow env reports key := by
  have hreports : hourReports (reports.map f) key=(hourReports reports key).map f := by
    unfold hourReports
    rw [filter_map]
    congr 1
    apply filter_congr
    intro r hr
    have huser : (f r).userID=r.userID := by rw [hf r]
    have hstart : (f r).startedIn key.2=r.startedIn key.2 := by
      rw [hf r]
      rfl
    rw [Function.comp_apply,huser,hstart]
    by_cases h : r.userID=key.1 ∧ r.startedIn key.2=true
    · rw [hcounts r hr h.1 h.2]
    rw [not_and] at h
    by_cases hu : r.userID=key.1
    · simp [h hu]
    · simp [hu]
  have hmap {α} (g : ConnectionAuditReport → α)
      (hg : ∀r state,g {r with probeState := state}=g r) :=
    map_same hf g hg (hourReports reports key)
  unfold currentRow
  rw [hreports]
  unfold hourAggregate connectionAuditHourDimensions
  simp only [length_map]
  rw [hmap (·.connectionCount) fun _ _ => rfl,hmap (·.activePeak) fun _ _ => rfl,
    hmap (fun r => if r.hasPayload then r.uploadBytes else 0) fun _ _ => rfl,
    hmap (fun r => if r.hasPayload then r.downloadBytes else 0) fun _ _ => rfl,
    hmap (fun r => formatRFC3339Nano r.endedAt) fun _ _ => rfl,
    hmap (·.collection) fun _ _ => rfl,hmap (·.droppedBucketCount) fun _ _ => rfl,
    hmap (fun r => max r.bucketCapacity 1) fun _ _ => rfl,
    hmap (fun r => (r.sourceIP,r.serverID,r.sourceCountryCode)) fun _ _ => rfl]

end reports

theorem currentRow_append (h : ∀r∈new,r.userID=key.1 → r.startedIn key.2=true → r.counts=false) :
    currentRow env (reports++new) key=currentRow env reports key := by
  have hnew : hourReports new key=[] := by
    apply filter_eq_nil_iff.mpr
    intro r hr hp
    simp only [Bool.and_eq_true,decide_eq_true_eq] at hp
    rw [h r hr hp.1.1 hp.1.2] at hp
    exact nomatch hp.2
  have happend : hourReports (reports++new) key=hourReports reports key++hourReports new key :=
    filter_append ..
  rw [currentRow,happend,hnew,append_nil]
  rfl

variable {s : AuditStore}

section marks

theorem lookup_mark : (markConnectionAuditHoursDirtyTx ts marks dirty).lookup key=
      if ∃mark∈marks,0< mark.1 ∧ mark.2≠0 ∧ (mark.1,connectionAuditHour mark.2)=key then some ts
      else dirty.lookup key := by
  unfold markConnectionAuditHoursDirtyTx
  induction marks generalizing dirty with
  | nil => simp
  | cons mark marks ih =>
    rw [foldl_cons,ih]
    by_cases htail : ∃m∈marks,0< m.1 ∧ m.2≠0 ∧ (m.1,connectionAuditHour m.2)=key
    · rw [if_pos htail,if_pos]
      exact htail.imp fun m hm => ⟨mem_cons_of_mem _ hm.1,hm.2⟩
    rw [if_neg htail]
    simp only [mem_cons,exists_eq_or_imp,htail,or_false]
    split_ifs with hskip hmark hmark
    · exact absurd hskip (not_or.mpr ⟨not_le.mpr hmark.1,hmark.2.1⟩)
    · rfl
    · rw [hmark.2.2,AList.lookup_insert]
    · refine AList.lookup_insert_ne fun hkey => hmark ⟨by omega,by tauto,hkey.symm⟩

variable {env : AuditEnv} {σ : RollupState} {now : Time}

/-- A call that changes reports and marks: what it does to a watched hour it says in a mark. -/
structure Announces (env : AuditEnv) (σ : RollupState) (now : Time) (s : AuditStore) : Prop where
  hourly : s.hourly=σ.store.hourly
  ids : (s.reports.map (·.reportID)).Nodup
  dirty : ∀key,s.dirty.lookup key=some now ∨ s.dirty.lookup key=σ.store.dirty.lookup key
  rows : ∀key∈watched σ,s.dirty.lookup key=some now ∨
    currentRow env s.reports key=currentRow env σ.store.reports key

theorem announces_refl (hids : (σ.store.reports.map (·.reportID)).Nodup) :
    Announces env σ now σ.store :=
  ⟨rfl,hids,fun _ => .inr rfl,fun _ _ => .inr rfl⟩

theorem announces_of_marks (hhourly : s.hourly=σ.store.hourly)
    (hids : (s.reports.map (·.reportID)).Nodup)
    (hdirty : s.dirty=markConnectionAuditHoursDirtyTx now marks σ.store.dirty)
    (hrows : ∀key∈watched σ,
      (∃mark∈marks,0< mark.1 ∧ mark.2≠0 ∧ (mark.1,connectionAuditHour mark.2)=key) ∨
      currentRow env s.reports key=currentRow env σ.store.reports key) : Announces env σ now s := by
  refine ⟨hhourly,hids,fun key => ?_,fun key hkey => (hrows key hkey).imp_left fun hmark => ?_⟩
  · rw [hdirty,lookup_mark]
    split_ifs
    · exact .inl rfl
    · exact .inr rfl
  · rw [hdirty,lookup_mark,if_pos hmark]

end marks

section insertion

/-- The loop appends reports of users under new ids, each with the marks of its hours. -/
structure Inserts (requested : List ConnectionAuditReport) (i i' : Insertion) : Prop where
  out : ∃new,i'.reports=i.reports++new ∧ i'.dirtyHours=i.dirtyHours++new.flatMap dirtyHoursOf ∧
    ∀r∈new,r∈requested ∧ 0< r.userID
  ids : (i.reports.map (·.reportID)).Nodup → (i'.reports.map (·.reportID)).Nodup

theorem Inserts.refl (requested) (hreports : i'.reports=i.reports)
    (hhours : i'.dirtyHours=i.dirtyHours) : Inserts requested i i' :=
  ⟨⟨[],by simp [hreports],by simp [hhours],fun _ h => nomatch h⟩,by rw [hreports]; exact id⟩

theorem insertReport_inserts (h : insertReport config budgetAt i r=.ok i') : Inserts [r] i i' := by
  simp only [insertReport] at h
  split_ifs at h with hskip hstored
  · cases h
    exact .refl _ rfl rfl
  · cases h
    exact .refl _ rfl rfl
  split at h
  · exact nomatch h
  split_ifs at h
  · cases h
    exact .refl _ rfl rfl
  cases h
  refine ⟨⟨[r],rfl,by simp,fun r' hr' => ?_⟩,fun hids => ?_⟩
  · cases mem_singleton.mp hr'
    exact ⟨hr',by omega⟩
  · simp only [map_append,map_cons,map_nil]
    rw [nodup_append]
    refine ⟨hids,nodup_singleton _,fun id hid id' hid' heq => ?_⟩
    obtain ⟨old,hold,rfl⟩ := mem_map.mp hid
    exact hstored (any_eq_true.mpr ⟨old,hold,by simpa using heq.trans (mem_singleton.mp hid')⟩)

theorem foldlM_inserts
    (h : requested.foldlM (insertReport config budgetAt) i=.ok i') : Inserts requested i i' := by
  induction requested generalizing i with
  | nil =>
    cases h
    exact .refl _ rfl rfl
  | cons r requested ih =>
    obtain ⟨j,hj,h⟩ := bind_ok h
    obtain ⟨⟨new,hreports,hhours,hnew⟩,hids⟩ := insertReport_inserts hj
    obtain ⟨⟨new',hreports',hhours',hnew'⟩,hids'⟩ := ih h
    refine ⟨⟨new++new',by simp [hreports',hreports],by simp [hhours',hhours],fun r' hr' => ?_⟩,
      hids' ∘ hids⟩
    rcases mem_append.mp hr' with hr' | hr'
    · exact ⟨mem_cons.mpr (.inl (mem_singleton.mp (hnew r' hr').1)),(hnew r' hr').2⟩
    · exact ⟨mem_cons_of_mem _ (hnew' r' hr').1,(hnew' r' hr').2⟩

theorem InOwnHour.mark (h : InOwnHour σ r) (hpos : 0< r.userID) (hkey : key∈watched σ)
    (huser : r.userID=key.1) (hstart : r.startedIn key.2=true) :
    0< r.userID ∧ r.startedAt≠0 ∧ (r.userID,connectionAuditHour r.startedAt)=key :=
  ⟨hpos,h.1,by rw [huser,← h.2 key hkey huser hstart]⟩

theorem addReports_announces (hids : (σ.store.reports.map (·.reportID)).Nodup)
    (hsafe : Unstraddled σ (.addReports now budgetAt config reports))
    (h : addConnectionAuditReportsResult now budgetAt config σ.store reports=.ok (s,result)) :
    Announces env σ now s := by
  obtain ⟨i,hi,h⟩ := bind_ok h
  cases h
  obtain ⟨⟨new,hreports,hhours,hnew⟩,hnodup⟩ := foldlM_inserts hi
  refine announces_of_marks rfl (hnodup hids) rfl fun key hkey => ?_
  rw [or_iff_not_imp_left]
  intro hmark
  simp only [hreports]
  refine currentRow_append fun r hr huser hstart => absurd ⟨(r.userID,r.startedAt),?_,
    (hsafe r (hnew r hr).1).mark (hnew r hr).2 hkey huser hstart⟩ hmark
  rw [hhours]
  refine mem_append_right _ (mem_flatMap.mpr ⟨r,hr,mem_append_left _ ?_⟩)
  rw [if_pos (hsafe r (hnew r hr).1).1]
  exact mem_singleton_self _

end insertion

section refresh

theorem mem_probeGroupsFrom (hg : g∈probeGroupsFrom first group rest) (hr : r∈g) :
    r∈group ∨ r∈rest := by
  induction rest generalizing first group with
  | nil =>
    rw [probeGroupsFrom,mem_singleton] at hg
    exact .inl (mem_reverse.mp (hg ▸ hr))
  | cons report rest ih =>
    unfold probeGroupsFrom at hg
    split_ifs at hg
    · have := ih hg
      grind
    rcases mem_cons.mp hg with rfl | hg
    · exact .inl (mem_reverse.mp hr)
    · have := ih hg
      grind

theorem mem_probeVerdicts (h : v∈probeVerdicts env stored live userID at_) (hr : r∈v.2) :
    r∈live := by
  obtain ⟨identity,-,h⟩ := mem_flatMap.mp h
  obtain ⟨group,hg,h⟩ := mem_filterMap.mp h
  obtain ⟨_,-,rfl⟩ := Option.map_eq_some_iff.mp h
  unfold probeGroups at hg
  split at hg
  · cases hg
  next first rest hsort =>
  have hmem : r∈first::rest := by simpa using mem_probeGroupsFrom hg hr
  rw [← hsort] at hmem
  exact mem_of_mem_filter ((mem_insertionSort _).mp hmem)

theorem foldl_assign_eq {states : List (ProbeState×List String)} (h : ∀state∈states,r.reportID∉state.2) :
    states.foldl assignProbeState r=r := by
  induction states with
  | nil => rfl
  | cons state states ih =>
    rw [foldl_cons,assignProbeState,if_neg (by simpa using h state mem_cons_self)]
    exact ih fun other ho => h other (mem_cons_of_mem _ ho)

/-- A refresh touches no report but those it lists: what it clears ended since the cutoff and so
started since, and what it assigns carries the id of a listed report. -/
theorem mem_probeReports_of_changed (env : AuditEnv) (hids : (s.reports.map (·.reportID)).Nodup)
    (hlimit : (s.reports.filter (endedSince userID (probeCutoff at_))).length≤ probeScanLimit)
    (hstart : ∀report∈s.reports,endedSince userID (probeCutoff at_) report=true →
      probeCutoff at_≤report.startedAt) (hr : r∈s.reports)
    (hchanged : refreshReport userID (probeCutoff at_) (probeStates env s userID at_) r≠r) :
    r∈probeReports s userID at_ := by
  by_cases hclear : endedSince userID (probeCutoff at_) r=true ∧ r.internalProbe=false
  · simp only [probeReports,listConnectionAuditReportsStartedSince,listRecentConnectionAudits]
    rw [take_of_length_le (by rwa [length_insertionSort])]
    simp [hr,hclear,hstart r hr hclear.1]
  have hkept : clearProbeState userID (probeCutoff at_) r=r := by
    unfold clearProbeState
    rw [if_neg (by simpa using hclear)]
  rw [refreshReport,hkept] at hchanged
  have hnamed : ∃state∈probeStates env s userID at_,r.reportID∈state.2 := by
    by_contra hnone
    exact hchanged (foldl_assign_eq fun state hs hmem => hnone ⟨state,hs,hmem⟩)
  obtain ⟨state,hs,hmem⟩ := hnamed
  obtain ⟨_,-,rfl⟩ := mem_map.mp hs
  obtain ⟨v,hv,hmem⟩ := mem_flatMap.mp hmem
  obtain ⟨r',hr',hid⟩ := mem_map.mp hmem
  have hlive := mem_probeVerdicts (mem_of_mem_filter hv) hr'
  have hstored : r'∈s.reports := by
    have := mem_of_mem_filter (mem_of_mem_filter hlive)
    exact mem_of_mem_filter ((mem_insertionSort _).mp (mem_of_mem_take this))
  exact inj_on_of_nodup_map hids hstored hr hid ▸ hlive

theorem userID_of_listed (h : r∈probeReports s userID at_) : r.userID=userID ∧
    endedSince userID (probeCutoff at_) r=true := by
  have h := mem_of_mem_take (mem_of_mem_filter (mem_of_mem_filter h))
  have h := (mem_filter.mp ((mem_insertionSort _).mp h)).2
  exact ⟨of_decide_eq_true (Bool.and_eq_true _ _ ▸ h).1,h⟩

theorem refresh_announces (hids : (σ.store.reports.map (·.reportID)).Nodup)
    (hsafe : Unstraddled σ (.refresh now userID at_))
    (h : refreshConnectionProbeEpisodes env now σ.store userID at_=.ok s) :
    Announces env σ now s := by
  simp only [refreshConnectionProbeEpisodes] at h
  split_ifs at h with hpos
  · cases h
    exact announces_refl hids
  obtain ⟨episodes,-,h⟩ := bind_ok h
  cases h
  refine announces_of_marks rfl ?_ rfl fun key hkey => ?_
  · simp only [map_same (refreshReport_same _ _ _) (·.reportID) fun _ _ => rfl]
    exact hids
  rw [or_iff_not_imp_left]
  intro hmark
  refine currentRow_same (refreshReport_same _ _ _) env fun r hr huser hstart => ?_
  by_contra hcounts
  have hlisted := mem_probeReports_of_changed env hids hsafe.1
    (fun report hm he => (hsafe.2 report hm he).1) hr fun heq => hcounts (congrArg _ heq)
  obtain ⟨rfl,hended⟩ := userID_of_listed hlisted
  exact hmark ⟨_,mem_append_right _ (mem_map_of_mem hlisted),
    (hsafe.2 r hr hended).2.mark (not_le.mp hpos) hkey huser hstart⟩

end refresh

section invariant

variable {env : AuditEnv} {σ : RollupState}

/-- As long as the mark of its listing stands, a recomputation has read the present aggregate. -/
def Recompute.Sound (env : AuditEnv) (s : AuditStore) (job : Recompute) : Prop :=
  ∀at_,s.dirty.lookup job.key=some at_ → formatRFC3339Nano at_≤formatRFC3339Nano job.dirtyAt →
    match job.phase with
    | .summed totals => totals=(currentRow env s.reports job.key).totals
    | .read totals dimensions => ⟨totals,dimensions⟩=currentRow env s.reports job.key
    | .listed | .done => True

structure RollupInv (env : AuditEnv) (σ : RollupState) : Prop where
  fresh : Fresh env σ.store
  ids : (σ.store.reports.map (·.reportID)).Nodup
  clock : 0≤σ.clock
  marks : ∀key at_,σ.store.dirty.lookup key=some at_ →
    0<at_ ∧ formatRFC3339Nano at_≤formatRFC3339Nano σ.clock
  jobs : ∀job∈σ.jobs,0<job.dirtyAt ∧ formatRFC3339Nano job.dirtyAt≤formatRFC3339Nano σ.clock ∧
    job.Sound env σ.store

theorem watched_of_row (hrow : σ.store.hourly.lookup key=some row)
    (hclean : σ.store.dirty.lookup key=none) : key∈watched σ := by
  apply mem_append_left
  rw [mem_filter,mem_map]
  exact ⟨⟨(key,row),mem_rows.mpr hrow,rfl⟩,by rw [hclean]; rfl⟩

theorem watched_of_job (hjob : job∈σ.jobs) (hread : job.phase.hasRead=true) :
    job.key∈watched σ := by
  apply mem_append_right
  exact mem_map_of_mem (mem_filter.mpr ⟨hjob,hread⟩)

section

variable (h : RollupInv env σ)
include h

theorem RollupInv.newer (hlater : Later σ now)
    (hjob : job∈σ.jobs) : ¬formatRFC3339Nano now≤formatRFC3339Nano job.dirtyAt := by
  rw [not_le]
  exact (h.jobs job hjob).2.1.trans_lt hlater.2

theorem RollupInv.announced (hlater : Later σ now)
    (hs : Announces env σ now s) : RollupInv env {σ with store := s,clock := now} := by
  refine ⟨fun key row hrow hclean => ?_,hs.ids,h.clock.trans hlater.1.le,fun key at_ hat => ?_,
    fun job hjob => ?_⟩
  · rw [hs.hourly] at hrow
    have hclean' : σ.store.dirty.lookup key=none := by
      rcases hs.dirty key with hd | hd
      · rw [hd] at hclean
        exact nomatch hclean
      · rw [← hd]
        exact hclean
    rcases hs.rows key (watched_of_row hrow hclean') with hd | hsame
    · rw [hd] at hclean
      exact nomatch hclean
    · rw [hsame]
      exact h.fresh key row hrow hclean'
  · rcases hs.dirty key with hd | hd
    · cases hd.symm.trans hat
      exact ⟨h.clock.trans_lt hlater.1,le_rfl⟩
    · obtain ⟨hpos,hle⟩ := h.marks key at_ (hd.symm.trans hat)
      exact ⟨hpos,hle.trans hlater.2.le⟩
  · obtain ⟨hpos,hle,hsound⟩ := h.jobs job hjob
    refine ⟨hpos,hle.trans hlater.2.le,fun at_ hat hcovered => ?_⟩
    have hnow : s.dirty.lookup job.key≠some now := fun hd => by
      cases hd.symm.trans hat
      exact h.newer hlater hjob hcovered
    have hold := hsound at_ (((hs.dirty job.key).resolve_left hnow).symm.trans hat) hcovered
    have hsame hread :
        currentRow env s.reports job.key=currentRow env σ.store.reports job.key :=
      (hs.rows job.key (watched_of_job hjob hread)).resolve_left hnow
    cases hphase : job.phase with
    | listed | done => trivial
    | summed totals | read totals dimensions =>
      rw [hphase] at hold hsame
      simp only [hsame rfl]
      exact hold

theorem RollupInv.addJob (hpos : 0<job.dirtyAt)
    (hle : formatRFC3339Nano job.dirtyAt≤formatRFC3339Nano σ.clock)
    (hsound : job.Sound env σ.store) : RollupInv env {σ with jobs := σ.jobs++[job]} := by
  refine ⟨h.fresh,h.ids,h.clock,h.marks,fun other hmem => ?_⟩
  rcases mem_append.mp hmem with hmem | hmem
  · exact h.jobs other hmem
  · cases mem_singleton.mp hmem
    exact ⟨hpos,hle,hsound⟩

theorem RollupInv.setJob (hjob : job∈σ.jobs)
    (hdirty : job'.dirtyAt=job.dirtyAt) (hsound : job'.Sound env σ.store) :
    RollupInv env {σ with jobs := σ.jobs.set i job'} := by
  refine ⟨h.fresh,h.ids,h.clock,h.marks,fun other hmem => ?_⟩
  rcases mem_or_eq_of_mem_set hmem with hmem | rfl
  · exact h.jobs other hmem
  · rw [hdirty]
    exact ⟨(h.jobs job hjob).1,(h.jobs job hjob).2.1,hsound⟩

theorem RollupInv.write (hjob : job∈σ.jobs) (hread : job.phase=.read totals dimensions)
    (hmark : (σ.store.dirty.lookup job.key).isSome=true) :
    RollupInv env {σ with store :=
      writeConnectionAuditHour σ.store job.key job.dirtyAt ⟨totals,dimensions⟩} := by
  obtain ⟨hpos,-,hsound⟩ := h.jobs job hjob
  have hdirty key :
      (writeConnectionAuditHour σ.store job.key job.dirtyAt ⟨totals,dimensions⟩).dirty.lookup key=
        (σ.store.dirty.lookup key).filter (fun at_ => !(key=job.key &&
          formatRFC3339Nano at_≤formatRFC3339Nano job.dirtyAt)) := by
    simp [writeConnectionAuditHour,lookup_deleteRows,hpos.ne']
  have hkept {key} {at_} (hat :
      (writeConnectionAuditHour σ.store job.key job.dirtyAt ⟨totals,dimensions⟩).dirty.lookup key=
        some at_) : σ.store.dirty.lookup key=some at_ := by
    rw [hdirty] at hat
    exact (Option.filter_eq_some_iff.mp hat).1
  refine ⟨fun key row hrow hclean => ?_,h.ids,h.clock,fun key at_ hat => h.marks key at_ (hkept hat),
    fun other hother => ?_⟩
  · rw [hdirty] at hclean
    change (σ.store.hourly.insert job.key ⟨totals,dimensions⟩).lookup key=some row at hrow
    rw [lookup_insert_eq] at hrow
    split_ifs at hrow with hkey
    · -- The mark was there, so it went because it is the one of the listing.
      subst hkey
      cases hrow
      obtain ⟨at_,hat⟩ := Option.isSome_iff_exists.mp hmark
      have hcovered : formatRFC3339Nano at_≤formatRFC3339Nano job.dirtyAt := by
        by_contra hnot
        exact Option.filter_eq_none_iff.mp hclean at_ hat
          (by simp only [hnot,decide_false,Bool.and_false,Bool.not_false])
      have hrow := hsound at_ hat hcovered
      rw [hread] at hrow
      exact hrow
    · have hclean' : σ.store.dirty.lookup key=none := by
        simpa [hkey,Option.eq_none_iff_forall_ne_some] using hclean
      exact h.fresh key row hrow hclean'
  · obtain ⟨hpos',hle',hsound'⟩ := h.jobs other hother
    exact ⟨hpos',hle',fun at_ hat => hsound' at_ (hkept hat)⟩

theorem RollupInv.step (htick : Ticks σ move)
    (hsafe : Unstraddled σ move) : RollupInv env (rollupStep env σ move).1 := by
  cases move with
  | addReports now budgetAt config reports =>
    simp only [rollupStep]
    split
    · exact h.announced htick (announces_refl h.ids)
    next s result hs => exact h.announced htick (addReports_announces h.ids hsafe hs)
  | refresh now userID at_ =>
    simp only [rollupStep]
    split
    · exact h.announced htick (announces_refl h.ids)
    next s hs => exact h.announced htick (refresh_announces h.ids hsafe hs)
  | list key =>
    simp only [rollupStep]
    split
    · exact h
    next dirtyAt hdirty =>
    exact h.addJob (h.marks key dirtyAt hdirty).1 (h.marks key dirtyAt hdirty).2 fun _ _ _ => trivial
  | advance i =>
    simp only [rollupStep]
    split
    · exact h
    next job hi =>
    have hjob := mem_of_getElem? hi
    obtain ⟨-,-,hsound⟩ := h.jobs job hjob
    simp only [recomputeConnectionAuditHour]
    cases hphase : job.phase with
    | listed =>
      split_ifs
      · exact h.setJob hjob rfl fun _ _ _ => trivial
      · exact h.setJob hjob rfl fun _ _ _ => rfl
    | summed totals =>
      refine h.setJob hjob rfl fun at_ hat hcovered => ?_
      have htotals := hsound at_ hat hcovered
      rw [hphase] at htotals
      exact congrArg (HourlyRow.mk · _) htotals
    | read totals dimensions =>
      have hwritten := h.write hjob hphase (hsafe job hi (by rw [hphase]; rfl))
      exact hwritten.setJob hjob rfl fun _ _ _ => trivial
    | done => exact h.setJob hjob rfl hsound

end

end invariant

/-- While no report straddles the cutoff of a refresh, every stored hour without a mark is the
aggregate of the reports that count. -/
theorem rollup_never_stale (env : AuditEnv) {moves : List RollupMove}
    (h : RunGuarded (rollupStep env) (fun σ move => Ticks σ move ∧ Unstraddled σ move) {} moves) :
    Fresh env (run (rollupStep env) {} moves).1.store := by
  have hstart : RollupInv env {} :=
    ⟨fun _ _ => nofun,nodup_nil,le_rfl,nofun,fun _ => nofun⟩
  have hinv := run_invariant (fun σ _ => RollupInv env σ) (w := []) _
    (fun {_ _ _} hg hi => hi.step hg.1 hg.2) h hstart
  exact hinv.fresh

section runs

def plainEnv : AuditEnv := ⟨fun _ => "",fun _ _ _ => "probe",id,id⟩

def probeStart : Time := 63871325990*second

def probeReport (id : String) (serverID : Int) : ConnectionAuditReport where
  reportID := id
  serverID := serverID
  userID := 1
  deviceIDHash := "device"
  connectionCount := 1
  collectionEndedAt := probeStart+310*second
  startedAt := probeStart
  endedAt := probeStart+310*second

def probed : List RollupMove :=
  [.addReports (probeStart+320*second) (probeStart+320*second) (some {standard := true})
    [probeReport "a" 1,probeReport "b" 2,probeReport "c" 3,probeReport "d" 4],
  .refresh (probeStart+330*second) 1 (probeStart+330*second),
  .list (1,connectionAuditHour probeStart),.advance 0,.advance 0,.advance 0]

def refreshedInWindow : List RollupMove :=
  probed++[.refresh (probeStart+610*second) 1 (probeStart+600*second),
    .list (1,connectionAuditHour probeStart),.advance 1,.advance 1,.advance 1]

def refreshedAfterStart : List RollupMove :=
  probed++[.refresh (probeStart+670*second) 1 (probeStart+660*second)]

theorem refresh_in_window_is_fresh :
    RunGuarded (rollupStep plainEnv) (fun σ move => Ticks σ move ∧ Unstraddled σ move) {}
      refreshedInWindow ∧
    Fresh plainEnv (run (rollupStep plainEnv) {} refreshedInWindow).1.store := by
  have h : RunGuarded (rollupStep plainEnv) (fun σ move => Ticks σ move ∧ Unstraddled σ move) {}
      refreshedInWindow := by decide +kernel
  exact ⟨h,rollup_never_stale plainEnv h⟩

/-- The refresh makes the four reports count again and marks nothing. -/
theorem cleared_reports_not_rolled_up :
    RunGuarded (rollupStep plainEnv) Ticks {} refreshedAfterStart ∧
    ¬Fresh plainEnv (run (rollupStep plainEnv) {} refreshedAfterStart).1.store := by
  refine ⟨by decide +kernel,fun h => ?_⟩
  have hstored : ((run (rollupStep plainEnv) {} refreshedAfterStart).1.store.hourly.lookup
      (1,connectionAuditHour probeStart)).isSome=true := by decide +kernel
  obtain ⟨row,hrow⟩ := Option.isSome_iff_exists.mp hstored
  rw [h _ row hrow (by decide +kernel)] at hrow
  exact absurd hrow (by decide +kernel)

end runs

end Oboard.Store
