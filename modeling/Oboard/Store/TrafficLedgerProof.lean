import Oboard.Store.TrafficLedger

namespace Oboard.Store.Ledger

open GoText Word64 Runs List Table Except Prod

def checkpoint (l : Ledger) (k : StreamKey) : Int×Int :=
  (l.streams.lookup k).elim (0,0) (fun row => (row.acceptedUploadBytes,row.acceptedDownloadBytes))

def periodTotals (l : Ledger) (k : PeriodKey) : Int×Int :=
  (l.periods.lookup k).elim (0,0) (fun row => (row.uploadBytes,row.downloadBytes))

def consumed (l : Ledger) (k : LeaseKey) : Int :=
  (l.leases.lookup k).elim 0 LeaseRow.consumedBytes

/-- The checkpoint a stream continues from, its own or the one of the newest period
that was migrated into its period. -/
def startingPoint (l : Ledger) (k : StreamKey) (userID : Int) : Int×Int :=
  if l.checkpoint k≠(0,0) then l.checkpoint k
  else
    match newestSource (l.sourcesOf userID k.periodKey) with
    | none => (0,0)
    | some (source,_) =>
      if trimSpace source="" ∨ source=k.periodKey then (0,0)
      else l.checkpoint {k with periodKey := source}

variable {l l' : Ledger} {k : StreamKey} {row stream : CounterStream} {server : Int}
  {agent : String} {period : TrafficPeriod}
  {report : TrafficReport} {commit : TrafficLedgerCommit}

theorem startingPoint_of_no_transitions (h : l.transitions=∅) (k) (u) :
    l.startingPoint k u=l.checkpoint k := by
  unfold startingPoint
  split_ifs with hk
  · rfl
  · simp only [sourcesOf,h]
    exact (not_not.mp hk).symm

/-- Only the stream row of one key may differ. -/
structure StreamFrame (l l' : Ledger) (k : StreamKey) : Prop where
  others : l'={l with streams := l'.streams}
  streams : ∀k',k'≠k → l'.streams.lookup k'=l.streams.lookup k'

theorem StreamFrame.refl (l) (k) : StreamFrame l l k := ⟨rfl,fun _ _ => rfl⟩

theorem StreamFrame.insert (l) (k) (row) :
    StreamFrame l {l with streams := l.streams.insert k row} k :=
  ⟨rfl,fun _ hk => AList.lookup_insert_ne hk⟩

theorem StreamFrame.trans (h1 : StreamFrame l l1 k) (h2 : StreamFrame l1 l2 k) :
    StreamFrame l l2 k := by
  refine ⟨?_,fun k' hk => (h2.streams k' hk).trans (h1.streams k' hk)⟩
  rw [h2.others,h1.others]

section

variable (h : StreamFrame l l' k)
include h

theorem StreamFrame.checkpoint_ne (hk : k'≠k) : l'.checkpoint k'=l.checkpoint k' := by
  rw [checkpoint,h.streams k' hk]
  rfl

theorem StreamFrame.transitions : l'.transitions=l.transitions := by rw [h.others]

theorem StreamFrame.periodTotals : l'.periodTotals=l.periodTotals := by rw [h.others]; rfl

theorem StreamFrame.leases : l'.leases=l.leases := by rw [h.others]

end

theorem checkpoint_of_lookup (h : l.streams.lookup k=some row) :
    l.checkpoint k=(row.acceptedUploadBytes,row.acceptedDownloadBytes) := by
  simp [checkpoint,h]

section

variable (l : Ledger) (k : StreamKey) (agent : String) (obs : TrafficStreamObservation)

theorem observedStream_checkpoint : ((l.observedStream k agent obs).acceptedUploadBytes,
      (l.observedStream k agent obs).acceptedDownloadBytes)=l.checkpoint k := by
  unfold observedStream checkpoint
  cases l.streams.lookup k <;> rfl

theorem observedStream_userID : (l.observedStream k agent obs).userID=obs.userID := by
  unfold observedStream
  cases l.streams.lookup k <;> rfl

end

theorem inherit_spec (hl : l.streams.lookup k=some stream)
    (h : l.inheritTrafficStreamCheckpointTx k stream=(l',stream')) :
    StreamFrame l l' k ∧ l'.streams.lookup k=some stream' ∧
    (stream'.acceptedUploadBytes,stream'.acceptedDownloadBytes)=
      l.startingPoint k stream.userID := by
  have hcp := checkpoint_of_lookup hl
  unfold inheritTrafficStreamCheckpointTx at h
  unfold startingPoint
  rw [hcp]
  split_ifs at h with hz
  · obtain ⟨rfl,rfl⟩ := Prod.mk.inj h
    have hne : (stream.acceptedUploadBytes,stream.acceptedDownloadBytes)≠(0,0) := by
      simp only [ne_eq,Prod.mk.injEq]
      tauto
    exact ⟨.refl l k,hl,by rw [if_pos hne]⟩
  · have heq : (stream.acceptedUploadBytes,stream.acceptedDownloadBytes)=(0,0) := by
      simp only [Prod.mk.injEq]
      tauto
    rw [if_neg (not_not.mpr heq)]
    cases hs : newestSource (l.sourcesOf stream.userID k.periodKey) with
    | none =>
      simp only [hs] at h
      obtain ⟨rfl,rfl⟩ := h
      exact ⟨.refl l k,hl,heq⟩
    | some source =>
      obtain ⟨source,createdAt⟩ := source
      simp only [hs] at h ⊢
      split_ifs at h ⊢ with hsrc
      · obtain ⟨rfl,rfl⟩ := Prod.mk.inj h
        exact ⟨.refl l k,hl,heq⟩
      unfold checkpoint
      cases hprev : l.streams.lookup {k with periodKey := source} with
      | none =>
        simp only [hprev] at h
        obtain ⟨rfl,rfl⟩ := h
        exact ⟨.refl l k,hl,heq⟩
      | some prev =>
        simp only [hprev] at h
        split_ifs at h with hprev0
        · obtain ⟨rfl,rfl⟩ := Prod.mk.inj h
          refine ⟨.refl l k,hl,?_⟩
          rw [heq]
          simp [hprev0]
        · obtain ⟨rfl,rfl⟩ := Prod.mk.inj h
          exact ⟨.insert l k _,AList.lookup_insert _,rfl⟩

theorem startingPoint_insert
    (h : (row.acceptedUploadBytes,row.acceptedDownloadBytes)=l.checkpoint k) :
    startingPoint {l with streams := l.streams.insert k row} k u=l.startingPoint k u := by
  have hk : checkpoint {l with streams := l.streams.insert k row} k=l.checkpoint k := by
    rw [← h]
    exact checkpoint_of_lookup (AList.lookup_insert _)
  unfold startingPoint
  rw [hk]
  split_ifs
  · rfl
  change (match newestSource (l.sourcesOf u k.periodKey) with
    | none => _
    | some (source,_) => _)=_
  cases newestSource (l.sourcesOf u k.periodKey) with
  | none => rfl
  | some source =>
    simp only
    split_ifs with hsrc
    · rfl
    have hne : {k with periodKey := source.1}≠k := by
      intro he
      exact hsrc (.inr (congrArg StreamKey.periodKey he))
    exact (StreamFrame.insert l k row).checkpoint_ne hne

theorem upsert_spec (h : l.upsertTrafficStreamTxReturn server agent obs=.ok (l',stream)) :
    StreamFrame l l' (observationKey server obs) ∧
    l'.streams.lookup (observationKey server obs)=some stream ∧
    (stream.acceptedUploadBytes,stream.acceptedDownloadBytes)=
      l.startingPoint (observationKey server obs) obs.userID := by
  unfold upsertTrafficStreamTxReturn at h
  split_ifs at h
  obtain ⟨hframe,hlookup,hstart⟩ := inherit_spec (AList.lookup_insert _) (ok.inj h)
  refine ⟨(StreamFrame.insert l _ _).trans hframe,hlookup,?_⟩
  rw [hstart,startingPoint_insert (observedStream_checkpoint ..),observedStream_userID]

theorem upsert_checkpoint (h : l.upsertTrafficStreamTxReturn server agent obs=.ok (l',stream)) :
    l'.checkpoint k=if k=observationKey server obs then l.startingPoint k obs.userID
      else l.checkpoint k := by
  obtain ⟨hframe,hlookup,hstart⟩ := upsert_spec h
  split_ifs with hk
  · subst hk
    rw [checkpoint_of_lookup hlookup,hstart]
  · exact hframe.checkpoint_ne hk

/-- No billing column moved; a checkpoint may only have been inherited. -/
structure Quiet (l l' : Ledger) (k : StreamKey) (u : Int) : Prop where
  transitions : l'.transitions=l.transitions
  leases : l'.leases=l.leases
  totals : l'.periodTotals=l.periodTotals
  others : ∀k',k'≠k → l'.checkpoint k'=l.checkpoint k'
  own : l'.checkpoint k=l.checkpoint k ∨ l'.checkpoint k=l.startingPoint k u

theorem Quiet.refl (l) (k) (u) : Quiet l l k u :=
  ⟨rfl,rfl,rfl,fun _ _ => rfl,.inl rfl⟩

theorem Quiet.checkpoint_eq (hq : Quiet l l' k u) (ht : l.transitions=∅) :
    l'.checkpoint=l.checkpoint := by
  funext k'
  by_cases hk : k'=k
  · subst hk
    rcases hq.own with ho | ho
    · exact ho
    · rw [ho,startingPoint_of_no_transitions ht]
  · exact hq.others k' hk

theorem upsert_quiet (h : l.upsertTrafficStreamTxReturn server agent obs=.ok (l',stream)) :
    Quiet l l' (observationKey server obs) obs.userID := by
  have hframe := (upsert_spec h).1
  refine ⟨hframe.transitions,hframe.leases,hframe.periodTotals,
    fun k' hk => hframe.checkpoint_ne hk,.inr ?_⟩
  rw [upsert_checkpoint h,if_pos rfl]

theorem Quiet.of_same (h : Quiet l l1 k u)
    (ht : l2.transitions=l1.transitions) (hl : l2.leases=l1.leases)
    (hp : l2.periodTotals=l1.periodTotals) (hc : l2.checkpoint=l1.checkpoint) : Quiet l l2 k u :=
  ⟨ht.trans h.transitions,hl.trans h.leases,hp.trans h.totals,
    fun k' hk => by rw [hc,h.others k' hk],by rw [hc]; exact h.own⟩

theorem checkpoint_insert (l : Ledger) (k : StreamKey) (row : CounterStream) (k' : StreamKey) :
    checkpoint {l with streams := l.streams.insert k row} k'=
      if k'=k then (row.acceptedUploadBytes,row.acceptedDownloadBytes) else l.checkpoint k' := by
  unfold checkpoint
  rw [lookup_insert_eq]
  split_ifs <;> rfl

theorem checkpoint_insert_same
    (h : l.checkpoint k=(row.acceptedUploadBytes,row.acceptedDownloadBytes)) :
    checkpoint {l with streams := l.streams.insert k row}=l.checkpoint := by
  funext k'
  rw [checkpoint_insert]
  split_ifs with hk
  · rw [hk,h]
  · rfl

theorem periodTotals_insert (l : Ledger) (k : PeriodKey) (row : PeriodRow) (k' : PeriodKey) :
    periodTotals {l with periods := l.periods.insert k row} k'=
      if k'=k then (row.uploadBytes,row.downloadBytes) else l.periodTotals k' := by
  unfold periodTotals
  rw [lookup_insert_eq]
  split_ifs <;> rfl

theorem periodTotals_insert_same {k : PeriodKey} {row : PeriodRow}
    (h : l.periodTotals k=(row.uploadBytes,row.downloadBytes)) :
    periodTotals {l with periods := l.periods.insert k row}=l.periodTotals := by
  funext k'
  rw [periodTotals_insert]
  split_ifs with hk
  · rw [hk,h]
  · rfl

theorem upsertPeriod_spec (h : l.upsertPeriod period=.ok l') :
    l'={l with periods := l'.periods} ∧ l'.periodTotals=l.periodTotals ∧
    ∃row,l'.periods.lookup ⟨period.userID,period.periodKey⟩=some row := by
  unfold upsertPeriod at h
  split_ifs at h
  obtain rfl := ok.inj h
  refine ⟨rfl,periodTotals_insert_same ?_,_,AList.lookup_insert _⟩
  unfold periodTotals
  cases l.periods.lookup ⟨period.userID,period.periodKey⟩ <;> rfl

theorem insertTrafficReport_spec {id : String} {row : ReportRow}
    (h : l.insertTrafficReport id row=some l') :
    l'={l with reports := l.reports.insert id row} := by
  unfold insertTrafficReport at h
  split_ifs at h
  exact (Option.some.inj h).symm

theorem validate_accepted (h : validateTrafficCheckpoint fu tu fd td au ad=.accepted) :
    fu=au ∧ fd=ad ∧ fu≤tu ∧ fd≤td ∧ ¬(tu≤au ∧ td≤ad) := by
  unfold validateTrafficCheckpoint at h
  split_ifs at h with h1 h2
  exact ⟨h2.1,h2.2.1,h2.2.2.1,h2.2.2.2,h1⟩

theorem validate_acknowledged (h : validateTrafficCheckpoint fu tu fd td au ad=.duplicate ∨
      validateTrafficCheckpoint fu tu fd td au ad=.covered) : (tu,td)≤(au,ad) := by
  unfold validateTrafficCheckpoint at h
  split_ifs at h with h1 <;> simp_all

/-- The window of a report was written, but its row was then refused. -/
structure WindowOnly (server : Int) (agent : String) (report : TrafficReport)
    (period : TrafficPeriod) (l l' : Ledger) : Prop where
  window : ∃l1 stream,l.loadOrCreateTrafficStreamTx server agent report=.ok (l1,stream) ∧
    l1.upsertPeriod (periodOrReport period report)=.ok l'
  unseen : report.reportID∉l'.reports ∧ l'.rangeStored (reportRow server report)=false
  refused : l'.insertTrafficReport report.reportID (reportRow server report)=none

/-- The report, its range or counters beyond it were stored before. -/
def Known (l : Ledger) (server : Int) (report : TrafficReport) : Prop :=
  report.reportID∈l.reports ∨ l.rangeStored (reportRow server report)=true ∨
    (report.toUploadBytes,report.toDownloadBytes)≤l.checkpoint (reportKey server report)

theorem commitTrafficReportTx_cases
    (h : commitTrafficReportTx server agent report period l=.ok (l',a,c)) :
    (a.status≠.accepted ∧ Quiet l l' (reportKey server report) report.userID ∧
      l'.reports=l.reports ∧
      ((l'.periods=l.periods ∧ (a.status=.duplicate ∨ a.status=.covered → l'.Known server report)) ∨
        WindowOnly server agent report period l l')) ∨
    (a.status=.accepted ∧ ∃l1 stream l2 l3,
      l.loadOrCreateTrafficStreamTx server agent report=.ok (l1,stream) ∧
      validateTrafficCheckpoint report.fromUploadBytes report.toUploadBytes
        report.fromDownloadBytes report.toDownloadBytes stream.acceptedUploadBytes
        stream.acceptedDownloadBytes=.accepted ∧
      l1.upsertPeriod (periodOrReport period report)=.ok l2 ∧
      l2.insertTrafficReport report.reportID (reportRow server report)=some l3 ∧
      l'=l3.bill server report stream) := by
  unfold commitTrafficReportTx at h
  split_ifs at h
  · simp only [ok.injEq] at h
    obtain ⟨rfl,rfl,-⟩ := h
    exact .inl ⟨by simp [answer],.refl _ _ _,rfl,.inl ⟨rfl,by simp [answer]⟩⟩
  obtain ⟨⟨l1,stream⟩,hload,h⟩ := bind_ok h
  have hperiods : l1.periods=l.periods := by rw [(upsert_spec hload).1.others]
  have hreports : l1.reports=l.reports := by rw [(upsert_spec hload).1.others]
  have hq := upsert_quiet hload
  have hcp := checkpoint_of_lookup (upsert_spec hload).2.1
  dsimp only at h
  split_ifs at h with hdup hcov hstatus
  · obtain ⟨rfl,rfl,-⟩ := by simpa [pure] using h
    exact .inl ⟨by simp [answer],hq,hreports,.inl ⟨hperiods,fun _ => .inl hdup⟩⟩
  · obtain ⟨rfl,rfl,-⟩ := by simpa [pure] using h
    exact .inl ⟨by simp [answer],hq,hreports,.inl ⟨hperiods,fun _ => .inr (.inl hcov)⟩⟩
  · simp only [pure] at h
    obtain ⟨rfl,rfl,-⟩ := h
    refine .inl ⟨hstatus,hq.of_same rfl rfl rfl (checkpoint_insert_same hcp),hreports,
      .inl ⟨hperiods,fun hc => .inr (.inr ?_)⟩⟩
    rw [checkpoint_insert,if_pos rfl]
    exact validate_acknowledged hc
  · obtain ⟨l2,hperiod,h⟩ := bind_ok h
    obtain ⟨hl2,htotals,-⟩ := upsertPeriod_spec hperiod
    cases hins : l2.insertTrafficReport report.reportID (reportRow server report) with
    | none =>
      simp only [hins] at h
      obtain ⟨rfl,rfl,-⟩ := h
      refine .inl ⟨by simp [answer],hq.of_same ?_ ?_ htotals ?_,hl2 ▸ hreports,
        .inr ⟨⟨l1,stream,hload,hperiod⟩,?_,hins⟩⟩
      · rw [hl2]
      · rw [hl2]
      · rw [hl2]
        rfl
      · rw [hl2]
        exact ⟨hdup,eq_false_of_ne_true hcov⟩
    | some l3 =>
      simp only [hins] at h
      obtain ⟨rfl,rfl,-⟩ := h
      exact .inr ⟨rfl,l1,stream,l2,l3,hload,not_not.mp hstatus,hperiod,hins,rfl⟩

/-- The batch window of a report, when it names one, is the window of that report. -/
def Resolved (period : TrafficPeriod) (report : TrafficReport) : Prop :=
  period.periodKey="" ∨ (period.userID=report.userID ∧ period.periodKey=report.periodKey)

theorem periodOrReport_key (h : Resolved period report) :
    (periodOrReport period report).userID=report.userID ∧
    (periodOrReport period report).periodKey=report.periodKey := by
  unfold periodOrReport
  split_ifs with hk
  · exact ⟨rfl,rfl⟩
  · exact h.resolve_left hk

section

variable (report : TrafficReport)

def rangeStart : Int×Int :=
  (report.fromUploadBytes,report.fromDownloadBytes)

def rangeEnd : Int×Int :=
  (report.toUploadBytes,report.toDownloadBytes)

def uploadDelta : Int := wrap (report.toUploadBytes-report.fromUploadBytes)

def downloadDelta : Int :=
  wrap (report.toDownloadBytes-report.fromDownloadBytes)

end

/-- One report was charged to its user, period and server, and its stream advanced. -/
structure Billed (l l' : Ledger) (server : Int) (report : TrafficReport) (period : TrafficPeriod) :
    Prop where
  start : l.startingPoint (reportKey server report) report.userID=rangeStart report
  forward : rangeStart report≤rangeEnd report
  moved : ¬rangeEnd report≤rangeStart report
  transitions : l'.transitions=l.transitions
  leases : l'.leases=(l.consume ⟨server,report.userID,report.periodKey⟩
    (wrap (uploadDelta report+downloadDelta report))).leases
  totals : Resolved period report → ∀k,l'.periodTotals k=if k=⟨report.userID,report.periodKey⟩ then
      (sqlAdd (l.periodTotals k).1 (uploadDelta report),
        sqlAdd (l.periodTotals k).2 (downloadDelta report)) else l.periodTotals k
  checkpoint : ∀k,l'.checkpoint k=if k=reportKey server report then rangeEnd report
    else l.checkpoint k

theorem periodTotals_addUsage {k : PeriodKey} {row : PeriodRow} (h : l.periods.lookup k=some row)
    (up down) (k') : periodTotals {l with periods := l.periods.modify k (addUsage up down)} k'=
      if k'=k then (sqlAdd (l.periodTotals k').1 up,sqlAdd (l.periodTotals k').2 down)
      else l.periodTotals k' := by
  unfold periodTotals
  rw [lookup_modify]
  split_ifs with hk
  · subst hk
    simp [h,addUsage]
  · rfl

theorem commitTrafficReportTx_spec
    (h : commitTrafficReportTx server agent report period l=.ok (l',a,c)) :
    (a.status≠.accepted ∧ Quiet l l' (reportKey server report) report.userID) ∨
    (a.status=.accepted ∧ Billed l l' server report period) := by
  rcases commitTrafficReportTx_cases h with ⟨ha,hq,-⟩ |
    ⟨ha,l1,stream,l2,l3,hload,hvalid,hperiod,hins,rfl⟩
  · exact .inl ⟨ha,hq⟩
  obtain ⟨hframe,hlookup,hstart⟩ := upsert_spec hload
  obtain ⟨hfu,hfd,hup,hdown,hmoved⟩ := validate_accepted hvalid
  obtain ⟨hl2,htotals,row,hrow⟩ := upsertPeriod_spec hperiod
  have hl3 := insertTrafficReport_spec hins
  have hl3t : l3.periodTotals=l.periodTotals := by
    rw [← hframe.periodTotals,← htotals,hl3]
    rfl
  refine .inr ⟨ha,⟨?_,⟨hup,hdown⟩,?_,?_,?_,?_,?_⟩⟩
  · rw [rangeStart,hfu,hfd]
    exact hstart.symm
  · intro hle
    exact hmoved ⟨hfu ▸ hle.1,hfd ▸ hle.2⟩
  · rw [hl3,hl2]
    exact hframe.transitions
  · have hle : l3.leases=l.leases := by
      rw [hl3,hl2]
      exact hframe.leases
    simp only [bill,hle]
    rfl
  · intro hr k
    obtain ⟨huser,hkey⟩ := periodOrReport_key hr
    rw [huser,hkey] at hrow
    have hl3p : l3.periods.lookup ⟨report.userID,report.periodKey⟩=some row := by
      rw [hl3]
      exact hrow
    have := periodTotals_addUsage hl3p (uploadDelta report) (downloadDelta report) k
    rw [hl3t] at this
    exact this
  · intro k
    have hcp : l3.checkpoint=l1.checkpoint := by
      rw [hl3,hl2]
      rfl
    have := checkpoint_insert l3 (reportKey server report) {stream with
      acceptedUploadBytes := report.toUploadBytes
      acceptedDownloadBytes := report.toDownloadBytes
      status := trafficStreamHealthy
      lastError := ""} k
    change (l3.bill server report stream).checkpoint k=_ at this
    rw [this]
    split_ifs with hk
    · rfl
    · rw [hcp,hframe.checkpoint_ne hk]

section

variable (h : ∀k,(0,0)≤l.checkpoint k)
include h

theorem startingPoint_bounds (k) (u) :
    l.checkpoint k≤l.startingPoint k u ∧ (0,0)≤l.startingPoint k u := by
  unfold startingPoint
  split_ifs with hk
  · exact ⟨le_rfl,h k⟩
  rw [not_not.mp hk,and_self]
  split
  · exact le_rfl
  split_ifs
  · exact le_rfl
  · exact h _

theorem Quiet.checkpoint_le (hq : Quiet l l' k u) (k') : l.checkpoint k'≤l'.checkpoint k' := by
  by_cases hk : k'=k
  · subst hk
    rcases hq.own with ho | ho
    · exact ho.ge
    · exact ho ▸ (startingPoint_bounds h k' u).1
  · exact (hq.others k' hk).ge

theorem Billed.checkpoint_le (hb : Billed l l' server report period)
    (k) : l.checkpoint k≤l'.checkpoint k := by
  rw [hb.checkpoint]
  split_ifs with hk
  · subst hk
    exact le_trans (startingPoint_bounds h _ report.userID).1 (hb.start ▸ hb.forward)
  · exact le_rfl

end

theorem refreshUsedBytes_spec
    (h : l.refreshUsedBytes e=.ok (l',())) : l'={l with users := l'.users} := by
  unfold refreshUsedBytes at h
  split at h
  · split_ifs at h
    obtain ⟨rfl,-⟩ := Prod.mk.inj (ok.inj h)
    rfl
  · obtain ⟨rfl,-⟩ := Prod.mk.inj (ok.inj h)
    rfl

theorem touchUsers_spec (h : l.touchUsers touched=.ok l') :
    l'={l with users := l'.users,policyRevision := l'.policyRevision} := by
  obtain ⟨⟨l1,us⟩,hc,h⟩ := bind_ok h
  have hl1 : l1={l with users := l1.users} := by
    refine collect_invariant (fun l1 _ => l1={l with users := l1.users}) (fun _ _ => True)
      (w := []) ?_ (guarded_of_forall _ (fun _ _ _ => trivial) _) rfl hc
    intro s _ e s' _ _ hs hstep
    rw [refreshUsedBytes_spec hstep,hs]
  obtain rfl := ok.inj h
  split_ifs
  · rw [hl1]
  · rw [hl1]

theorem commitTrafficLedger_cases (h : l.commitTrafficLedger commit=.ok (l',res)) :
    ∃l1 l2 observed answers,
      collect (upsertTrafficStreamTx commit.serverID commit.agentInstanceID) l commit.streams=
        .ok (l1,observed) ∧
      collect (commitReport commit) l1 commit.reports=.ok (l2,answers) ∧
      res.acceptedReports=answers.map fst ∧
      l'={l2 with users := l'.users,policyRevision := l'.policyRevision} := by
  unfold commitTrafficLedger at h
  split_ifs at h
  obtain ⟨⟨l1,observed⟩,h1,h⟩ := bind_ok h
  obtain ⟨⟨l2,answers⟩,h2,h⟩ := bind_ok h
  obtain ⟨l3,h3,h⟩ := bind_ok h
  obtain ⟨rfl,rfl⟩ := Prod.mk.inj (ok.inj h)
  exact ⟨l1,l2,observed,answers,h1,h2,rfl,touchUsers_spec h3⟩

def acceptedOf (commit : TrafficLedgerCommit) (answers : List TrafficAcceptedReport) :
    List (Int×TrafficReport) :=
  (commit.reports.zip answers).filterMap
    (fun e => if e.2.status=.accepted then some (commit.serverID,e.1) else none)

/-- One ledger call. A failed call leaves the ledger and the log as they were. -/
def commitStep (l : Ledger) (commit : TrafficLedgerCommit) : Ledger×List (Int×TrafficReport) :=
  match l.commitTrafficLedger commit with
  | .error _ => (l,[])
  | .ok (l',res) => (l',acceptedOf commit res.acceptedReports)

/-- Each report of a batch meets a condition, with the window found for it, in the ledger
it is processed in. -/
def BatchGuarded (G : Ledger → Int → TrafficReport → TrafficPeriod → Prop) (l : Ledger)
    (commit : TrafficLedgerCommit) : Prop :=
  ∀l1 observed,
    collect (upsertTrafficStreamTx commit.serverID commit.agentInstanceID) l commit.streams=
      .ok (l1,observed) →
    Guarded (commitReport commit) (fun m report => G m commit.serverID report
      (commit.periodFor report.userID report.periodKey)) l1 commit.reports

theorem observed_invariant (P : Ledger → Prop) (hobserve : ∀{l l' server agent obs stream},P l →
      l.upsertTrafficStreamTxReturn server agent obs=.ok (l',stream) → P l')
    (hl : P l) (h : collect (upsertTrafficStreamTx server agent) l observations=.ok (l',observed)) :
    P l' := by
  refine collect_invariant (fun l _ => P l) (fun _ _ => True) (w := []) ?_
    (guarded_of_forall _ (fun _ _ _ => trivial) _) hl h
  intro s _ obs s' o _ hs hstep
  obtain ⟨⟨s1,stream⟩,hup,hret⟩ := bind_ok hstep
  obtain ⟨rfl,-⟩ := Prod.mk.inj (ok.inj hret)
  exact hobserve hs hup

section

variable (P : Ledger → List (Int×TrafficReport) → Prop)
  (G : Ledger → Int → TrafficReport → TrafficPeriod → Prop)
  (husers : ∀{l l' log},P l log → l'={l with users := l'.users,policyRevision := l'.policyRevision} → P l' log)
include husers

/-- What the observations and the reports of a batch preserve, a whole ledger call preserves. -/
theorem commitStep_steps (hobserve : ∀{l l' server agent obs stream log},P l log →
      l.upsertTrafficStreamTxReturn server agent obs=.ok (l',stream) → P l' log)
    (hreport : ∀{l l' server agent report period a c log},P l log → G l server report period →
      commitTrafficReportTx server agent report period l=.ok (l',a,c) →
      P l' (if a.status=.accepted then log++[(server,report)] else log))
    (hg : BatchGuarded G l commit) (hl : P l w) :
    P (l.commitStep commit).1 (w++(l.commitStep commit).2) := by
  unfold commitStep
  cases h : l.commitTrafficLedger commit with
  | error e => simpa using hl
  | ok p =>
    obtain ⟨l1,l2,observed,answers,h1,h2,hres,hl'⟩ := commitTrafficLedger_cases h
    have hp1 : P l1 w := observed_invariant (fun l => P l w) hobserve hl h1
    have hp2 := collect_invariant
      (fun l entries => P l (w++acceptedOf {commit with reports := entries.map fst}
        (entries.map (·.2.1)))) _ (w := []) (by
        intro s entries report s' o hr hs hstep
        have := hreport hs hr hstep
        split_ifs at this with ha
        · simpa [acceptedOf,zip_append,ha] using this
        · simpa [acceptedOf,zip_append,ha] using this)
      (hg l1 observed h1) (by simpa [acceptedOf] using hp1) h2
    have hzip : ((commit.reports.zip answers).map fst).zip
        ((commit.reports.zip answers).map (·.2.1))= commit.reports.zip (answers.map fst) := by
      rw [zip_map',zip_map_right]
      rfl
    apply husers _ hl'
    simp only [acceptedOf,nil_append,hzip,← hres] at hp2
    exact hp2

theorem commitStep_invariant (hquiet : ∀{l l' k u log},P l log → Quiet l l' k u → P l' log)
    (hbill : ∀{l l' server report period log},P l log → G l server report period →
      Billed l l' server report period → P l' (log++[(server,report)]))
    (hg : BatchGuarded G l commit) (hl : P l w) :
    P (l.commitStep commit).1 (w++(l.commitStep commit).2) := by
  refine commitStep_steps P G husers (fun hp h => hquiet hp (upsert_quiet h)) ?_ hg hl
  intro l l' server agent report period a c log hp hr h
  rcases commitTrafficReportTx_spec h with ⟨ha,hq⟩ | ⟨ha,hb⟩
  · rw [if_neg ha]
    exact hquiet hp hq
  · rw [if_pos ha]
    exact hbill hp hr hb

end

end Oboard.Store.Ledger
