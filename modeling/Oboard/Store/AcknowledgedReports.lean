import Oboard.Store.PeriodStateRuns

namespace Oboard.Store.Ledger

open Word64 Runs List Table

/-- Every stored report ends at or below the checkpoint of the stream its id names. -/
structure Backed (names : String → StreamKey×(Int×Int)) (l : Ledger) : Prop where
  transitions : l.transitions=∅
  reports : ∀id row,l.reports.lookup id=some row →
    names id=(row.stream,row.toUploadBytes,row.toDownloadBytes) ∧
      (row.toUploadBytes,row.toDownloadBytes)≤l.checkpoint row.stream

def Named (names : String → StreamKey×(Int×Int)) (server : Int) (report : TrafficReport) : Prop :=
  names report.reportID=(reportKey server report,rangeEnd report)

def batchStep (l : Ledger) (e : TrafficLedgerCommit×List Int×List Int) :
    Ledger×List (Int×TrafficReport) :=
  commitStep {l with inbounds := e.2.1,proxyPaths := e.2.2} e.1

variable {names : String → StreamKey×(Int×Int)} {l l' : Ledger} {server : Int} {agent : String}
  {report : TrafficReport} {period : TrafficPeriod} {a : TrafficAcceptedReport}
  {c : TrafficStreamCheckpoint}

theorem Backed.quiet (h : Backed names l) (hq : Quiet l l' k u)
    (hr : l'.reports=l.reports) : Backed names l' := by
  refine ⟨hq.transitions.trans h.transitions,?_⟩
  rw [hr,hq.checkpoint_eq h.transitions]
  exact h.reports

theorem Backed.observe (h : Backed names l)
    (hup : l.upsertTrafficStreamTxReturn server agent obs=.ok (l',stream)) : Backed names l' :=
  h.quiet (upsert_quiet hup) (by rw [(upsert_spec hup).1.others])

theorem Backed.commitReport (h : Backed names l) (hn : Named names server report)
    (hcommit : commitTrafficReportTx server agent report period l=.ok (l',a,c)) :
    Backed names l' := by
  rcases commitTrafficReportTx_cases hcommit with ⟨-,hq,hr,-⟩ |
    ⟨ha,l1,stream,l2,l3,hload,-,hup,hins,hl'⟩
  · exact h.quiet hq hr
  rcases commitTrafficReportTx_spec hcommit with ⟨hna,-⟩ | ⟨-,hb⟩
  · exact absurd ha hna
  have hreports : l'.reports=l.reports.insert report.reportID (reportRow server report) := by
    rw [hl']
    change l3.reports=_
    rw [insertTrafficReport_spec hins,(upsertPeriod_spec hup).1,(upsert_spec hload).1.others]
  have hstart : l.checkpoint (reportKey server report)=rangeStart report := by
    rw [← hb.start,startingPoint_of_no_transitions h.transitions]
  refine ⟨hb.transitions.trans h.transitions,?_⟩
  rw [hreports]
  refine forall_insert (fun id row hrow => ?_) ⟨hn,?_⟩
  · obtain ⟨hname,hle⟩ := h.reports id row hrow
    refine ⟨hname,?_⟩
    rw [hb.checkpoint]
    split_ifs with hk
    · rw [hk,hstart] at hle
      exact hle.trans hb.forward
    · exact hle
  · rw [hb.checkpoint]
    exact (if_pos rfl).ge

theorem Backed.known (h : Backed names l) (hn : Named names server report)
    (hk : l.Known server report) : rangeEnd report≤l.checkpoint (reportKey server report) := by
  rcases hk with hid | hrange | hle
  · obtain ⟨row,hrow⟩ := Option.isSome_iff_exists.mp (AList.lookup_isSome.mpr hid)
    obtain ⟨hname,hle⟩ := h.reports _ row hrow
    obtain ⟨hkey,hend⟩ := Prod.mk.inj (hn.symm.trans hname)
    rw [hkey,hend]
    exact hle
  · obtain ⟨⟨id,row⟩,hrow,hsame⟩ := any_eq_true.mp hrange
    obtain ⟨-,hle⟩ := h.reports id row (AList.mem_lookup_iff.mpr hrow)
    simp only [ReportRow.sameRange,Bool.and_eq_true,decide_eq_true_eq] at hsame
    obtain ⟨⟨⟨⟨⟨hkey,-⟩,hup⟩,-⟩,hdown⟩,-⟩ := hsame
    rw [← hkey,← hup,← hdown] at hle
    exact hle
  · exact hle

theorem knownTarget_of_inserted
    (hload : l.loadOrCreateTrafficStreamTx server agent report=.ok (l1,stream))
    (hup : l1.upsertPeriod p=.ok l2)
    (hins : l2.insertTrafficReport report.reportID (reportRow server report)=some l3) :
    l.KnownTarget report := by
  have hl2 : l2={l with streams := l1.streams,periods := l2.periods} := by
    rw [(upsertPeriod_spec hup).1,(upsert_spec hload).1.others]
  rw [hl2] at hins
  unfold insertTrafficReport at hins
  split_ifs at hins with hbad
  simp only [not_or,not_exists,not_and,not_not] at hbad
  exact ⟨hbad.2.2.2.2.1,hbad.2.2.2.2.2⟩

theorem Backed.acknowledged_iff (h : Backed names l) (hn : Named names server report)
    (hcommit : commitTrafficReportTx server agent report period l=.ok (l',a,c))
    (hack : a.status∈[AcceptStatus.accepted,.duplicate,.covered]) :
    rangeEnd report≤l'.checkpoint (reportKey server report) ↔
      l.KnownTarget report ∨ rangeEnd report≤l.checkpoint (reportKey server report) := by
  have hafter := h.commitReport hn hcommit
  rcases commitTrafficReportTx_cases hcommit with ⟨hna,hq,-,⟨-,hknown⟩ | hw⟩ |
    ⟨ha,l1,stream,l2,l3,hload,-,hup,hins,-⟩
  · have hle := hafter.known hn (hknown (by simpa [hna] using hack))
    exact ⟨fun _ => .inr (hq.checkpoint_eq h.transitions ▸ hle),fun _ => hle⟩
  · -- the row was refused for its inbound or path, and the answer is still covered
    rw [hq.checkpoint_eq h.transitions]
    exact ⟨.inr,fun hor => hor.resolve_left hw.unknown⟩
  · rcases commitTrafficReportTx_spec hcommit with ⟨hna,-⟩ | ⟨-,hb⟩
    · exact absurd ha hna
    rw [hb.checkpoint,if_pos rfl]
    exact ⟨fun _ => .inl (knownTarget_of_inserted hload hup hins),fun _ => le_rfl⟩

theorem Backed.run (h : Backed names l)
    (hn : ∀e∈history,∀report∈e.1.reports,Named names e.1.serverID report) :
    Backed names (Runs.run batchStep l history).1 := by
  refine run_invariant (fun l _ => Backed names l) _ ?_
    (runGuarded_of_forall _ (fun e he _ => hn e he) _) (w := []) h
  intro s log e hr hs
  refine commitStep_steps (fun l _ => Backed names l)
    (fun _ server report _ => Named names server report) (fun h hl => ?_) Backed.observe
    Backed.commitReport
    (fun l1 _ _ => guarded_of_forall _ (fun report hm _ => hr report hm) l1) (w := []) ?_
  · rw [hl]
    exact ⟨h.transitions,h.reports⟩
  · exact ⟨hs.transitions,hs.reports⟩

/-- A report the agent may discard is behind its stream's checkpoint exactly when its
inbound and path exist or it was behind that checkpoint already. -/
theorem acknowledged_report_is_kept_iff (names : String → StreamKey×(Int×Int)) (l : Ledger)
    (ht : l.transitions=∅) (hr : l.reports=∅)
    (past : List (TrafficLedgerCommit×List Int×List Int)) (commit : TrafficLedgerCommit)
    (inbounds proxyPaths : List Int)
    (hn : ∀e∈past++[(commit,inbounds,proxyPaths)],∀report∈e.1.reports,
      Named names e.1.serverID report) :
    BatchGuarded (fun m server report period => ∀agent m' a c,
        commitTrafficReportTx server agent report period m=.ok (m',a,c) →
        a.status∈[AcceptStatus.accepted,.duplicate,.covered] →
        (rangeEnd report≤ m'.checkpoint (reportKey server report) ↔
          m.KnownTarget report ∨ rangeEnd report≤ m.checkpoint (reportKey server report)))
      {(Runs.run batchStep l past).1 with inbounds := inbounds,proxyPaths := proxyPaths} commit := by
  have hempty : Backed names l := ⟨ht,by simp [hr]⟩
  have hpast := hempty.run (fun e he => hn e (mem_append_left _ he))
  have hcommit := hn (commit,inbounds,proxyPaths) (mem_append_right _ mem_cons_self)
  intro l1 observed h1
  have hl1 : Backed names l1 :=
    observed_invariant _ Backed.observe (by exact ⟨hpast.transitions,hpast.reports⟩) h1
  refine guarded_of_invariant (Backed names) (fun hm h hc => h.commitReport (hcommit _ hm) hc) ?_ hl1
  intro m report hm h agent m' a c hc hack
  exact h.acknowledged_iff (hcommit report hm) hc hack

theorem resent_report_is_kept : ∃m' a c,commitReport (oneReport "a" "2025-01" 0 10 0 4 (by decide))
      (Runs.run batchStep oneUser [(oneReport "a" "2025-01" 0 10 0 4 (by decide),[],[])]).1
      ⟨"a",1,none,none,"2025-01",0,0,"core","s","e",0,10,0,4,by decide⟩=.ok (m',a,c) ∧
    a.status=.duplicate ∧ (10,4)≤ m'.checkpoint ⟨1,"core","s","e","2025-01"⟩ := by
  have h := (acknowledged_report_is_kept_iff (fun _ => (⟨1,"core","s","e","2025-01"⟩,10,4)) oneUser
    rfl rfl [(oneReport "a" "2025-01" 0 10 0 4 (by decide),[],[])]
    (oneReport "a" "2025-01" 0 10 0 4 (by decide)) [] [] (by
      simp [oneReport,Named,reportKey,rangeEnd])) _ _ rfl
  exact ⟨_,_,_,rfl,by decide,(h.1 _ _ _ _ rfl (by decide)).mpr (.inr (by decide))⟩

/-- The report of a deleted inbound is answered covered, and its bytes are not stored. -/
theorem deleted_inbound_report_is_lost :
    ∃m' res,oneUser.commitTrafficLedger ⟨1,"",∅,[],[⟨"a",1,some 7,none,"2025-01",0,0,"core","s","e",
      0,10,0,4,by decide⟩]⟩=.ok (m',res) ∧
    res.acceptedReports.map TrafficAcceptedReport.status=[.covered] ∧
    m'.checkpoint ⟨1,"core","s","e","2025-01"⟩=(0,0) ∧ m'.reports=∅ :=
  ⟨_,_,rfl,by decide,by decide,rfl⟩

end Oboard.Store.Ledger
