import Oboard.Store.TrafficLedgerProof
import Oboard.Framework.Segments

namespace Oboard.Store.Ledger

open Word64 Runs Segments List

def ranges (k : StreamKey) (log : List (Int×TrafficReport)) : List ((Int×Int)×(Int×Int)) :=
  (log.filter (fun e => reportKey e.1 e.2=k)).map (fun e => (rangeStart e.2,rangeEnd e.2))

section

variable (k : PeriodKey) (log : List (Int×TrafficReport))

def billedUpload : Int :=
  sumWhere (fun e => k=⟨e.2.userID,e.2.periodKey⟩)
    (fun e => e.2.toUploadBytes-e.2.fromUploadBytes) log

def billedDownload : Int :=
  sumWhere (fun e => k=⟨e.2.userID,e.2.periodKey⟩)
    (fun e => e.2.toDownloadBytes-e.2.fromDownloadBytes) log

end

def billedLease (k : LeaseKey) (log : List (Int×TrafficReport)) : Int :=
  sumWhere (fun e => k=⟨e.1,e.2.userID,e.2.periodKey⟩)
    (fun e => e.2.toUploadBytes-e.2.fromUploadBytes+(e.2.toDownloadBytes-e.2.fromDownloadBytes)) log

/-- A ledger before its first call: no traffic row of any kind and no migration. -/
structure Fresh (l : Ledger) : Prop where
  streams : l.streams=∅
  periods : l.periods=∅
  leases : l.leases=∅
  transitions : l.transitions=∅

/-- The stored rows are the books of the accepted reports. -/
structure Books (l : Ledger) (log : List (Int×TrafficReport)) : Prop where
  transitions : l.transitions=∅
  contiguous : ∀k,Contiguous (0,0) (ranges k log)
  checkpoint : ∀k,l.checkpoint k=endOf (0,0) (ranges k log)
  upload : ∀k,Fits (billedUpload k log) → (l.periodTotals k).1=billedUpload k log
  download : ∀k,Fits (billedDownload k log) → (l.periodTotals k).2=billedDownload k log
  lease : ∀k,Fits (billedLease k log) → l.consumed k=billedLease k log

theorem ranges_snoc : ranges k (log++[(server,report)])=
      ranges k log++if reportKey server report=k then [(rangeStart report,rangeEnd report)]
        else [] := by
  unfold ranges
  by_cases h : reportKey server report=k <;> simp [filter_append,h]

variable {l l' : Ledger} {report : TrafficReport} {server : Int}
  {period : TrafficPeriod}

theorem Fresh.books (h : Fresh l) : Books l [] := by
  obtain ⟨hs,hp,hl,ht⟩ := h
  refine ⟨ht,fun _ => trivial,?_,?_,?_,?_⟩
  · intro k
    simp [Ledger.checkpoint,hs,ranges,endOf]
  · intro k _
    simp [periodTotals,hp,billedUpload,sumWhere]
  · intro k _
    simp [periodTotals,hp,billedDownload,sumWhere]
  · intro k _
    simp [consumed,hl,billedLease,sumWhere]

theorem Books.mem_bounds (h : Books l log) (he : e∈log) :
    (0,0)≤rangeStart e.2 ∧ rangeStart e.2≤rangeEnd e.2 := by
  have hm : (rangeStart e.2,rangeEnd e.2)∈ranges (reportKey e.1 e.2) log :=
    mem_map.mpr ⟨e,mem_filter.mpr ⟨he,by simp⟩,rfl⟩
  obtain ⟨h0,h1,-⟩ := (h.contiguous _).mem_bounds hm
  exact ⟨h0,h1⟩

theorem Books.billedUpload_nonneg (h : Books l log) (k) : 0≤billedUpload k log := by
  apply sumWhere_nonneg
  intro e he
  have := (h.mem_bounds he).2.1
  simp only [rangeStart,rangeEnd] at this
  omega

theorem Books.billedDownload_nonneg (h : Books l log) (k) : 0≤billedDownload k log := by
  apply sumWhere_nonneg
  intro e he
  have := (h.mem_bounds he).2.2
  simp only [rangeStart,rangeEnd] at this
  omega

theorem Books.billedLease_nonneg (h : Books l log) (k) : 0≤billedLease k log := by
  apply sumWhere_nonneg
  intro e he
  obtain ⟨hu,hd⟩ := (h.mem_bounds he).2
  simp only [rangeStart,rangeEnd] at hu hd
  omega

theorem uploadDelta_eq (h0 : 0≤report.fromUploadBytes)
    (h : report.fromUploadBytes≤report.toUploadBytes) :
    uploadDelta report=report.toUploadBytes-report.fromUploadBytes := by
  have := report.int64.2.1.2
  exact wrap_of_fits ⟨by omega,by omega⟩

theorem downloadDelta_eq (h0 : 0≤report.fromDownloadBytes)
    (h : report.fromDownloadBytes≤report.toDownloadBytes) :
    downloadDelta report=report.toDownloadBytes-report.fromDownloadBytes := by
  have := report.int64.2.2.2.2
  exact wrap_of_fits ⟨by omega,by omega⟩

section

variable (h : ∀k,(0,0)≤l.checkpoint k) (hb : Billed l l' server report period)
include h hb

theorem Billed.counters : (0≤report.fromUploadBytes ∧ report.fromUploadBytes≤report.toUploadBytes) ∧
      0≤report.fromDownloadBytes ∧ report.fromDownloadBytes≤report.toDownloadBytes := by
  have hstart : (0,0)≤rangeStart report := hb.start ▸ (startingPoint_bounds h _ _).2
  exact ⟨⟨hstart.1,hb.forward.1⟩,hstart.2,hb.forward.2⟩

theorem Billed.deltas : uploadDelta report=report.toUploadBytes-report.fromUploadBytes ∧
      downloadDelta report=report.toDownloadBytes-report.fromDownloadBytes := by
  obtain ⟨⟨hu0,hup⟩,hd0,hdown⟩ := hb.counters h
  exact ⟨uploadDelta_eq hu0 hup,downloadDelta_eq hd0 hdown⟩

end

theorem sqlAdd_tracks {col sum delta : Int} (hs : 0 ≤ sum) (hd : 0≤delta)
    (h : Fits sum → col=sum) (hf : Fits (sum+delta)) : sqlAdd col delta=sum+delta := by
  have hsum : Fits sum := fits_of_bounds hs (by omega) hf.2
  have hdelta : Fits delta := fits_of_bounds hd (by omega) hf.2
  rw [h hsum]
  exact sqlAdd_of_fits hsum hdelta hf

theorem consumed_consume (l : Ledger) (k k' : LeaseKey) (h : Fits bytes) :
    (l.consume k bytes).consumed k'=
      if k'=k then sqlAdd (l.consumed k) bytes else l.consumed k' := by
  unfold consumed consume
  dsimp only
  rw [Table.lookup_insert_eq]
  split_ifs
  · cases l.leases.lookup k with
    | none => exact (sqlAdd_zero_left h).symm
    | some row => rfl
  · rfl

theorem Books.quiet (h : Books l log) (hq : Quiet l l' k u) : Books l' log := by
  have hcp := hq.checkpoint_eq h.transitions
  have hconsumed : l'.consumed=l.consumed := by
    funext k'
    rw [consumed,hq.leases]
    rfl
  exact ⟨hq.transitions.trans h.transitions,h.contiguous,fun k' => hcp ▸ h.checkpoint k',
    fun k' hf => hq.totals ▸ h.upload k' hf,fun k' hf => hq.totals ▸ h.download k' hf,
    fun k' hf => hconsumed ▸ h.lease k' hf⟩

theorem Books.bill_start (h : Books l log) (hb : Billed l l' server report period) :
    rangeStart report=endOf (0,0) (ranges (reportKey server report) log) ∧
    (0,0)≤rangeStart report := by
  have hs : rangeStart report=endOf (0,0) (ranges (reportKey server report) log) := by
    rw [← hb.start,startingPoint_of_no_transitions h.transitions,h.checkpoint]
  exact ⟨hs,hs ▸ (h.contiguous _).le_endOf⟩

theorem Books.bill (h : Books l log) (hr : Resolved period report)
    (hb : Billed l l' server report period) : Books l' (log++[(server,report)]) := by
  obtain ⟨hstart,hu0,hd0⟩ := h.bill_start hb
  obtain ⟨hu,hd⟩ := hb.forward
  simp only [rangeStart,rangeEnd] at hu0 hd0 hu hd
  have hup := uploadDelta_eq hu0 hu
  have hdown := downloadDelta_eq hd0 hd
  refine ⟨hb.transitions.trans h.transitions,?_,?_,?_,?_,?_⟩
  · intro k
    rw [ranges_snoc]
    split_ifs with hk
    · subst hk
      exact (contiguous_append ..).mpr ⟨h.contiguous _,hstart,hb.forward,trivial⟩
    · simpa using h.contiguous k
  · intro k
    rw [hb.checkpoint,ranges_snoc]
    by_cases hk : k=reportKey server report
    · rw [if_pos hk,if_pos hk.symm,endOf_append]
      rfl
    · rw [if_neg hk,if_neg (Ne.symm hk),append_nil,h.checkpoint]
  · intro k hf
    rw [hb.totals hr]
    simp only [billedUpload,sumWhere_snoc,decide_eq_true_eq] at hf ⊢
    split_ifs at hf ⊢
    · rw [hup]
      exact sqlAdd_tracks (h.billedUpload_nonneg k) (by omega) (h.upload k) hf
    · rw [add_zero] at hf ⊢
      exact h.upload k hf
  · intro k hf
    rw [hb.totals hr]
    simp only [billedDownload,sumWhere_snoc,decide_eq_true_eq] at hf ⊢
    split_ifs at hf ⊢
    · rw [hdown]
      exact sqlAdd_tracks (h.billedDownload_nonneg k) (by omega) (h.download k) hf
    · rw [add_zero] at hf ⊢
      exact h.download k hf
  · intro k hf
    have hc : l'.consumed k=(l.consume ⟨server,report.userID,report.periodKey⟩
        (wrap (uploadDelta report+downloadDelta report))).consumed k := by
      rw [consumed,hb.leases]
      rfl
    rw [hc,consumed_consume _ _ _ (fits_wrap _)]
    simp only [billedLease,sumWhere_snoc,decide_eq_true_eq] at hf ⊢
    split_ifs at hf ⊢ with hk
    · subst hk
      have hn := h.billedLease_nonneg ⟨server,report.userID,report.periodKey⟩
      have hdelta : Fits (report.toUploadBytes-report.fromUploadBytes+
          (report.toDownloadBytes-report.fromDownloadBytes)) :=
        fits_of_bounds (by omega) (le_add_of_nonneg_left hn) hf.2
      rw [hup,hdown,wrap_of_fits hdelta]
      exact sqlAdd_tracks hn (by omega) (h.lease _) hf
    · rw [add_zero] at hf ⊢
      exact h.lease k hf

theorem Books.users (h : Books l log)
    (hl : l'={l with users := l'.users,policyRevision := l'.policyRevision}) : Books l' log := by
  rw [hl]
  exact ⟨h.transitions,h.contiguous,h.checkpoint,h.upload,h.download,h.lease⟩

/-- Every batch window looked up for a report is the window of that report. -/
def BatchResolved (commit : TrafficLedgerCommit) : Prop :=
  ∀report∈commit.reports,Resolved (commit.periodFor report.userID report.periodKey) report

theorem Books.run (h : Books l log) (hc : ∀c∈commits,BatchResolved c) :
    Books (run commitStep l commits).1 (log++(run commitStep l commits).2) := by
  apply run_invariant Books (fun _ c => BatchResolved c) _
    (runGuarded_of_forall _ (fun c hm _ => hc c hm) _) h
  intro s log c hr hs
  exact commitStep_invariant Books (fun _ _ report period => Resolved period report) Books.users
    Books.quiet Books.bill (fun l1 _ _ => guarded_of_forall _ (fun r hm _ => hr r hm) l1) hs

theorem quiet_totals (h : commitTrafficReportTx server agent report period l=.ok (l',a,c))
    (ha : a.status≠.accepted) : l'.periodTotals=l.periodTotals ∧ l'.consumed=l.consumed := by
  rcases commitTrafficReportTx_cases h with ⟨-,hq,-⟩ | ⟨hacc,-⟩
  · refine ⟨hq.totals,?_⟩
    funext k
    rw [consumed,hq.leases]
    rfl
  · exact absurd hacc ha

/-- The charged ranges of a stream follow each other from zero on, and the columns are their sums as
far as those are 64-bit integers. -/
theorem exactly_once_billing (l : Ledger) (hl : Fresh l) (commits rest : List TrafficLedgerCommit)
    (hc : ∀c∈commits++rest,BatchResolved c) : let before := run commitStep l commits
    let after := run commitStep l (commits++rest)
    (∀k,Contiguous (0,0) (ranges k after.2) ∧ after.1.checkpoint k=endOf (0,0) (ranges k after.2) ∧
      before.1.checkpoint k≤after.1.checkpoint k) ∧
    (∀k,(Fits (billedUpload k after.2) → (after.1.periodTotals k).1=billedUpload k after.2) ∧
      (Fits (billedDownload k after.2) → (after.1.periodTotals k).2=billedDownload k after.2)) ∧
    (∀k,Fits (billedLease k after.2) → after.1.consumed k=billedLease k after.2) ∧
    ∀server agent report period m m' a c,
      commitTrafficReportTx server agent report period m=.ok (m',a,c) → a.status≠.accepted →
      m'.periodTotals=m.periodTotals ∧ m'.consumed=m.consumed := by
  have hbefore := hl.books.run (fun c hm => hc c (mem_append_left _ hm))
  have hafter := hl.books.run hc
  simp only [nil_append] at hbefore hafter
  intro before after
  refine ⟨fun k => ⟨hafter.contiguous k,hafter.checkpoint k,?_⟩,
    fun k => ⟨hafter.upload k,hafter.download k⟩,hafter.lease,
    fun _ _ _ _ _ _ _ _ h ha => quiet_totals h ha⟩
  have hlog : after.2=before.2++(run commitStep before.1 rest).2 :=
    congrArg Prod.snd (run_append commitStep l commits rest)
  have hranges : ranges k after.2=ranges k before.2++ranges k (run commitStep before.1 rest).2 := by
    rw [hlog]
    simp [ranges]
  have hsplit := hafter.contiguous k
  rw [hranges,contiguous_append] at hsplit
  rw [hbefore.checkpoint,hafter.checkpoint,hranges,endOf_append]
  exact hsplit.2.le_endOf

def oneUser : Ledger := ⟨[1],[],[],(∅ : Table Int Int).insert 1 0,∅,∅,∅,∅,∅,0⟩

theorem oneUser_fresh : Fresh oneUser := ⟨rfl,rfl,rfl,rfl⟩

def oneReport (reportID period : String) (fromUp toUp fromDown toDown : Int)
    (h : Fits fromUp ∧ Fits toUp ∧ Fits fromDown ∧ Fits toDown) : TrafficLedgerCommit :=
  ⟨1,"",∅,[],[⟨reportID,1,none,none,period,0,0,"core","s","e",fromUp,toUp,fromDown,toDown,h⟩]⟩

theorem oneReport_resolved (reportID period) (fromUp toUp fromDown toDown)
    (h : Fits fromUp ∧ Fits toUp ∧ Fits fromDown ∧ Fits toDown) :
    BatchResolved (oneReport reportID period fromUp toUp fromDown toDown h) :=
  fun _ _ => .inl rfl

/-- Two billed batches, a resent one between them. -/
theorem exactly_once_billing_resent : let commits := [oneReport "a" "2025-01" 0 10 0 4 (by decide),
      oneReport "b" "2025-01" 0 10 0 4 (by decide),oneReport "c" "2025-01" 10 30 4 5 (by decide)]
    (run commitStep oneUser commits).1.consumed ⟨1,1,"2025-01"⟩=35 := by
  intro commits
  have h := (exactly_once_billing oneUser oneUser_fresh [] commits (by
    intro c hc
    simp only [commits,nil_append,mem_cons,not_mem_nil,or_false] at hc
    rcases hc with rfl | rfl | rfl <;> exact oneReport_resolved _ _ _ _ _ _ _)).2.2.1 ⟨1,1,"2025-01"⟩
  have hsum : billedLease ⟨1,1,"2025-01"⟩ (run commitStep oneUser ([]++commits)).2=35 := by
    decide
  rw [hsum] at h
  exact h (by decide)

/-- One accepted range of 2^62 bytes each way is billed as a negative consumption. -/
theorem consumed_wraps :
    let out := run commitStep oneUser [oneReport "a" "2025-01" 0 (2^62) 0 (2^62) (by decide)]
    out.2.length=1 ∧ billedLease ⟨1,1,"2025-01"⟩ out.2=2^63 ∧
    out.1.consumed ⟨1,1,"2025-01"⟩=-2^63 := by
  decide

end Oboard.Store.Ledger
