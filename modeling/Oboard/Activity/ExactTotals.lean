import Oboard.Activity.Sequencing
import Oboard.Activity.Tallies

namespace Oboard.Activity

open Runs Cumulative List Counts PipelineMove

section delivery

variable {env : PipelineEnv} {db db' : ActivityDB} {log : List PipelineEvent}
  {b : AccountActivityBatch}

def applied (log : List PipelineEvent) : List AccountActivityBatch :=
  log.filterMap fun
    | .accepted _ => none
    | .applied b => some b

/-- Every accepted batch is waiting or has been applied. -/
structure Delivered (db : ActivityDB) (log : List PipelineEvent) : Prop where
  waiting : ∀b∈accepted log,b∈applied log ∨
    ∃row,db.inbox.lookup b.inboxKey=some row ∧ row.payload=some b
  from_accepted : ∀b∈applied log,b∈accepted log

theorem Delivered.same (h : Delivered db log) (hinbox : db'.inbox=db.inbox) : Delivered db' log :=
  ⟨hinbox ▸ h.waiting,h.from_accepted⟩

theorem Delivered.stored {stream : StreamRow} {room : ActivityDB} (h : Delivered db log)
    (hs : Stored env db b stream room db') : Delivered db' (log++[.accepted b]) := by
  have haccepted : accepted (log++[.accepted b])=accepted log++[b] := accepted_append
  have happlied : applied (log++[.accepted b])=applied log := by
    rw [applied,filterMap_append]
    exact append_nil _
  have hroom := reserve_only hs.reserved
  obtain ⟨digest,gap,rfl⟩ := hs.result
  refine ⟨fun b' hb' => ?_,fun b' hb' => ?_⟩
  · rw [haccepted] at hb'
    rw [happlied]
    rcases mem_append.mp hb' with hb' | hb'
    · refine (h.waiting b' hb').imp id ?_
      rintro ⟨row,hrow,hpayload⟩
      refine ⟨row,?_,hpayload⟩
      have hne : b'.inboxKey≠b.inboxKey := by
        intro heq
        rw [heq,hs.fresh] at hrow
        exact nomatch hrow
      simp only [storeBatch]
      rw [AList.lookup_insert_ne hne,Table.lookup_deleteRows,hroom,hrow,Option.filter_some,if_pos]
      simp [hpayload]
    · cases mem_singleton.mp hb'
      exact .inr ⟨_,AList.lookup_insert _,rfl⟩
  · rw [happlied] at hb'
    rw [haccepted]
    exact mem_append_left _ (h.from_accepted b' hb')

theorem Delivered.finish {i : InboxKey×InboxRow}
    (h : Delivered db log) (hrow : db.inbox.lookup i.1=some i.2) (hb : i.2.payload=some b)
    (hkey : i.1=b.inboxKey) (haccepted : b∈accepted log) (hinbox : items.inbox=db.inbox) :
    Delivered (finishBatch env items b gap now) (log++[.applied b]) := by
  have hlog : accepted (log++[.applied b])=accepted log := by
    rw [accepted_append]
    exact append_nil _
  have happlied : applied (log++[.applied b])=applied log++[b] := by
    rw [applied,filterMap_append]
    rfl
  refine ⟨fun b' hb' => ?_,fun b' hb' => ?_⟩
  · rw [hlog] at hb'
    rw [happlied]
    rcases h.waiting b' hb' with hdone | ⟨row,hrow',hpayload⟩
    · exact .inl (mem_append_left _ hdone)
    by_cases hsame : b'.inboxKey=b.inboxKey
    · rw [hsame,← hkey,hrow] at hrow'
      cases hrow'
      cases hpayload.symm.trans hb
      exact .inl (mem_append_right _ mem_cons_self)
    refine .inr ⟨row,?_,hpayload⟩
    rw [finishBatch_only]
    change (items.inbox.modify _ _).lookup _=_
    rw [Table.lookup_modify,if_neg hsame,hinbox]
    exact hrow'
  · rw [happlied] at hb'
    rw [hlog]
    rcases mem_append.mp hb' with hb' | hb'
    · exact h.from_accepted b' hb'
    · cases mem_singleton.mp hb'
      exact haccepted

end delivery

section runs

variable {env : PipelineEnv} {groupOf : Int → String → String → String} {db db' : ActivityDB}
  {log : List PipelineEvent} {b : AccountActivityBatch}

/-- Reports are aligned and map every raw source of an account and version to one group. -/
def AccountActivityBatch.Regular (b : AccountActivityBatch)
    (groupOf : Int → String → String → String) : Prop :=
  b.clockState=.aligned ∧ ∀r∈b.items,r.sourceGroup=groupOf r.accountID b.sourceVersion r.counted

instance : Decidable (b.Regular groupOf) := inferInstanceAs (Decidable (_ ∧ _))

/-- Only regular reports are sent, and they are applied before their minute expires. -/
def InTime (groupOf : Int → String → String → String) (db : ActivityDB) : PipelineMove → Prop
  | .receive batch _ => batch.Regular groupOf
  | .apply now => ∀b∈db.nextBatch,retentionCutoff now≤b.minuteUnix
  | .expect _ _ | .cleanup _ => False

instance (db : ActivityDB) : ∀move,Decidable (InTime groupOf db move)
  | .receive batch _ => inferInstanceAs (Decidable (batch.Regular groupOf))
  | .apply now => inferInstanceAs (Decidable (∀b∈db.nextBatch,retentionCutoff now≤b.minuteUnix))
  | .expect _ _ | .cleanup _ => inferInstanceAs (Decidable False)

/-- The clock that a call reads is not behind the stored one. -/
def NotBehind (db : ActivityDB) (move : PipelineMove) : Prop := db.clock≤ max 0 (unix move.instant)

theorem clock_step (env) (db) (move) :
    (pipelineStep env db move).1.clock≤ max db.clock (unix move.instant) := by
  have hturn := pipelineStep_turn env db move
  generalize pipelineStep env db move=result at hturn ⊢
  cases hturn with
  | failed | cleaned => exact le_max_left _ _
  | ticked => exact le_rfl
  | stored hb hraw hs =>
    obtain ⟨digest,gap,rfl⟩ := hs.result
    rw [reserve_only hs.reserved]
    exact le_rfl
  | applied hnext hb hitems =>
    dsimp only
    rw [finishBatch_only,applyItems_only hitems]
    exact le_rfl
  | expected hsave =>
    dsimp only
    rw [saveAccountActivityExpected_only hsave]
    exact le_rfl

theorem unix_mono (h : t≤t') : unix t≤unix t' := Int.ediv_le_ediv (by decide) h

theorem notBehind_run (hordered : (moves.map instant).Pairwise (·≤·))
    (hstart : ∀move∈moves,NotBehind db move) : RunGuarded (pipelineStep env) NotBehind db moves := by
  induction moves generalizing db with
  | nil => trivial
  | cons move moves ih =>
    obtain ⟨hfirst,hrest⟩ := pairwise_cons.mp hordered
    refine ⟨hstart move mem_cons_self,ih hrest fun next hnext => ?_⟩
    have hclock := clock_step env db move
    have hbefore : db.clock≤ max 0 (unix next.instant) := hstart next (mem_cons_of_mem _ hnext)
    have hinstant := unix_mono (hfirst _ (mem_map_of_mem hnext))
    exact hclock.trans (max_le hbefore (hinstant.trans (le_max_right _ _)))

theorem live_of_inTime (hclock : clock≤ max 0 (unix now)) (hminute : 0< minute)
    (h : retentionCutoff now≤ minute) : reclaimCutoff (max clock (unix now))≤ minute := by
  rcases le_or_gt 0 (unix now) with hpos | hneg
  · rw [max_eq_right hpos] at hclock
    rw [max_eq_right hclock]
    unfold reclaimCutoff
    rw [Int.tmod_eq_emod_of_nonneg hpos]
    exact h
  · rw [max_eq_left hneg.le] at hclock
    have hcutoff := reclaimCutoff_mono (max_le hclock hneg.le)
    have hzero : reclaimCutoff 0= -1920 := by decide
    omega

theorem AccountActivityBatch.WellFormed.minute_pos (h : b.WellFormed) : 0<b.minuteUnix := by
  have := h.header
  simp only [AccountActivityBatch.headerValid,Bool.and_eq_true,decide_eq_true_eq] at this
  tauto

theorem mem_snapshots : s∈snapshots batches ↔ ∃b∈batches,∃r∈b.items,b.snapshot r=s := by
  simp only [snapshots,AccountActivityBatch.snapshots,mem_flatMap,mem_map]

theorem snapshots_mono (h : batches⊆batches') : snapshots batches⊆snapshots batches' := by
  intro s hs
  obtain ⟨b,hb,hr⟩ := mem_snapshots.mp hs
  exact mem_snapshots.mpr ⟨b,h hb,hr⟩

theorem Admitted.ascending (h : Admitted db log) : Ascending (snapshots (accepted log)) := by
  intro s hs t ht hcounter hseq
  obtain ⟨b,hb,r,hr,rfl⟩ := mem_snapshots.mp hs
  obtain ⟨b',hb',r',hr',rfl⟩ := mem_snapshots.mp ht
  have hsnap := snap_of_item hb hr
  have hcounter' : b.counterKey r=b'.counterKey r' := hcounter
  rw [hcounter'] at hsnap
  exact h.ordered _ _ _ hsnap (snap_of_item hb' hr') hseq

def groupKey (groupOf : Int → String → String → String) (c : CounterKey) : SourceKey :=
  ⟨c.account,c.minute,c.version,groupOf c.account c.version c.source⟩

theorem mapped_of_regular
    (h : ∀b∈batches,b.Regular groupOf) : Mapped (groupKey groupOf) (snapshots batches) := by
  intro s hs
  obtain ⟨b,hb,r,hr,rfl⟩ := mem_snapshots.mp hs
  have hgroup := (h b hb).2 r hr
  simp only [AccountActivityBatch.snapshot,AccountActivityBatch.sourceKey,groupKey,
    AccountActivityBatch.counterKey,hgroup]

/-- All that was accepted is regular, is on its way, and is counted once it is applied. -/
structure Exact (groupOf : Int → String → String → String) (db : ActivityDB)
    (log : List PipelineEvent) : Prop where
  admitted : Admitted db log
  regular : ∀b∈accepted log,b.Regular groupOf
  delivered : Delivered db log
  tallied : Tallied (snapshots (accepted log)) db (snapshots (applied log))

section

variable (h : Exact groupOf db log)
include h

theorem Exact.tick (now) : Exact groupOf (db.tick now) log :=
  ⟨h.admitted.keeps (keeps_tick now),h.regular,h.delivered.same rfl,
    h.tallied.keeps (.of_same (le_max_left _ _) rfl rfl rfl)⟩

theorem Exact.stored {stream : StreamRow} {room : ActivityDB}
    (hb : b.WellFormed) (hregular : b.Regular groupOf) (hs : Stored env db b stream room db') :
    Exact groupOf db' (log++[.accepted b]) := by
  have hlog : accepted (log++[.accepted b])=accepted log++[b] := accepted_append
  have happlied : applied (log++[.accepted b])=applied log := by
    rw [applied,filterMap_append]
    exact append_nil _
  have hadmitted := h.admitted.stored hb hs
  refine ⟨hadmitted,fun b' hb' => ?_,h.delivered.stored hs,?_⟩
  · rw [hlog] at hb'
    rcases mem_append.mp hb' with hb' | hb'
    · exact h.regular b' hb'
    · cases mem_singleton.mp hb'
      exact hregular
  · rw [happlied]
    refine h.tallied.stored_batch (snapshots_mono ?_) hadmitted.ascending hs
    rw [hlog]
    exact subset_append_left _ _

theorem Exact.finish {i : InboxKey×InboxRow}
    (env) (now) (hnow : unix now≤db.clock) (hnext : db.nextPending=some i)
    (hb : i.2.payload=some b) (hlive : reclaimCutoff db.clock≤b.minuteUnix)
    (hitems : b.items.foldlM (Activity.applyItem b) db=.ok items) :
    Delivered (finishBatch env items b i.2.gap now) (log++[.applied b]) ∧
    Tallied (snapshots (accepted (log++[.applied b]))) (finishBatch env items b i.2.gap now)
      (snapshots (applied (log++[.applied b]))) := by
  have hrow := (mem_pending.mp (nextPending_mem hnext)).1
  obtain ⟨haccepted,hkey,-⟩ := h.admitted.pending i.1 i.2 b hrow hb
  have honly := applyItems_only hitems
  have hclock : items.clock=db.clock := by rw [honly]
  refine ⟨h.delivered.finish hrow hb hkey haccepted (by rw [honly]),?_⟩
  have hlog : accepted (log++[.applied b])=accepted log := by
    rw [accepted_append]
    exact append_nil _
  have happlied : snapshots (applied (log++[.applied b]))=
      snapshots (applied log)++b.items.map b.snapshot := by
    rw [applied,filterMap_append,snapshots,flatMap_append]
    exact congrArg _ (append_nil _)
  rw [hlog,happlied]
  refine (h.tallied.applyItems (mapped_of_regular h.regular) h.admitted.ascending
    (fun r hr => mem_snapshots.mpr ⟨b,haccepted,r,hr,rfl⟩)
    (h.admitted.wellFormed b haccepted).sequence_pos (h.regular b haccepted).1 hlive hitems).keeps ?_
  exact keepsLive_finishBatch (hclock ▸ hnow) i.2.gap

theorem Exact.step (env) (move) (hg : InTime groupOf db move ∧ NotBehind db move) :
    Exact groupOf (pipelineStep env db move).1 (log++(pipelineStep env db move).2) := by
  have hsame : Exact groupOf db (log++[]) := by rwa [append_nil]
  have hadmitted := h.admitted.step env move
  have hturn := pipelineStep_turn env db move
  generalize pipelineStep env db move=result at hadmitted hturn ⊢
  cases hturn with
  | failed => exact hsame
  | ticked => exact hsame.tick _
  | stored hb hraw hs =>
    obtain ⟨hclock,hversion,hmem⟩ := hraw
    refine (h.tick _).stored hb ⟨hclock.trans hg.1.1,fun r hr => ?_⟩ hs
    rw [hversion]
    exact hg.1.2 r ((hmem r).mp hr)
  | @applied i b items now hnext hb hitems =>
    have hrow := (mem_pending.mp (nextPending_mem hnext)).1
    obtain ⟨haccepted,-,-⟩ := h.admitted.pending i.1 i.2 b hrow hb
    have hkept := hg.1 b (by rw [ActivityDB.nextBatch,hnext]; exact hb)
    have hlive := live_of_inTime hg.2 (h.admitted.wellFormed b haccepted).minute_pos hkept
    obtain ⟨hdelivered,htallied⟩ := (h.tick now).finish env now (le_max_right _ _)
      hnext hb hlive hitems
    refine ⟨hadmitted trivial,fun b' hb' => h.regular b' ?_,hdelivered,htallied⟩
    rw [accepted_append] at hb'
    simpa [accepted] using hb'
  | expected hsave => exact hg.1.elim
  | cleaned => exact hg.1.elim

end

theorem exact_empty : Exact groupOf {} [] := by
  refine ⟨admitted_empty,fun _ => nofun,⟨fun _ => nofun,fun _ => nofun⟩,
    ⟨fun _ h => h,fun _ _ => rfl,fun _ _ _ => ⟨rfl,fun _ => ?_⟩,nofun, nofun⟩⟩
  simp [ActivityDB.sourceOf,total,counters,applied,snapshots]

theorem Exact.drained (h : Exact groupOf db log) (hpending : db.pending=[])
    (hlive : reclaimCutoff db.clock≤k.minute)
    (hlimit : WithinSourceLimit (snapshots (accepted log)) k.account k.minute)
    (hrange : WithinByteRange (snapshots (accepted log)) k.account k.minute) :
    (db.sourceOf k).bytes=total bytes (snapshots (accepted log)) k ∧
    ∀i,(db.sourceOf k).bits.testBit i=true ↔ 0<total (slice i) (snapshots (accepted log)) k := by
  have hall : snapshots (accepted log)⊆snapshots (applied log) := by
    refine snapshots_mono fun b hb => ?_
    rcases h.delivered.waiting b hb with hdone | ⟨row,hrow,hpayload⟩
    · exact hdone
    have hmem : (b.inboxKey,row)∈db.pending := mem_pending.mpr ⟨hrow,by rw [hpayload]; rfl⟩
    rw [hpending] at hmem
    exact nomatch hmem
  have hquality : db.quality.lookup (k.account,k.minute)=none := by
    by_contra hsome
    exact h.tallied.exceeded _ _ (Option.isSome_iff_ne_none.mpr hsome) ⟨hlimit,hrange⟩
  have hasc := h.admitted.ascending
  have hsame {f : Counts → Nat} (hf : Grows f (snapshots (accepted log))) :
      total f (snapshots (applied log)) k=total f (snapshots (accepted log)) k := by
    have hf' : Grows f (snapshots (applied log)) := fun s hs t ht =>
      hf s (h.tallied.sub hs) t (h.tallied.sub ht)
    exact le_antisymm (total_mono h.tallied.sub hf k) (total_mono hall hf' k)
  obtain ⟨hbytes,hbits⟩ := h.tallied.source k hlive hquality
  rw [hsame hasc.bytes] at hbytes
  refine ⟨hbytes,fun i => ?_⟩
  rw [hbits i,hsame (hasc.slice i)]

theorem slice_total_pos {all : List (Snapshot SourceKey CounterKey Counts)} :
    0<total (slice i) all k ↔
      ∃c∈counters all k,∃s,latest all c=some s ∧ s.value.bits.testBit i=true := by
  rw [total,Finset.sum_pos_iff]
  refine exists_congr fun c => and_congr_right fun _ => ?_
  unfold reached
  cases latest all c with
  | none => simp
  | some s =>
    simp only [Option.elim,Option.some.injEq,exists_eq_left',slice]
    split_ifs with hi <;> simp [hi]

/-- The inbox holds accepted batches that are not applied yet, and none is applied twice. -/
structure HandedOver (db : ActivityDB) (log : List PipelineEvent) : Prop extends
    Delivered db log where
  held : ∀key row b,db.inbox.lookup key=some row → row.payload=some b →
    key=b.inboxKey ∧ b∈accepted log ∧ b∉applied log
  once : (applied log).Nodup

namespace HandedOver

variable (h : HandedOver db log)
include h

theorem same (hinbox : db'.inbox=db.inbox) : HandedOver db' log :=
  ⟨h.toDelivered.same hinbox,hinbox ▸ h.held,h.once⟩

theorem stored {stream : StreamRow} {room : ActivityDB} (hs : Stored env db b stream room db')
    (hnew : b∉accepted log) : HandedOver db' (log++[.accepted b]) := by
  have happlied : applied (log++[.accepted b])=applied log := by simp [applied]
  refine ⟨h.toDelivered.stored hs,fun key row b' hrow hb' => ?_,happlied ▸ h.once⟩
  obtain ⟨digest,gap,rfl⟩ := hs.result
  rw [storeBatch,reserve_only hs.reserved,Table.lookup_insert_eq] at hrow
  rw [accepted_append,happlied]
  split_ifs at hrow with hkey
  · cases hrow
    cases hb'
    exact ⟨hkey,by simp [accepted],fun hb => hnew (h.from_accepted b hb)⟩
  · rw [Table.lookup_deleteRows,Option.filter_eq_some_iff] at hrow
    exact (h.held key row b' hrow.1 hb').imp_right (.imp_left (mem_append_left _))

theorem finish {i : InboxKey×InboxRow} (hrow : db.inbox.lookup i.1=some i.2)
    (hb : i.2.payload=some b) (hinbox : items.inbox=db.inbox) :
    HandedOver (finishBatch env items b gap now) (log++[.applied b]) := by
  obtain ⟨hkey,hmem,hnot⟩ := h.held i.1 i.2 b hrow hb
  have happlied : applied (log++[.applied b])=applied log++[b] := by simp [applied]
  refine ⟨h.toDelivered.finish hrow hb hkey hmem hinbox,fun key row b' hrow' hb' => ?_,?_⟩
  · rw [finishBatch_only,Table.lookup_modify,hinbox] at hrow'
    rw [accepted_append,happlied]
    split_ifs at hrow' with hsame
    · obtain ⟨_,-,rfl⟩ := Option.map_eq_some_iff.mp hrow'
      cases hb'
    · have := h.held key row b' hrow' hb'
      grind
  · rw [happlied]
    exact concat_eq_append ▸ h.once.concat hnot

theorem step (hs : Sequenced env db log) (move) :
    HandedOver (pipelineStep env db move).1 (log++(pipelineStep env db move).2) := by
  have hsame : HandedOver db (log++[]) := by rwa [append_nil]
  have honce := (hs.step move).once.of_map
  have hturn := pipelineStep_turn env db move
  generalize pipelineStep env db move=result at honce hturn ⊢
  cases hturn with
  | failed | ticked | cleaned => exact hsame.same rfl
  | expected hsave => exact hsame.same (by rw [saveAccountActivityExpected_only hsave]; rfl)
  | @stored _ b now _ _ _ _ _ hs =>
    have hticked : HandedOver (db.tick now) log := h.same rfl
    rw [accepted_append,nodup_append] at honce
    exact hticked.stored hs fun hb => honce.2.2 b hb b mem_cons_self rfl
  | applied hnext hb hitems =>
    exact h.finish (mem_pending.mp (nextPending_mem hnext)).1 hb (by rw [applyItems_only hitems]; rfl)

end HandedOver

/-- In every run, whatever the clocks, an accepted batch is applied or still in the inbox, and no
batch is accepted or applied twice. -/
theorem accepted_batches_applied_once (env : PipelineEnv) (moves : List PipelineMove) :
    let reached := run (pipelineStep env) {} moves
    (∀b∈accepted reached.2,b∈applied reached.2 ∨
      ∃row,reached.1.inbox.lookup b.inboxKey=some row ∧ row.payload=some b) ∧
    applied reached.2⊆accepted reached.2 ∧ (applied reached.2).Nodup ∧
    ((accepted reached.2).map (·.inboxKey)).Nodup := by
  obtain ⟨hs,h⟩ := run_invariant (fun db log => Sequenced env db log ∧ HandedOver db log)
    (fun _ _ => True) (fun _ hi => ⟨hi.1.step _,hi.2.step hi.1 _⟩)
    (runGuarded_of_forall _ (fun _ _ _ => trivial) _)
    ⟨sequenced_empty,⟨fun _ => nofun,fun _ => nofun⟩,fun _ _ _ => nofun,nodup_nil⟩
  exact ⟨h.waiting,h.from_accepted,h.once,hs.once⟩

end runs

/-- Reports of aligned collectors are accepted once, in the order of their boots, and the rows of
every kept minute add up to the latest accepted snapshots, within the source limit and the byte
range. -/
theorem activity_counted_exactly_once (env : PipelineEnv) (groupOf : Int → String → String → String)
    {moves : List PipelineMove} (hordered : (moves.map instant).Pairwise (·≤·))
    (h : RunGuarded (pipelineStep env) (InTime groupOf) {} moves) :
    ((accepted (run (pipelineStep env) {} moves).2).map (·.inboxKey)).Nodup ∧
    (accepted (run (pipelineStep env) {} moves).2).Pairwise InBootOrder ∧
    ((run (pipelineStep env) {} moves).1.pending=[] → ∀k : SourceKey,
      reclaimCutoff (run (pipelineStep env) {} moves).1.clock≤k.minute →
      WithinSourceLimit (snapshots (accepted (run (pipelineStep env) {} moves).2)) k.account
        k.minute →
      WithinByteRange (snapshots (accepted (run (pipelineStep env) {} moves).2)) k.account
        k.minute →
      ((run (pipelineStep env) {} moves).1.sourceOf k).bytes=
        total bytes (snapshots (accepted (run (pipelineStep env) {} moves).2)) k ∧
      ∀i,((run (pipelineStep env) {} moves).1.sourceOf k).bits.testBit i=true ↔
        ∃c∈counters (snapshots (accepted (run (pipelineStep env) {} moves).2)) k,
          ∃s,latest (snapshots (accepted (run (pipelineStep env) {} moves).2)) c=some s ∧
            s.value.bits.testBit i=true) := by
  have hsequenced := run_invariant (Sequenced env) _
    (fun {_ _ move} _ (hi : Sequenced env _ _) => hi.step move) h sequenced_empty
  have hexact := run_invariant (Exact groupOf) _
    (fun {_ _ move} hg (hi : Exact groupOf _ _) => hi.step env move hg)
    (h.and (notBehind_run hordered fun move _ => le_max_left _ _)) exact_empty
  refine ⟨hsequenced.once,hsequenced.boots,fun hpending k hlive hlimit hrange => ?_⟩
  obtain ⟨hbytes,hbits⟩ := hexact.drained hpending hlive hlimit hrange
  exact ⟨hbytes,fun i => (hbits i).trans slice_total_pos⟩

section examples

instance (all : List (Snapshot SourceKey CounterKey Counts)) (account minute : Int) :
    Decidable (WithinSourceLimit all account minute) := inferInstanceAs (Decidable (_≤_))

instance (all : List (Snapshot SourceKey CounterKey Counts)) (account minute : Int) :
    Decidable (WithinByteRange all account minute) :=
  inferInstanceAs (Decidable (∀k∈sourceKeys all account minute,_≤_))

def overtaken : List PipelineMove :=
  [.receive (plainBatch 2 150) (at_ 6060),.apply (at_ 6061),.receive (plainBatch 1 100) (at_ 6062),
    .receive (plainBatch 2 150) (at_ 6063),.apply (at_ 6064),.receive (plainBatch 1 100) (at_ 6065)]

theorem overtaken_reports_counted_once : (run (pipelineStep plainEnv) {} overtaken).1.pending=[] ∧
    (accepted (run (pipelineStep plainEnv) {} overtaken).2).length=2 ∧
    ((run (pipelineStep plainEnv) {} overtaken).1.sourceOf ⟨1,6000,"v1",hexText 32⟩).bytes=
      total bytes (snapshots (accepted (run (pipelineStep plainEnv) {} overtaken).2))
        ⟨1,6000,"v1",hexText 32⟩ := by
  have hpending : (run (pipelineStep plainEnv) {} overtaken).1.pending=[] := by decide +kernel
  have hordered : (overtaken.map instant).Pairwise (·≤·) := by decide +kernel
  have hrun := activity_counted_exactly_once plainEnv (fun _ _ _ => hexText 32) hordered
    (by decide +kernel)
  exact ⟨hpending,by decide +kernel,(hrun.2.2 hpending _ (by decide +kernel) (by decide +kernel)
    (by decide +kernel)).1⟩

def fullBatch : AccountActivityBatch :=
  {plainBatch 1 maxInt64 with items := [1,2].map (fun inbound => {
    accountID := 1
    inboundID := inbound
    sourceGroup := hexText 32
    activityBits := 1
    uploadBytes := maxInt64})}

def fullTotals : List PipelineMove := [.receive fullBatch (at_ 6060),.apply (at_ 6061)]

def forgotten : List PipelineMove :=
  [.receive (plainBatch 1 100) (at_ 6060),.apply (at_ 6061),
    .receive {plainBatch 2 50 with minuteUnix := 8040} (at_ 8100),.apply (at_ 8101)]

/-- In the first run the bytes of the second counter are not counted although there is only one
source, in the second the minute has left the retention window. -/
theorem bytes_beyond_range_are_dropped : (fullTotals.map instant).Pairwise (·≤·) ∧
    RunGuarded (pipelineStep plainEnv) (InTime (fun _ _ _ => hexText 32)) {} fullTotals ∧
    (run (pipelineStep plainEnv) {} fullTotals).1.pending=[] ∧
    reclaimCutoff (run (pipelineStep plainEnv) {} fullTotals).1.clock≤6000 ∧
    WithinSourceLimit (snapshots (accepted (run (pipelineStep plainEnv) {} fullTotals).2)) 1 6000 ∧
    ((run (pipelineStep plainEnv) {} fullTotals).1.sourceOf ⟨1,6000,"v1",hexText 32⟩).bytes=
      maxInt64 ∧
    total bytes (snapshots (accepted (run (pipelineStep plainEnv) {} fullTotals).2))
      ⟨1,6000,"v1",hexText 32⟩=2*maxInt64 ∧
    (forgotten.map instant).Pairwise (·≤·) ∧
    RunGuarded (pipelineStep plainEnv) (InTime (fun _ _ _ => hexText 32)) {} forgotten ∧
    (run (pipelineStep plainEnv) {} forgotten).1.pending=[] ∧
    WithinByteRange (snapshots (accepted (run (pipelineStep plainEnv) {} forgotten).2)) 1 6000 ∧
    ((run (pipelineStep plainEnv) {} forgotten).1.sourceOf ⟨1,6000,"v1",hexText 32⟩).bytes=0 ∧
    total bytes (snapshots (accepted (run (pipelineStep plainEnv) {} forgotten).2))
      ⟨1,6000,"v1",hexText 32⟩=100 := by
  decide +kernel

end examples

end Oboard.Activity
