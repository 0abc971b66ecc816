import Oboard.Activity.Admission
import Oboard.Activity.AuditRisk

namespace Oboard.Activity

open Runs List Table ActivityDB Nat

inductive LoadError where
  | invalid
  /-- A column does not fit the type it is read into. -/
  | scan
  | risk (e : RiskError)
  deriving DecidableEq

section load

variable (db : ActivityDB) (userID : Int) (policy : Policy) (sourceVersion : String)

def ActivityDB.coverageOf (e : ExpectedKey) : Option CoverageRow :=
  db.coverage.lookup ⟨e.server,e.stream,e.minute,sourceVersion⟩

def ActivityDB.sourcesOf (m : Int) : List (SourceKey×SourceRow) :=
  ((db.source.rows.filter (fun s => s.1.account=userID && s.1.minute=m &&
    s.1.version=sourceVersion)).insertionSort (fun s t => s.1.source≤t.1.source)).take 32

def scanSource (s : SourceKey×SourceRow) : Except LoadError SourceActivity :=
  if 65535<s.2.bits then .error .scan else .ok ⟨s.1.source,s.2.bits,s.2.bytes⟩

def loadMinute (acc : Features×Quality) (minute : Int) : Except LoadError (Features×Quality) := do
  let (f,q) := acc
  let m := unix minute
  let rows := db.expected.rows.filter (fun e => e.1.account=userID && e.1.minute=m)
  let expected := rows.length
  let covered := (rows.filter (fun e => (db.coverageOf sourceVersion e.1).any (·.complete))).length
  let capable := (rows.filter (·.2)).length
  let complete : Bool := 0<expected && covered=expected && capable=expected
  let q := if complete then q
    else {q with coverageComplete := .unknown .expectedStreamMissing}
  let q := if capable≠expected ∨ expected=0 then
    {q with capabilitySupported := .unknown .collectorCapabilityMissing} else q
  let clockErrors := rows.any (fun e => (db.coverageOf sourceVersion e.1).any (!·.aligned))
  let q := if clockErrors then {q with timeAligned := .unknown .streamClockUnaligned} else q
  let overflow := (db.quality.lookup (userID,m)).isSome
  let q := if overflow then {q with sourceSetComplete := .unknown .sourceCapacity} else q
  let sources ← (db.sourcesOf userID sourceVersion m).mapM scanSource
  let a ← (aggregateMinute policy sources (complete && !overflow)).mapError .risk
  let q := if a.overflow || a.counterOverflow then
    {q with sourceSetComplete := .unknown .sourceCapacity} else q
  let activity := f.activity++[⟨minute,a.sources⟩]
  let exposureActivity := f.exposureActivity++[⟨minute,⟨0,policy.activitySources.full⟩⟩]
  .ok ({f with activity := activity,exposureActivity := exposureActivity},q)

def ActivityDB.latestCovered : Option Int :=
  ((db.expected.rows.filter (fun e => e.1.account=userID &&
    (db.coverageOf sourceVersion e.1).isSome)).map (·.1.minute)).max?

def ActivityDB.baselineDays (asOf : Int) : List BaselineDay :=
  let first := unix (truncate asOf 86400000000000)-13*86400
  let found := db.baseline.rows.filter (fun r => r.1.account=userID && first≤r.1.day &&
    r.1.day≤unix asOf && r.1.policy=policy.version && r.1.version=sourceVersion)
  ((found.insertionSort (fun r s => r.1.day≤ s.1.day)).take 14).map (·.2)

def loadAccountAuditFeatures (asOf : Int) : Except LoadError (Features×Quality) := do
  if userID≤0 ∨ sourceVersion="" then .error .invalid
  else if !policy.valid then .error (.risk .invalidPolicy)
  else
    let cutoff := truncate asOf minuteNanos
    let f : Features := {
      accountID := userID
      dataRevision := (db.dirty.lookup userID).elim 0 (·.revision)
      evidenceCutoff := cutoff}
    let minutes := (List.range windowMinutes).map
      (fun i : Nat => cutoff+((i : Int)-windowMinutes)*minuteNanos)
    let (f,q) ← minutes.foldlM (loadMinute db userID policy sourceVersion) (f,{})
    let f := {f with novelRepeatedSources := ⟨0,policy.exposureSources.full⟩}
    let fresh := (db.latestCovered userID sourceVersion).any (unix cutoff-180≤·)
    let q := if fresh then q else {q with freshness := .unknown .activityReportsStale}
    let days := db.baselineDays userID policy sourceVersion asOf
    let baseline ← (summarizeBaseline days).mapError .risk
    .ok (f,{q with
      baselineReady := if baseline.ready then .yes else .unknown .baselineNotReady})

end load

variable {k : SourceKey}

section rows

/-- What the scorer asks of a stored row. -/
structure SourceRow.Readable (row : SourceRow) (k : SourceKey) : Prop where
  balanced : row.bytes=0 ↔ row.bits=0
  slices : row.bits≤4095
  group : activityHex k.source 32=true

theorem isLowerHex_utf8Size (h : isLowerHex c=true) : c.utf8Size=1 := by
  rw [Char.utf8Size_eq_one_iff]
  simp only [isLowerHex,Bool.or_eq_true,Bool.and_eq_true,decide_eq_true_eq] at h
  rcases h with h | h
  · exact UInt32.le_trans h.2 (by decide)
  · exact UInt32.le_trans h.2 (by decide)

theorem activityHex_utf8ByteSize (h : activityHex s n=true) : s.utf8ByteSize=2*n := by
  have hsum l (hl : l.all isLowerHex=true) : (String.ofList l).utf8ByteSize=l.length := by
    induction l with
    | nil => rfl
    | cons c l ih =>
      rw [all_cons,Bool.and_eq_true] at hl
      rw [String.ofList_cons,String.utf8ByteSize_append,String.utf8ByteSize_singleton,
        isLowerHex_utf8Size hl.1,ih hl.2,length_cons,add_comm]
  simp only [activityHex,Bool.and_eq_true,decide_eq_true_eq] at h
  rw [← h.1,← hsum _ h.2,String.ofList_toList]

theorem and_high_eq_zero (h : n≤4095) : n &&& 0xf000=0 := by
  apply eq_of_testBit_eq
  intro i
  rw [testBit_and,zero_testBit,Bool.and_eq_false_iff]
  have hlow : ∀j<12,testBit 0xf000 j=false := by decide
  rcases lt_or_ge i 12 with hi | hi
  · exact .inr (hlow i hi)
  left
  exact Nat.testBit_lt_two_pow (lt_of_le_of_lt h (lt_of_lt_of_le (by decide)
    (Nat.pow_le_pow_right (by decide) hi)))

theorem SourceRow.Readable.not_invalid {row : SourceRow} (h : row.Readable k) :
    SourceActivity.invalid ⟨k.source,row.bits,row.bytes⟩=false := by
  have hsize := activityHex_utf8ByteSize h.group
  have hne : k.source≠"" := by
    intro heq
    rw [heq] at hsize
    exact absurd hsize (by decide)
  simp only [SourceActivity.invalid,Bool.or_eq_false_iff,Bool.and_eq_false_iff,
    decide_eq_false_iff_not,not_not]
  refine ⟨⟨⟨⟨hne,by omega⟩,and_high_eq_zero h.slices⟩,?_⟩,?_⟩
  · rw [← h.balanced]
    omega
  · rw [← h.balanced]
    omega

variable {db : ActivityDB}

theorem mem_sourcesOf (h : s∈db.sourcesOf userID version m) : db.source.lookup s.1=some s.2 := by
  have := mem_of_mem_take h
  rw [mem_insertionSort,mem_filter] at this
  exact mem_rows.mp this.1

theorem mapM_scanSource {rows : List (SourceKey×SourceRow)} (h : ∀s∈rows,s.2.Readable s.1) :
    rows.mapM scanSource=.ok (rows.map (fun s => ⟨s.1.source,s.2.bits,s.2.bytes⟩)) := by
  induction rows with
  | nil => rfl
  | cons s rows ih =>
    have hs : scanSource s=.ok ⟨s.1.source,s.2.bits,s.2.bytes⟩ :=
      if_neg (not_lt.mpr ((h s mem_cons_self).slices.trans (by decide)))
    rw [mapM_cons,hs,ih fun t ht => h t (mem_cons_of_mem _ ht)]
    rfl

theorem loadMinute_ok (h : ∀k row,db.source.lookup k=some row → row.Readable k) (userID)
    {policy : Policy} (hpolicy : policy.valid=true) (version) (minute)
    (acc) : ∃acc',loadMinute db userID policy version acc minute=.ok acc' := by
  have hread : ∀s∈db.sourcesOf userID version (unix minute),s.2.Readable s.1 :=
    fun s hs => h s.1 s.2 (mem_sourcesOf hs)
  have hvalid : ∀r∈(db.sourcesOf userID version (unix minute)).map
      (fun s => (⟨s.1.source,s.2.bits,s.2.bytes⟩ : SourceActivity)),r.invalid=false := by
    intro r hr
    obtain ⟨s,hs,rfl⟩ := mem_map.mp hr
    exact (hread s hs).not_invalid
  have hlength : ((db.sourcesOf userID version (unix minute)).map
      (fun s => (⟨s.1.source,s.2.bits,s.2.bytes⟩ : SourceActivity))).length≤65536 := by
    rw [length_map]
    exact (length_take_le _ _).trans (by decide)
  choose a ha using aggregateMinute_ok hpolicy hlength hvalid
  simp only [loadMinute,mapM_scanSource hread,bind,Except.bind,ha]
  exact ⟨_,rfl⟩

theorem loadAccountAuditFeatures_ok (h : ∀k row,db.source.lookup k=some row → row.Readable k)
    (hbaseline : db.baseline=∅) (huser : 0<userID)
    (hpolicy : policy.valid=true) (hversion : version≠"") (asOf) :
    ∃result,loadAccountAuditFeatures db userID policy version asOf=.ok result := by
  have hdays : db.baselineDays userID policy version asOf=[] := by
    rw [baselineDays,hbaseline]
    rfl
  have hnot : ¬(userID≤0 ∨ version="") := not_or.mpr ⟨not_le.mpr huser,hversion⟩
  choose acc hacc using fun minutes : List Int => foldlM_ok
    (fun minute (_ : minute∈minutes) acc => loadMinute_ok h userID hpolicy version minute acc)
  simp only [loadAccountAuditFeatures,hdays,hpolicy,if_neg hnot,hacc]
  exact ⟨_,rfl⟩

end rows

section steps

variable {env : PipelineEnv} {db db' db'' : ActivityDB} {b : AccountActivityBatch}
  {r r' : AccountActivityBatchItem}

/-- Everything that was accepted is well formed, and everything that was stored can be read. -/
structure Scorable (db : ActivityDB) : Prop where
  pending : ∀key row b,db.inbox.lookup key=some row → row.payload=some b → b.WellFormed
  readable : ∀k row,db.source.lookup k=some row → row.Readable k
  baseline : db.baseline=∅

/-- A step that only takes batches and source rows away. -/
structure Fades (db db' : ActivityDB) : Prop where
  inbox : ∀key row,db'.inbox.lookup key=some row → row.payload.isSome=true →
    db.inbox.lookup key=some row
  source : ∀k row,db'.source.lookup k=some row → db.source.lookup k=some row
  baseline : db'.baseline=db.baseline

theorem Fades.trans (h : Fades db db') (h' : Fades db' db'') : Fades db db'' where
  inbox key row hrow hp := h.inbox key row (h'.inbox key row hrow hp) hp
  source k row hrow := h.source k row (h'.source k row hrow)
  baseline := h'.baseline.trans h.baseline

theorem Fades.of_same (hinbox : db'.inbox=db.inbox) (hsource : db'.source=db.source)
    (hbaseline : db'.baseline=db.baseline) : Fades db db' :=
  ⟨fun _ _ h _ => hinbox ▸ h,fun _ _ h => hsource ▸ h,hbaseline⟩

theorem Scorable.fades (h : Scorable db) (hf : Fades db db') : Scorable db' where
  pending key row b hrow hb := h.pending key row b (hf.inbox key row hrow (by rw [hb]; rfl)) hb
  readable k row hrow := h.readable k row (hf.source k row hrow)
  baseline := hf.baseline.trans h.baseline

theorem fades_deleteExpired : Fades db (deleteExpired env db cutoff) :=
  ⟨fun _ _ h _ => h,fun _ _ h => lookup_of_deleteLimited h,rfl⟩

theorem fades_payload : Fades db
    {db with inbox := db.inbox.modify key (fun row => {row with payload := none})} :=
  ⟨(show Keeps [] db _ from keeps_payload key).inbox,fun _ _ h => h,rfl⟩

theorem fades_finishBatch : Fades db (finishBatch env db b gap now) := by
  have htouch : Fades db ((db.coverBatch b gap).touchExpected b) := by
    rw [touchExpected_only]
    exact .of_same rfl rfl rfl
  exact ((htouch.trans fades_payload).trans fades_deleteExpired).trans (.of_same rfl rfl rfl)

/-- The row of a group has bytes, or the minute is full and no row will be added for it. -/
def ActivityDB.counted (db : ActivityDB) (k : SourceKey) : Bool :=
  (db.source.lookup k).elim (32≤db.sourceCount k.account k.minute) (fun row => row.bytes≠0)

/-- Active slices are recorded without new bytes only where bytes have been counted before. -/
def Backed (db : ActivityDB) (b : AccountActivityBatch) (r : AccountActivityBatchItem) : Prop :=
  b.clockState=.aligned → (db.counterOf b r).seq≤b.sequence →
    r.bytesSince (db.counterOf b r).counts=0 → r.activityBits≠0 → db.counted (b.sourceKey r)=true

instance : Decidable (Backed db b r) := inferInstanceAs (Decidable (_ → _))

theorem sourceCount_insert (db : ActivityDB) (k : SourceKey) (row : SourceRow) : db.sourceCount account minute≤
      {db with source := db.source.insert k row}.sourceCount account minute := by
  rw [← Int.ofNat_le]
  unfold sourceCount
  rw [length_filter_rows,length_filter_rows,total_insert]
  cases db.source.lookup k with
  | none =>
    simp only [Option.elim]
    split_ifs <;> omega
  | some row =>
    simp only [Option.elim]
    omega

theorem counted_recordSource (db : ActivityDB) (h : db.counted k=true) (b : AccountActivityBatch)
    (r : AccountActivityBatchItem) : (recordSource db b r delta).counted k=true := by
  rcases recordSource_cases db b r delta with ⟨-,heq⟩ | ⟨hroom,-,heq⟩
  · rw [heq]
    exact h
  rw [heq]
  unfold counted at h ⊢
  rw [lookup_insert_eq]
  split_ifs with hk
  · subst hk
    cases hrow : db.source.lookup (b.sourceKey r) with
    | none =>
      rw [hrow] at h
      exact absurd (of_decide_eq_true h) (not_le.mpr (hroom hrow))
    | some row =>
      simp only [Option.elim,decide_eq_true_eq,SourceRow.add,sourceOf,hrow, Option.getD_some] at h ⊢
      omega
  · cases hrow : db.source.lookup k with
    | none =>
      rw [hrow] at h
      exact decide_eq_true ((of_decide_eq_true h).trans (sourceCount_insert db _ _))
    | some row =>
      rw [hrow] at h
      exact h

theorem Backed.applyItem (h : Backed db b r') (hne : b.counterKey r'≠b.counterKey r)
    (happly : applyItem b db r=.ok db') : Backed db' b r' := by
  rcases applyItem_cases happly with ⟨-,rfl⟩ | ⟨-,-,rfl⟩
  · exact h
  intro halign
  rw [if_pos halign]
  generalize r.bytesSince (db.counterOf b r).counts=delta
  have hcounter : (touchAccount (recordSource (db.count b r) b r delta) r.accountID).counterOf b r'=
      db.counterOf b r' := by
    change ((recordSource (db.count b r) b r delta).counter.lookup (b.counterKey r')).getD {}=_
    rw [recordSource_counter,ActivityDB.count,AList.lookup_insert_ne hne]
    rfl
  rw [hcounter]
  intro hseq hzero hactive
  exact counted_recordSource (db.count b r) (h halign hseq hzero hactive) b r

theorem SourceRow.Readable.sourceOf (h : ∀k row,db.source.lookup k=some row → row.Readable k)
    (hk : activityHex k.source 32=true) : (db.sourceOf k).Readable k := by
  rw [ActivityDB.sourceOf]
  cases hrow : db.source.lookup k with
  | none => exact ⟨Iff.rfl,zero_le _,hk⟩
  | some row => exact h k row hrow

theorem readable_recordSource
    (h : ∀k row,db.source.lookup k=some row → row.Readable k) (hr : r.valid=true)
    (hbacked : r.bytesSince c=0 → r.activityBits≠0 → db.counted (b.sourceKey r)=true) :
    ∀k row,(recordSource db b r (r.bytesSince c)).source.lookup k=some row → row.Readable k := by
  simp only [AccountActivityBatchItem.valid,Bool.and_eq_true,decide_eq_true_eq,beq_iff_eq,
    decide_eq_decide] at hr
  obtain ⟨⟨⟨⟨⟨⟨-,hgroup⟩,-⟩,hbits⟩,-⟩,-⟩,hactive⟩ := hr
  rcases recordSource_cases db b r (r.bytesSince c) with ⟨-,heq⟩ | ⟨hroom,-,heq⟩
  · rw [heq]
    exact h
  rw [heq]
  refine forall_insert h ?_
  have hold : (db.sourceOf (b.sourceKey r)).Readable (b.sourceKey r) := .sourceOf h hgroup
  have hsince : r.bytesSince c≤r.uploadBytes+r.downloadBytes :=
    Nat.add_le_add (Nat.sub_le _ _) (Nat.sub_le _ _)
  refine ⟨⟨fun hzero => ?_,fun hzero => ?_⟩,?_,hgroup⟩
  · obtain ⟨hstored,hnew⟩ := Nat.add_eq_zero_iff.mp hzero
    refine or_eq_zero_iff.mpr ⟨hold.balanced.mp hstored,?_⟩
    by_contra hne
    have hcounted := hbacked hnew hne
    unfold counted at hcounted
    cases hrow : db.source.lookup (b.sourceKey r) with
    | none =>
      rw [hrow] at hcounted
      exact absurd (of_decide_eq_true hcounted) (not_le.mpr (hroom hrow))
    | some row =>
      rw [sourceOf,hrow] at hstored
      rw [hrow] at hcounted
      exact of_decide_eq_true hcounted hstored
  · obtain ⟨hstored,hnone⟩ := or_eq_zero_iff.mp hzero
    change (db.sourceOf (b.sourceKey r)).bytes+r.bytesSince c=0
    rw [hold.balanced.mpr hstored]
    omega
  · exact le_of_lt_succ (or_lt_two_pow (n := 12) (lt_succ_of_le hold.slices) (lt_succ_of_le hbits))

theorem Scorable.applyItem (h : Scorable db) (hr : r.valid=true) (hbacked : Backed db b r)
    (happly : applyItem b db r=.ok db') : Scorable db' := by
  have honly := applyItem_only happly
  refine ⟨?_,?_,?_⟩
  · rw [honly]
    exact h.pending
  · rcases applyItem_cases happly with ⟨-,rfl⟩ | ⟨hseq,-,rfl⟩
    · exact h.readable
    split
    next halign =>
      exact readable_recordSource h.readable hr (hbacked halign hseq)
    next => exact h.readable
  · rw [honly]
    exact h.baseline

theorem Scorable.applyItems {items : List AccountActivityBatchItem} (h : Scorable db)
    (hvalid : ∀r∈items,r.valid=true)
    (hdistinct : items.Pairwise (fun r r' => b.counterKey r≠b.counterKey r'))
    (hbacked : ∀r∈items,Backed db b r) (happly : items.foldlM (Activity.applyItem b) db=.ok db') :
    Scorable db' := by
  induction items generalizing db with
  | nil =>
    cases happly
    exact h
  | cons r items ih =>
    obtain ⟨db₁,hone,happly⟩ := bind_ok happly
    obtain ⟨hne,hdistinct⟩ := pairwise_cons.mp hdistinct
    refine ih (h.applyItem (hvalid r mem_cons_self) (hbacked r mem_cons_self) hone)
      (fun r' hr' => hvalid r' (mem_cons_of_mem _ hr')) hdistinct (fun r' hr' => ?_) happly
    exact (hbacked r' (mem_cons_of_mem _ hr')).applyItem (hne r' hr').symm hone

theorem AccountActivityBatch.WellFormed.counterKeys (h : b.WellFormed) :
    b.items.Pairwise (fun r r' => b.counterKey r≠b.counterKey r') := by
  refine (pairwise_map.mp h.distinct).imp fun {r r'} hne heq => hne ?_
  simp only [AccountActivityBatch.counterKey,CounterKey.mk.injEq] at heq
  simp only [AccountActivityBatchItem.key,heq]

theorem fades_reserve {clock : Int} (h : reserveActivityCapacity env db b clock=.ok db') :
    Fades db db' := by
  rw [reserve_only h]
  exact .of_same rfl rfl rfl

theorem Scorable.stored {stream : StreamRow} {room : ActivityDB} (h : Scorable db)
    (hb : b.WellFormed) (hs : Stored env db b stream room db') : Scorable db' := by
  have hroom := h.fades (fades_reserve hs.reserved)
  obtain ⟨digest,gap,rfl⟩ := hs.result
  refine ⟨fun key row b' hrow hb' => ?_,hroom.readable,hroom.baseline⟩
  rcases lookup_insert_cases hrow with ⟨rfl,rfl⟩ | hrow
  · cases hb'
    exact hb
  · rw [lookup_deleteRows] at hrow
    exact hroom.pending key row b' (Option.filter_eq_some_iff.mp hrow).1 hb'

/-- Whatever is applied is backed. -/
def AppliesBacked (db : ActivityDB) : PipelineMove → Prop
  | .apply _ => ∀b∈db.nextBatch,∀r∈b.items,Backed db b r
  | _ => True

instance (db : ActivityDB) : ∀move,Decidable (AppliesBacked db move)
  | .apply _ => inferInstanceAs (Decidable (∀b∈db.nextBatch,∀r∈b.items,Backed db b r))
  | .receive _ _ | .expect _ _ | .cleanup _ => inferInstanceAs (Decidable True)

theorem Scorable.step (h : Scorable db) (env) (move)
    (hg : AppliesBacked db move) : Scorable (pipelineStep env db move).1 := by
  have hticked now : Scorable (db.tick now) := h.fades (.of_same rfl rfl rfl)
  have hturn := pipelineStep_turn env db move
  generalize pipelineStep env db move=result at hturn ⊢
  cases hturn with
  | failed => exact h
  | ticked => exact hticked _
  | stored hb hraw hs => exact (hticked _).stored hb hs
  | @applied i b items now hnext hb hitems =>
    have hwell := h.pending i.1 i.2 b (mem_pending.mp (nextPending_mem hnext)).1 hb
    have hbacked := hg b (by rw [nextBatch,hnext]; exact hb)
    exact ((hticked now).applyItems hwell.valid hwell.counterKeys hbacked hitems).fades
      fades_finishBatch
  | expected hsave =>
    rw [saveAccountActivityExpected_only hsave]
    exact h.fades (.of_same rfl rfl rfl)
  | cleaned => exact (h.fades fades_deleteExpired).fades (.of_same rfl rfl rfl)

theorem scorable_empty : Scorable {} :=
  ⟨fun _ _ _ h => (nomatch h),fun _ _ h => (nomatch h),rfl⟩

end steps

/-- As long as slices without new bytes are recorded only where bytes were counted before, all
evidence can be scored. -/
theorem applied_evidence_scores (env : PipelineEnv) {moves : List PipelineMove}
    (h : RunGuarded (pipelineStep env) AppliesBacked {} moves) :
    (∀k row,(run (pipelineStep env) {} moves).1.source.lookup k=some row →
      (row.bytes≠0 ↔ row.bits≠0)) ∧
    ∀userID policy sourceVersion asOf,0<userID → policy.valid=true → sourceVersion≠"" →
      ∃result,loadAccountAuditFeatures (run (pipelineStep env) {} moves).1 userID policy
        sourceVersion asOf=.ok result := by
  have hinv := run_invariant (w := []) (fun db _ => Scorable db) _
    (fun {_ _ move} hg hi => hi.step env move hg) h scorable_empty
  exact ⟨fun k row hrow => (hinv.readable k row hrow).balanced.not,
    fun userID policy sourceVersion asOf huser hpolicy hversion =>
      loadAccountAuditFeatures_ok hinv.readable hinv.baseline huser hpolicy hversion asOf⟩

section runs

def alignedTwice : List PipelineMove :=
  [.receive (plainBatch 1 100) (at_ 6060),.receive (plainBatch 2 100) (at_ 6070),.apply (at_ 6080),
    .apply (at_ 6080)]

def unalignedFirst : List PipelineMove :=
  [.receive {plainBatch 1 100 with clockState := .unaligned} (at_ 6060),
    .receive (plainBatch 2 100) (at_ 6070),.apply (at_ 6080),.apply (at_ 6080)]

theorem aligned_reports_score : RunGuarded (pipelineStep plainEnv) AppliesBacked {} alignedTwice ∧
    (run (pipelineStep plainEnv) {} alignedTwice).1.source.lookup ⟨1,6000,"v1",hexText 32⟩=
      some ⟨100,1⟩ ∧
    ∃result,loadAccountAuditFeatures (run (pipelineStep plainEnv) {} alignedTwice).1 1 defaultPolicy
      "v1" (at_ 6120)=.ok result := by
  have h : RunGuarded (pipelineStep plainEnv) AppliesBacked {} alignedTwice := by decide +kernel
  exact ⟨h,by decide +kernel,
    (applied_evidence_scores plainEnv h).2 1 defaultPolicy "v1" (at_ 6120) (by decide) (by decide)
      (by decide)⟩

theorem unaligned_report_breaks_scoring :
    (run (pipelineStep plainEnv) {} unalignedFirst).1.source.lookup ⟨1,6000,"v1",hexText 32⟩=
      some ⟨0,1⟩ ∧
    loadAccountAuditFeatures (run (pipelineStep plainEnv) {} unalignedFirst).1 1 defaultPolicy "v1"
      (at_ 6120)=.error (.risk .invalidSourceActivity) := by
  constructor <;> decide +kernel

end runs

end Oboard.Activity
