import Oboard.Activity.Pipeline

namespace Oboard.Activity

open Runs List Table Option Except ActivityDB AccountActivityBatch

variable {items : List AccountActivityBatchItem} {raw : AccountActivityBatch}

section validation

variable {b : AccountActivityBatch}

structure AccountActivityBatch.WellFormed (b : AccountActivityBatch) : Prop where
  header : b.headerValid=true
  valid : ∀r∈b.items,r.valid=true
  distinct : (b.items.map (·.key)).Nodup

theorem validItems_valid (h : validItems items=true) : ∀r∈items,r.valid=true := by
  fun_induction validItems items with
  | case1 => exact nofun
  | case2 r => simpa using h
  | case3 p r rest ih =>
    simp only [Bool.and_eq_true] at h
    intro r' hr'
    rcases mem_cons.mp hr' with rfl | hr'
    · exact h.1.1
    · exact ih h.2 r' hr'

theorem validItems_distinct (h : validItems items=true)
    (hsorted : items.Pairwise (fun a c => a.key≤c.key)) :
    items.Pairwise (fun a c => a.key<c.key) := by
  fun_induction validItems items with
  | case1 => exact List.Pairwise.nil
  | case2 r => exact pairwise_singleton _ _
  | case3 p r rest ih =>
    simp only [Bool.and_eq_true,decide_eq_true_eq] at h
    obtain ⟨hp,htail⟩ := pairwise_cons.mp hsorted
    have hlt : p.key<r.key := lt_of_le_of_ne (hp r mem_cons_self) h.1.2
    refine pairwise_cons.mpr ⟨fun c hc => ?_,ih h.2 htail⟩
    rcases mem_cons.mp hc with rfl | hc
    · exact hlt
    · exact hlt.trans_le ((pairwise_cons.mp htail).1 c hc)

theorem validateActivityBatch_wellFormed (h : validateActivityBatch raw=.ok b) : b.WellFormed := by
  simp only [validateActivityBatch] at h
  split_ifs at h with hvalid
  cases h
  rw [Bool.and_eq_true] at hvalid
  have hsorted := pairwise_insertionSort
    (fun a c : AccountActivityBatchItem => a.key≤c.key) raw.items
  refine ⟨?_,validItems_valid hvalid.2,
    pairwise_map.mpr ((validItems_distinct hvalid.2 hsorted).imp fun hlt => hlt.ne)⟩
  have hheader := hvalid.1
  simpa [headerValid] using hheader

end validation

variable {r : AccountActivityBatchItem} {now : Int} {result : ActivityDB×List PipelineEvent}

section frames

variable {db db' : ActivityDB} {b : AccountActivityBatch}

theorem touchExpected_only (db : ActivityDB) (b : AccountActivityBatch) :
    db.touchExpected b={db with dirty := (db.touchExpected b).dirty} :=
  foldl_related (R := fun db db' : ActivityDB => db'={db with dirty := db'.dirty}) (fun _ => rfl)
    (fun h h' => by rw [h',h]) (f := touchAccount) (fun _ _ => rfl) _ _

def ActivityDB.counterOf (db : ActivityDB) (b : AccountActivityBatch) (r : AccountActivityBatchItem) :
    CounterRow :=
  (db.counter.lookup (b.counterKey r)).getD {}

def AccountActivityBatchItem.bytesSince (r : AccountActivityBatchItem) (c : Counts) : Nat :=
  r.uploadBytes-c.up+(r.downloadBytes-c.down)

def ActivityDB.count (db : ActivityDB) (b : AccountActivityBatch) (r : AccountActivityBatchItem) :
    ActivityDB :=
  {db with counter := db.counter.insert (b.counterKey r) ⟨b.sequence,r.counts⟩}

/-- What applying an item does: nothing after a later snapshot, otherwise the counter moves on, and an
aligned batch records the difference. -/
theorem applyItem_cases (h : applyItem b db r=.ok db') :
    (b.sequence<(db.counterOf b r).seq ∧ db'=db) ∨
    ((db.counterOf b r).seq≤b.sequence ∧
      comparableActivityCounters r.counts (db.counterOf b r).counts=true ∧
      db'=touchAccount (if b.clockState=.aligned then
        recordSource (db.count b r) b r (r.bytesSince (db.counterOf b r).counts)
        else db.count b r) r.accountID) := by
  simp only [applyItem] at h
  split at h
  next hlt =>
    split at h
    · exact nomatch h
    · cases h
      exact .inl ⟨hlt,rfl⟩
  next hle =>
    split at h
    · exact nomatch h
    next hc =>
    cases h
    rw [Bool.not_eq_true,Bool.not_eq_false'] at hc
    exact .inr ⟨not_lt.mp hle,hc,rfl⟩

def ActivityDB.sourceOf (db : ActivityDB) (k : SourceKey) : SourceRow :=
  (db.source.lookup k).getD ⟨0,0⟩

section

variable (db : ActivityDB) (b : AccountActivityBatch) (r : AccountActivityBatchItem) (delta : Nat)

/-- What recording does: the activity goes into the row of its group, or it is only noted that some is
missing. -/
theorem recordSource_cases :
    ((db.source.lookup (b.sourceKey r)=none ∧ 32≤db.sourceCount r.accountID b.minuteUnix ∨
        maxInt64<(db.sourceOf (b.sourceKey r)).bytes+delta) ∧
      recordSource db b r delta=
        {db with quality := db.quality.insert (r.accountID,b.minuteUnix) ()}) ∨
    ((db.source.lookup (b.sourceKey r)=none → db.sourceCount r.accountID b.minuteUnix<32) ∧
      (db.sourceOf (b.sourceKey r)).bytes+delta≤ maxInt64 ∧
      recordSource db b r delta=
        let row := (db.sourceOf (b.sourceKey r)).add delta r.activityBits
        {db with source := db.source.insert (b.sourceKey r) row}) := by
  have hbytes : (db.source.lookup (b.sourceKey r)).elim 0 (·.bytes)=
      (db.sourceOf (b.sourceKey r)).bytes := by
    rw [sourceOf]
    cases db.source.lookup (b.sourceKey r) <;> rfl
  have hbits : (db.source.lookup (b.sourceKey r)).elim 0 (·.bits)=
      (db.sourceOf (b.sourceKey r)).bits := by
    rw [sourceOf]
    cases db.source.lookup (b.sourceKey r) <;> rfl
  unfold recordSource
  simp only [hbytes,hbits]
  split
  next hfull =>
    simp only [Bool.or_eq_true,Bool.and_eq_true,decide_eq_true_eq,isNone_iff_eq_none] at hfull
    exact .inl ⟨hfull,rfl⟩
  next hroom =>
    simp only [Bool.or_eq_true,Bool.and_eq_true,decide_eq_true_eq,isNone_iff_eq_none,not_or,
      not_and,not_le,not_lt] at hroom
    exact .inr ⟨hroom.1,hroom.2,rfl⟩

theorem recordSource_counter : (recordSource db b r delta).counter=db.counter := by
  rcases recordSource_cases db b r delta with ⟨-,heq⟩ | ⟨-,-,heq⟩ <;> rw [heq]

end

theorem applyItem_only (h : applyItem b db r=.ok db') : db'={db with
      counter := db'.counter,source := db'.source,quality := db'.quality,dirty := db'.dirty} := by
  rcases applyItem_cases h with ⟨-,rfl⟩ | ⟨-,-,rfl⟩
  · rfl
  split
  · rcases recordSource_cases (db.count b r) b r (r.bytesSince (db.counterOf b r).counts) with
      ⟨-,heq⟩ | ⟨-,-,heq⟩ <;> rw [heq] <;> rfl
  · rfl

theorem applyItems_only (h : items.foldlM (applyItem b) db=.ok db') : db'={db with
      counter := db'.counter,source := db'.source,quality := db'.quality,dirty := db'.dirty} :=
  foldlM_related (R := fun db db' : ActivityDB => db'={db with
      counter := db'.counter,source := db'.source,quality := db'.quality,dirty := db'.dirty})
    (fun _ => rfl) (fun h h' => by rw [h',h]) applyItem_only h

theorem finishBatch_only (env : PipelineEnv) (db : ActivityDB) (b : AccountActivityBatch)
    (gap) (now) : finishBatch env db b gap now=
      let done := finishBatch env db b gap now
      {db with
        inbox := db.inbox.modify b.inboxKey (fun row => {row with payload := none})
        counter := done.counter
        source := done.source
        expected := done.expected
        coverage := done.coverage
        quality := done.quality
        dirty := done.dirty} := by
  unfold finishBatch
  rw [touchExpected_only]
  rfl

theorem reserve_only {clock : Int} (h : reserveActivityCapacity env db b clock=.ok db') :
    db'={db with counter := db'.counter,checkpoint := db'.checkpoint,dirty := db'.dirty} := by
  simp only [reserveActivityCapacity] at h
  split_ifs at h
  obtain ⟨checkpoint,-,h⟩ := bind_ok h
  cases h
  rfl

variable {expected : List AccountActivityExpected}

theorem saveExpecteds_only (h : expected.foldlM (saveExpected now) db=.ok db') :
    db'={db with expected := db'.expected,dirty := db'.dirty} := by
  refine foldlM_related
    (R := fun db db' : ActivityDB => db'={db with expected := db'.expected,dirty := db'.dirty})
    (fun _ => rfl) (fun h h' => by rw [h',h]) (fun {db e db'} hone => ?_) h
  simp only [saveExpected] at hone
  split_ifs at hone
  cases hone
  rfl

theorem saveAccountActivityExpected_only
    (h : saveAccountActivityExpected env db expected now=.ok db') : db'={db.tick now with
      counter := deletePortion env
        (fun k _ => k.minute<reclaimCutoff (unix now) && !db.hasPending k) db.counter
      expected := db'.expected
      dirty := db'.dirty} := by
  simp only [saveAccountActivityExpected] at h
  split at h
  · exact nomatch h
  obtain ⟨db₁,hall,h⟩ := bind_ok h
  split at h
  · exact nomatch h
  cases ok.inj h
  rw [saveExpecteds_only hall]
  rfl

def ActivityDB.nextBatch (db : ActivityDB) : Option AccountActivityBatch :=
  db.nextPending.bind (·.2.payload)

theorem applyMove_cases (h : applyMove env db now=.ok result) : result=(db.tick now,[]) ∨
      ∃i b applied,db.nextPending=some i ∧ i.2.payload=some b ∧
        b.items.foldlM (applyItem b) (db.tick now)=.ok applied ∧
        result=(finishBatch env applied b i.2.gap now,[.applied b]) := by
  obtain ⟨applied,happly,h⟩ := bind_ok h
  cases ok.inj h
  have hsame : (db.tick now).nextPending=db.nextPending := rfl
  simp only [applyAccountActivityBatch] at happly
  split at happly
  · cases ok.inj happly
    exact .inl rfl
  next key row hnext =>
  split at happly
  · cases ok.inj happly
    exact .inl rfl
  next b hb =>
  obtain ⟨db₁,hitems,happly⟩ := bind_ok happly
  cases ok.inj happly
  exact .inr ⟨(key,row),b,db₁,hnext,hb,hitems,rfl⟩

end frames

section log

def AccountActivityBatch.records (b : AccountActivityBatch) : List (CounterKey×CounterRow) :=
  b.items.map (fun r => (b.counterKey r,⟨b.sequence,r.counts⟩))

def accepted (log : List PipelineEvent) : List AccountActivityBatch :=
  log.filterMap fun
    | .accepted b => some b
    | .applied _ => none

def Snap (log : List PipelineEvent) (k : CounterKey) (s : CounterRow) : Prop :=
  ∃b∈accepted log,(k,s)∈b.records

theorem accepted_append : accepted (log++log')=accepted log++accepted log' := filterMap_append ..

theorem snap_of_item (hb : b∈accepted log)
    (hr : r∈b.items) : Snap log (b.counterKey r) ⟨b.sequence,r.counts⟩ :=
  ⟨b,hb,mem_map_of_mem hr⟩

end log

section invariant

/-- Accepted snapshots grow with their sequence, and as long as a minute is open for new batches its
checkpoints are there. -/
structure Admitted (db : ActivityDB) (log : List PipelineEvent) : Prop where
  wellFormed : ∀b∈accepted log,b.WellFormed
  ordered : ∀k s t,Snap log k s → Snap log k t → s.seq≤t.seq →
    comparableActivityCounters t.counts s.counts=true
  checked : ∀k s,Snap log k s → db.clock-180≤k.minute → db.checkpoint.lookup (k,s.seq)=some s.counts
  pending : ∀key row b,db.inbox.lookup key=some row → row.payload=some b →
    b∈accepted log ∧ key=b.inboxKey ∧ row.minute=b.minuteUnix
  counters : ∀k c,db.counter.lookup k=some c → c={} ∨ Snap log k c

variable {db db' db'' : ActivityDB} {log : List PipelineEvent}

/-- A step that accepts nothing: it takes pending rows out, moves counters to accepted snapshots, and
drops no checkpoint of an open minute. -/
structure Keeps (log : List PipelineEvent) (db db' : ActivityDB) : Prop where
  clock : db.clock≤db'.clock
  inbox : ∀key row,db'.inbox.lookup key=some row → row.payload.isSome=true →
    db.inbox.lookup key=some row
  counter : ∀k c,db'.counter.lookup k=some c → db.counter.lookup k=some c ∨ c={} ∨ Snap log k c
  checkpoint : ∀k seq c,db.checkpoint.lookup (k,seq)=some c → db'.clock-180≤k.minute →
    db'.checkpoint.lookup (k,seq)=some c

theorem Keeps.refl (db) : Keeps log db db :=
  ⟨le_rfl,fun _ _ h _ => h,fun _ _ h => .inl h,fun _ _ _ h _ => h⟩

theorem Keeps.trans (h : Keeps log db db') (h' : Keeps log db' db'') : Keeps log db db'' where
  clock := h.clock.trans h'.clock
  inbox key row hrow hp := h.inbox key row (h'.inbox key row hrow hp) hp
  counter k c hc := (h'.counter k c hc).elim (fun hc => h.counter k c hc) .inr
  checkpoint k seq c hc hopen :=
    h'.checkpoint k seq c (h.checkpoint k seq c hc (by have := h'.clock; omega)) hopen

theorem Admitted.keeps (h : Admitted db log) (hk : Keeps log db db') : Admitted db' log where
  wellFormed := h.wellFormed
  ordered := h.ordered
  checked k s hs hopen :=
    hk.checkpoint k s.seq s.counts (h.checked k s hs (by have := hk.clock; omega)) hopen
  pending key row b hrow hb := h.pending key row b (hk.inbox key row hrow (by rw [hb]; rfl)) hb
  counters k c hc := (hk.counter k c hc).elim (h.counters k c) id

theorem Keeps.of_same (hclock : db'.clock=db.clock) (hinbox : db'.inbox=db.inbox)
    (hcounter : db'.counter=db.counter) (hcheckpoint : db'.checkpoint=db.checkpoint) :
    Keeps log db db' := by
  refine ⟨hclock.ge,fun key row h _ => hinbox ▸ h,fun k c h => .inl (hcounter ▸ h),
    fun k seq c h _ => hcheckpoint ▸ h⟩

variable (env : PipelineEnv)

theorem keeps_reclaim (clock) : Keeps log db (reclaimActivityDirty env db clock) :=
  ⟨le_rfl,fun _ _ h _ => h,fun _ _ h => .inl (lookup_of_deleteLimited h),fun _ _ _ h _ => h⟩

theorem keeps_deleteExpired : Keeps log db (deleteExpired env db cutoff) :=
  .of_same rfl rfl rfl rfl

theorem keeps_deleteCheckpoints
    (h : ∀row∈db.checkpoint.rows,row.1.1.minute<cutoff → row.1.1.minute<db.clock-180) :
    Keeps log db (deleteCheckpoints env db cutoff) := by
  refine ⟨le_rfl,fun _ _ h _ => h,fun _ _ h => .inl h,fun k seq c hc hopen => ?_⟩
  change (db.checkpoint.deleteLimited _ _ _).lookup (k,seq)=some c
  rw [lookup_deleteLimited_of_not,hc]
  intro c' hc'
  have := h _ (mem_rows.mpr hc')
  simp only [decide_eq_false_iff_not,not_lt] at this ⊢
  by_contra hlt
  exact absurd (this (not_le.mp hlt)) (not_lt.mpr hopen)

theorem keeps_touchAccount : Keeps log db (touchAccount db account) :=
  .of_same rfl rfl rfl rfl

theorem keeps_payload (key) : Keeps log db
    {db with inbox := db.inbox.modify key (fun row => {row with payload := none})} := by
  refine ⟨le_rfl,fun key' row hrow hp => ?_,fun _ _ h => .inl h,fun _ _ _ h _ => h⟩
  rw [lookup_modify] at hrow
  split_ifs at hrow with hkey
  · obtain ⟨row',-,rfl⟩ := map_eq_some_iff.mp hrow
    exact nomatch hp
  · exact hrow

theorem keeps_finishBatch : Keeps log db (finishBatch env db b gap now) := by
  have hcover : Keeps log db (db.coverBatch b gap) := .of_same rfl rfl rfl rfl
  have htouch : Keeps log (db.coverBatch b gap) ((db.coverBatch b gap).touchExpected b) :=
    foldl_related (R := Keeps log) .refl (fun h h' => h.trans h')
      (fun _ account => keeps_touchAccount) _ _
  exact (((hcover.trans htouch).trans (keeps_payload _)).trans
    (keeps_deleteExpired env)).trans (keeps_reclaim env _)

end invariant

theorem keeps_tick (now) : Keeps log db (db.tick now) :=
  ⟨le_max_left _ _,fun _ _ h _ => h,fun _ _ h => .inl h,fun _ _ _ h _ => h⟩

section apply

variable {db db' : ActivityDB} {b : AccountActivityBatch}

theorem keeps_count (hsnap : Snap log (b.counterKey r) ⟨b.sequence,r.counts⟩) :
    Keeps log db (db.count b r) := by
  refine ⟨le_rfl,fun _ _ h _ => h,fun k c hc => ?_,fun _ _ _ h _ => h⟩
  rcases lookup_insert_cases hc with ⟨rfl,rfl⟩ | hc
  · exact .inr (.inr hsnap)
  · exact .inl hc

theorem keeps_applyItem (hsnap : Snap log (b.counterKey r) ⟨b.sequence,r.counts⟩)
    (h : applyItem b db r=.ok db') : Keeps log db db' := by
  rcases applyItem_cases h with ⟨-,rfl⟩ | ⟨-,-,rfl⟩
  · exact .refl _
  refine Keeps.trans ?_ keeps_touchAccount
  split
  · refine (keeps_count hsnap).trans ?_
    rcases recordSource_cases _ b r _ with ⟨-,heq⟩ | ⟨-,-,heq⟩ <;> rw [heq] <;>
      exact .of_same rfl rfl rfl rfl
  · exact keeps_count hsnap

theorem AccountActivityBatch.WellFormed.sequence_pos (h : b.WellFormed) : 0<b.sequence := by
  have := h.header
  simp only [headerValid,Bool.and_eq_true,decide_eq_true_eq] at this
  tauto

theorem Admitted.applyItem_ok (h : Admitted db log) (hb : b∈accepted log) (hr : r∈b.items) :
    ∃db',applyItem b db r=.ok db' := by
  have hsnap := snap_of_item hb hr
  have hcounter : (db.counter.lookup (b.counterKey r)).getD {}={} ∨
      Snap log (b.counterKey r) ((db.counter.lookup (b.counterKey r)).getD {}) := by
    cases hc : db.counter.lookup (b.counterKey r) with
    | none => exact .inl rfl
    | some c => exact h.counters _ c hc
  simp only [applyItem]
  generalize (db.counter.lookup (b.counterKey r)).getD {}=c at hcounter ⊢
  by_cases hlt : b.sequence<c.seq
  · rw [if_pos hlt]
    rcases hcounter with rfl | hold
    · exact absurd hlt (not_lt.mpr (h.wellFormed b hb).sequence_pos.le)
    · rw [h.ordered _ _ c hsnap hold hlt.le]
      exact ⟨_,rfl⟩
  · rw [if_neg hlt]
    have hcomparable : comparableActivityCounters r.counts c.counts=true := by
      rcases hcounter with rfl | hold
      · simp [comparableActivityCounters]
      · exact h.ordered _ c _ hold hsnap (not_lt.mp hlt)
    rw [hcomparable]
    exact ⟨_,rfl⟩

theorem Admitted.applyItems_ok (h : Admitted db log)
    (hb : b∈accepted log) (hitems : items⊆b.items) :
    ∃db',items.foldlM (applyItem b) db=.ok db' ∧ Keeps log db db' := by
  induction items generalizing db with
  | nil => exact ⟨db,rfl,.refl db⟩
  | cons r items ih =>
    have hr : r∈b.items := hitems mem_cons_self
    obtain ⟨db₁,hitem⟩ := h.applyItem_ok hb hr
    have hkeeps : Keeps log db db₁ := keeps_applyItem (snap_of_item hb hr) hitem
    obtain ⟨db₂,hrest,hkeeps'⟩ := ih (h.keeps hkeeps) fun _ hr => hitems (mem_cons_of_mem _ hr)
    refine ⟨db₂,?_,hkeeps.trans hkeeps'⟩
    rw [foldlM_cons,hitem]
    exact hrest

theorem nextPending_mem (h : db.nextPending=some i) : i∈db.pending := by
  have := mem_of_mem_head? h
  rwa [mem_insertionSort] at this

theorem nextPending_none : db.nextPending=none ↔ db.pending=[] := by
  unfold nextPending
  rw [head?_eq_none_iff,← length_eq_zero_iff,length_insertionSort, length_eq_zero_iff]

theorem mem_pending : i∈db.pending ↔ db.inbox.lookup i.1=some i.2 ∧ i.2.payload.isSome=true := by
  rw [pending,mem_filter,← mem_rows]

theorem Admitted.apply_cases (env) (h : Admitted db log) (now) :
    (db.pending=[] ∧ applyAccountActivityBatch env db now= .ok (db.tick now,none)) ∨
    ∃i b applied,i∈db.pending ∧ i.2.payload=some b ∧ b∈accepted log ∧ i.1=b.inboxKey ∧
      b.items.foldlM (applyItem b) (db.tick now)=.ok applied ∧
      Keeps log db applied ∧
      applyAccountActivityBatch env db now=.ok (finishBatch env applied b i.2.gap now,some b) := by
  have hsame : (db.tick now).nextPending=db.nextPending := rfl
  simp only [applyAccountActivityBatch,hsame]
  cases hnext : db.nextPending with
  | none => exact .inl ⟨nextPending_none.mp hnext,rfl⟩
  | some i =>
    have hi := nextPending_mem hnext
    obtain ⟨hrow,hp⟩ := mem_pending.mp hi
    obtain ⟨b,hb⟩ := isSome_iff_exists.mp hp
    obtain ⟨haccepted,hkey,-⟩ := h.pending i.1 i.2 b hrow hb
    have hclock : Keeps log db (db.tick now) := keeps_tick now
    obtain ⟨applied,hitems,hkeeps⟩ :=
      (h.keeps hclock).applyItems_ok haccepted (List.Subset.refl b.items)
    refine .inr ⟨i,b,applied,hi,hb,haccepted,hkey,hitems,hclock.trans hkeeps,?_⟩
    simp only [hb,hitems]
    rfl

theorem Admitted.apply (env) (h : Admitted db log) (now) :
    ∃db' applied,applyAccountActivityBatch env db now=.ok (db',applied) ∧ Keeps log db db' := by
  rcases h.apply_cases env now with ⟨-,heq⟩ | ⟨i,b,applied,-,-,-,-,-,hkeeps,heq⟩
  · exact ⟨_,_,heq,keeps_tick now⟩
  · exact ⟨_,_,heq,hkeeps.trans (keeps_finishBatch env)⟩

end apply

section receive

variable {env : PipelineEnv} {db db' : ActivityDB} {log : List PipelineEvent}
  {b : AccountActivityBatch}

theorem keeps_reserveCounters (b) : Keeps log db (reserveCounters db b) := by
  refine ⟨le_rfl,fun _ _ h _ => h,fun k c hc => ?_,fun _ _ _ h _ => h⟩
  change ((b.items.map (fun r => (b.counterKey r,{}))).foldl Table.putNew
    db.counter).lookup k=some c at hc
  rw [lookup_foldl_putNew] at hc
  rcases or_eq_some_iff.mp hc with hc | ⟨-,hc⟩
  · exact .inl hc
  obtain ⟨r,-,heq⟩ := mem_map.mp (mem_of_lookup hc)
  cases heq
  exact .inr (.inl rfl)

theorem insertCheckpoints_spec (h : items.foldlM (insertCheckpoint b) t=.ok t') :
    (∀k seq c,t.lookup (k,seq)=some c → t'.lookup (k,seq)=some c) ∧
    ∀r∈items,t.lookup (b.counterKey r,b.sequence)=none ∧
      t'.lookup (b.counterKey r,b.sequence)=some r.counts := by
  induction items generalizing t with
  | nil =>
    cases h
    exact ⟨fun _ _ _ h => h,nofun⟩
  | cons r items ih =>
    obtain ⟨t₁,hinsert,h⟩ := bind_ok h
    simp only [insertCheckpoint] at hinsert
    split_ifs at hinsert with htaken
    cases hinsert
    rw [not_isSome_iff_eq_none] at htaken
    obtain ⟨hkept,hnew⟩ := ih h
    have hgrow k seq c (hc : t.lookup (k,seq)=some c) :
        (t.insert (b.counterKey r,b.sequence) r.counts).lookup (k,seq)=some c := by
      rw [AList.lookup_insert_ne,hc]
      intro heq
      rw [heq,htaken] at hc
      exact nomatch hc
    refine ⟨fun k seq c hc => hkept k seq c (hgrow k seq c hc),fun r' hr' => ?_⟩
    rcases mem_cons.mp hr' with rfl | hr'
    · exact ⟨htaken,hkept _ _ _ (AList.lookup_insert _)⟩
    refine ⟨?_,(hnew r' hr').2⟩
    have hfree := (hnew r' hr').1
    rw [lookup_insert_eq] at hfree
    split_ifs at hfree
    exact hfree

/-- A reservation: the batch is comparable with all checkpoints of its counters, and its own are
added. -/
structure Reserved (b : AccountActivityBatch) (db db' : ActivityDB) : Prop where
  comparable : ∀r∈b.items,∀seq c,db.checkpoint.lookup (b.counterKey r,seq)=some c →
    (b.sequence<seq → comparableActivityCounters c r.counts=true) ∧
    (seq<b.sequence → comparableActivityCounters r.counts c=true) ∧ seq≠b.sequence
  added : ∀r∈b.items,db'.checkpoint.lookup (b.counterKey r,b.sequence)=some r.counts
  clock : db'.clock=db.clock
  inbox : db'.inbox=db.inbox

theorem comparable_of_validate (h : validateActivityCumulative db b=true) (hr : r∈b.items)
    (hc : db.checkpoint.lookup (b.counterKey r,seq)=some c) :
    (b.sequence<seq → comparableActivityCounters c r.counts=true) ∧
    (¬b.sequence<seq → comparableActivityCounters r.counts c=true) := by
  have hrow := all_eq_true.mp (all_eq_true.mp h r hr) _ (mem_rows.mpr hc)
  simp only [ne_eq] at hrow
  refine ⟨fun hlt => ?_,fun hge => ?_⟩
  · rwa [if_pos hlt] at hrow
  · rwa [if_neg hge] at hrow

theorem reserve_spec {clock : Int} (hclock : clock≤db.clock)
    (hopen : db.clock-180≤b.minuteUnix) (h : reserveActivityCapacity env db b clock=.ok db') :
    Keeps log db db' ∧ Reserved b db db' := by
  simp only [reserveActivityCapacity] at h
  split_ifs at h with hfull hvalid
  obtain ⟨checkpoint,hinsert,h⟩ := bind_ok h
  cases h
  obtain ⟨hkept,hnew⟩ := insertCheckpoints_spec hinsert
  have hdelete : Keeps log db
      (deleteCheckpoints env (reclaimActivityDirty env db clock) (clock-180)) :=
    (keeps_reclaim env clock).trans (keeps_deleteCheckpoints env fun row _ hlt => by
      change row.1.1.minute<db.clock-180
      omega)
  have hreserve := hdelete.trans (keeps_reserveCounters b)
  rw [Bool.not_eq_true,Bool.not_eq_false'] at hvalid
  refine ⟨hreserve.trans ⟨le_rfl,fun _ _ h _ => h,fun _ _ h => .inl h,
    fun k seq c hc _ => hkept k seq c hc⟩,fun r hr seq c hc => ?_,fun r hr => (hnew r hr).2,rfl,rfl⟩
  -- The checkpoint is of an open minute, so the cleaning before has left it there.
  have hc' := hreserve.checkpoint _ seq c hc hopen
  have hcomparable := comparable_of_validate hvalid hr hc'
  refine ⟨hcomparable.1,fun hlt => hcomparable.2 (not_lt.mpr hlt.le),fun heq => ?_⟩
  rw [heq,(hnew r hr).1] at hc'
  exact nomatch hc'

/-- The batch is stored as new, after the clock has been moved on. -/
structure Stored (env : PipelineEnv) (db : ActivityDB) (b : AccountActivityBatch) (stream : StreamRow)
    (room db' : ActivityDB) : Prop where
  fresh : db.inbox.lookup b.inboxKey=none
  early : b.minuteUnix≤db.clock-60
  late : db.clock-180≤b.minuteUnix
  admitted : ∃changed,admitStream env db b=.ok (stream,changed)
  floor : stream.floor<b.sequence
  reserved : reserveActivityCapacity env db b db.clock=.ok room
  result : ∃digest gap,db'=storeBatch room b {stream with
      high := max stream.high b.sequence
      floor := max stream.floor (max stream.high b.sequence-4096)} digest gap

def PipelineMove.instant : PipelineMove → Int
  | .receive _ now => now
  | .apply now => now
  | .expect _ now => now
  | .cleanup at_ => at_

theorem receiveMove_cases (h : receiveMove env db raw now=.ok result) : result=(db.tick now,[]) ∨
      ∃b stream room,b.WellFormed ∧ Stored env (db.tick now) b stream room result.1 ∧
        result.2=[.accepted b] := by
  obtain ⟨b,hvalid,h⟩ := bind_ok h
  obtain ⟨received,hreceive,h⟩ := bind_ok h
  have hwell := validateActivityBatch_wellFormed hvalid
  obtain ⟨b',hvalid',hreceive⟩ := bind_ok hreceive
  cases hvalid.symm.trans hvalid'
  dsimp only at hreceive
  split at hreceive
  · exact nomatch hreceive
  split at hreceive
  · exact nomatch hreceive
  split at hreceive
  · split at hreceive
    · exact nomatch hreceive
    cases ok.inj hreceive
    cases ok.inj h
    exact .inl rfl
  next hfresh =>
  split at hreceive
  · exact nomatch hreceive
  next hexpired =>
  split at hreceive
  · exact nomatch hreceive
  obtain ⟨⟨stream,changed⟩,hstream,hreceive⟩ := bind_ok hreceive
  split at hreceive
  · exact nomatch hreceive
  next hfloor =>
  obtain ⟨room,hroom,hreceive⟩ := bind_ok hreceive
  cases ok.inj hreceive
  cases ok.inj h
  rw [not_or,not_lt,not_lt] at hexpired
  exact .inr ⟨{b with receiptDigest := none},stream,room, ⟨hwell.header,hwell.valid,hwell.distinct⟩,
    ⟨hfresh,hexpired.1,hexpired.2,⟨changed,hstream⟩,not_le.mp hfloor,hroom,_,_,rfl⟩,rfl⟩

theorem receiveMove_batch (h : receiveMove env db raw now=.ok result) (hb : .accepted b∈result.2) :
    b.clockState=raw.clockState ∧ b.sourceVersion=raw.sourceVersion ∧ ∀r,r∈b.items ↔ r∈raw.items := by
  obtain ⟨batch,hvalid,h⟩ := bind_ok h
  obtain ⟨received,-,h⟩ := bind_ok h
  cases ok.inj h
  split at hb
  · exact nomatch hb
  cases mem_singleton.mp hb
  simp only [validateActivityBatch] at hvalid
  split_ifs at hvalid
  cases hvalid
  exact ⟨rfl,rfl,fun r => mem_insertionSort _⟩

/-- What a call does: nothing if it fails, otherwise the clock ticks, unless it is a cleanup. -/
inductive PipelineTurn (env : PipelineEnv) (db : ActivityDB) :
    PipelineMove → ActivityDB×List PipelineEvent → Prop where
  | failed (move : PipelineMove) : PipelineTurn env db move (db,[])
  | ticked (move : PipelineMove) : PipelineTurn env db move (db.tick move.instant,[])
  | stored {raw b : AccountActivityBatch} {now : Int} {stream : StreamRow} {room db' : ActivityDB}
      (hb : b.WellFormed) (hraw : b.clockState=raw.clockState ∧ b.sourceVersion=raw.sourceVersion ∧
        ∀r,r∈b.items ↔ r∈raw.items) (hs : Stored env (db.tick now) b stream room db') :
      PipelineTurn env db (.receive raw now) (db',[.accepted b])
  | applied {i : InboxKey×InboxRow} {b : AccountActivityBatch} {items : ActivityDB} {now : Int}
      (hnext : db.nextPending=some i) (hb : i.2.payload=some b)
      (hitems : b.items.foldlM (applyItem b) (db.tick now)=.ok items) :
      PipelineTurn env db (.apply now) (finishBatch env items b i.2.gap now,[.applied b])
  | expected {rows : List AccountActivityExpected} {now : Int} {db' : ActivityDB}
      (hsave : saveAccountActivityExpected env db rows now=.ok db') :
      PipelineTurn env db (.expect rows now) (db',[])
  | cleaned (at_ : Int) :
      PipelineTurn env db (.cleanup at_) (cleanupAccountActivityPipeline env db at_,[])

theorem pipelineStep_turn (env) (db) (move) :
    PipelineTurn env db move (pipelineStep env db move) := by
  cases move with
  | receive raw now =>
    rw [pipelineStep]
    cases h : receiveMove env db raw now with
    | error e => exact .failed _
    | ok result =>
      rcases receiveMove_cases h with rfl | ⟨b,stream,room,hb,hs,hevents⟩
      · exact .ticked (.receive raw now)
      obtain ⟨db',events⟩ := result
      cases hevents
      exact .stored hb (receiveMove_batch h mem_cons_self) hs
  | apply now =>
    rw [pipelineStep]
    cases h : applyMove env db now with
    | error e => exact .failed _
    | ok result =>
      rcases applyMove_cases h with rfl | ⟨i,b,items,hnext,hb,hitems,rfl⟩
      · exact .ticked (.apply now)
      · exact .applied hnext hb hitems
  | expect rows now =>
    rw [pipelineStep]
    cases h : expectMove env db rows now with
    | error e => exact .failed _
    | ok result =>
      obtain ⟨db',hsave,heq⟩ := bind_ok h
      cases ok.inj heq
      exact .expected hsave
  | cleanup at_ => exact .cleaned at_

theorem AccountActivityBatch.WellFormed.item_unique (h : b.WellFormed) (hr : r∈b.items) (hr' : r'∈b.items)
    (hkey : b.counterKey r=b.counterKey r') : r=r' := by
  simp only [counterKey,CounterKey.mk.injEq] at hkey
  exact inj_on_of_nodup_map h.distinct hr hr' (by simp only [AccountActivityBatchItem.key,hkey])

theorem Snap.mono (h : Snap log k s) : Snap (log++events) k s := by
  obtain ⟨b,hb,hs⟩ := h
  rw [Snap,accepted_append]
  exact ⟨b,mem_append_left _ hb,hs⟩

theorem snap_snoc (h : Snap (log++[.accepted b]) k s) :
    Snap log k s ∨ ∃r∈b.items,k=b.counterKey r ∧ s=⟨b.sequence,r.counts⟩ := by
  obtain ⟨b',hb',hs⟩ := h
  rw [accepted_append,mem_append] at hb'
  rcases hb' with hb' | hb'
  · exact .inl ⟨b',hb',hs⟩
  cases mem_singleton.mp hb'
  obtain ⟨r,hr,heq⟩ := mem_map.mp hs
  cases heq
  exact .inr ⟨r,hr,rfl,rfl⟩

theorem Admitted.stored {stream : StreamRow} {room : ActivityDB} (h : Admitted db log)
    (hb : b.WellFormed) (hs : Stored env db b stream room db') :
    Admitted db' (log++[.accepted b]) := by
  obtain ⟨hkeeps,hreserved⟩ : Keeps log db room ∧ Reserved b db room :=
    reserve_spec le_rfl hs.late hs.reserved
  obtain ⟨digest,gap,rfl⟩ := hs.result
  -- An earlier snapshot of one of the counters has its checkpoint.
  have hearlier {r} hr {s}
      hold := hreserved.comparable r hr s.seq s.counts
        (h.checked _ s hold hs.late)
  refine ⟨fun b' hb' => ?_,fun k s t hsk htk hle => ?_,fun k s hsk hopen => ?_,
    fun key row b' hrow hb' => ?_,fun k c hc => ?_⟩
  · rw [accepted_append,mem_append] at hb'
    rcases hb' with hb' | hb'
    · exact h.wellFormed b' hb'
    · cases mem_singleton.mp hb'
      exact hb
  · rcases snap_snoc hsk with hsk | ⟨r,hr,rfl,rfl⟩ <;> rcases snap_snoc htk with htk | ⟨r',hr',hk,rfl⟩
    · exact h.ordered k s t hsk htk hle
    · subst hk
      obtain ⟨-,hbelow,hne⟩ := hearlier hr' hsk
      exact hbelow (lt_of_le_of_ne hle hne)
    · obtain ⟨habove,-,hne⟩ := hearlier hr htk
      exact habove (lt_of_le_of_ne hle hne.symm)
    · cases hb.item_unique hr hr' hk
      simp [comparableActivityCounters]
  · rcases snap_snoc hsk with hsk | ⟨r,hr,rfl,rfl⟩
    · have hopen' : db.clock-180≤k.minute := by
        rw [← hreserved.clock]
        exact hopen
      exact hkeeps.checkpoint k s.seq s.counts (h.checked k s hsk hopen') hopen
    · exact hreserved.added r hr
  · rcases lookup_insert_cases hrow with ⟨rfl,rfl⟩ | hrow
    · cases hb'
      rw [accepted_append]
      exact ⟨mem_append_right _ mem_cons_self,rfl,rfl⟩
    rw [lookup_deleteRows] at hrow
    have hold := hkeeps.inbox key row (filter_eq_some_iff.mp hrow).1 (by rw [hb']; rfl)
    obtain ⟨hmem,hkey⟩ := h.pending key row b' hold hb'
    rw [accepted_append]
    exact ⟨mem_append_left _ hmem,hkey⟩
  · rcases hkeeps.counter k c hc with hc | rfl | hc
    · exact (h.counters k c hc).imp id fun hc => hc.mono
    · exact .inl rfl
    · exact .inr hc.mono

end receive

section steps

variable {db db' : ActivityDB}

/-- A cleanup leaves the checkpoints of all minutes for which batches are still taken. -/
def KeepsOpenCheckpoints (db : ActivityDB) : PipelineMove → Prop
  | .cleanup at_ => ∀row∈db.checkpoint.rows,row.1.1.minute<unix at_-180 → row.1.1.minute<db.clock-180
  | _ => True

instance (db : ActivityDB) : ∀move,Decidable (KeepsOpenCheckpoints db move)
  | .cleanup _ => inferInstanceAs (Decidable (∀row∈db.checkpoint.rows,_ → _))
  | .receive _ _ | .apply _ | .expect _ _ => inferInstanceAs (Decidable True)

theorem keeps_saveExpected {rows : List AccountActivityExpected}
    (h : saveAccountActivityExpected env db rows now=.ok db') : Keeps log db db' := by
  rw [saveAccountActivityExpected_only h]
  exact ((keeps_tick now).trans (keeps_reclaim env (unix now))).trans (.of_same rfl rfl rfl rfl)

theorem Admitted.congr (h : Admitted db log)
    (hlog : accepted log'=accepted log) : Admitted db log' := by
  have hsnap k s : Snap log' k s ↔ Snap log k s := by
    rw [Snap,Snap,hlog]
  refine ⟨hlog ▸ h.wellFormed,fun k s t hs ht => ?_,fun k s hs => ?_,hlog ▸ h.pending,
    fun k c hc => ?_⟩
  · exact h.ordered k s t ((hsnap k s).mp hs) ((hsnap k t).mp ht)
  · exact h.checked k s ((hsnap k s).mp hs)
  · rw [hsnap]
    exact h.counters k c hc

theorem Admitted.step (h : Admitted db log) (env) (move) (hg : KeepsOpenCheckpoints db move) :
    Admitted (pipelineStep env db move).1 (log++(pipelineStep env db move).2) := by
  have hsame : Admitted db (log++[]) := by rwa [append_nil]
  have hturn := pipelineStep_turn env db move
  generalize pipelineStep env db move=result at hturn ⊢
  cases hturn with
  | failed => exact hsame
  | ticked => exact hsame.keeps (keeps_tick _)
  | stored hb hraw hs => exact (h.keeps (keeps_tick _)).stored hb hs
  | @applied i b items now hnext hb hitems =>
    obtain ⟨haccepted,-,-⟩ := h.pending i.1 i.2 b (mem_pending.mp (nextPending_mem hnext)).1 hb
    obtain ⟨items',hitems',hkeeps⟩ :=
      (h.keeps (keeps_tick now)).applyItems_ok haccepted (List.Subset.refl b.items)
    cases hitems.symm.trans hitems'
    refine (h.keeps (((keeps_tick now).trans hkeeps).trans (keeps_finishBatch env))).congr ?_
    simp [accepted]
  | expected hsave => exact hsame.keeps (keeps_saveExpected hsave)
  | cleaned => exact hsame.keeps (((keeps_deleteExpired env).trans (keeps_deleteCheckpoints env hg)).trans
      (keeps_reclaim env _))

theorem admitted_empty : Admitted {} [] :=
  ⟨fun _ h => (nomatch h),fun _ _ _ h => (nomatch h.choose_spec.1),
    fun _ _ h => (nomatch h.choose_spec.1),fun _ _ _ h => (nomatch h),fun _ _ h => (nomatch h)⟩

end steps

section drain

theorem Admitted.apply_pending (h : Admitted db log) (env) (now) :
    ((pipelineStep env db (.apply now)).1.pending.length : Int)=db.pending.length-
      if db.pending=[] then 0 else 1 := by
  change ((keepOnError (db,[]) (applyMove env db now)).1.pending.length : Int)=_
  rcases h.apply_cases env now with ⟨hempty,heq⟩ | ⟨i,b,applied,hi,hb,-,hkey,hitems,-,heq⟩
  · rw [applyMove,heq,if_pos hempty]
    change (db.pending.length : Int)=_
    omega
  have hne : db.pending≠[] := ne_nil_of_mem hi
  obtain ⟨hrow,hp⟩ := mem_pending.mp hi
  rw [applyMove,heq,if_neg hne]
  change ((finishBatch env applied b i.2.gap now).pending.length : Int)=_
  have hinbox : (finishBatch env applied b i.2.gap now).inbox=
      db.inbox.modify b.inboxKey (fun row => {row with payload := none}) := by
    rw [finishBatch_only,applyItems_only hitems]
    rfl
  simp only [ActivityDB.pending,length_filter_rows,hinbox,total_modify,← hkey,hrow]
  simp only [Option.elim,hp,if_true,isSome_none,Bool.false_eq_true,if_false]
  omega

theorem Admitted.drains (h : Admitted db log) {nows : List Int}
    (hlength : db.pending.length≤nows.length) :
    (run (pipelineStep env) db (nows.map .apply)).1.pending=[] := by
  induction nows generalizing db log with
  | nil => exact length_eq_zero_iff.mp (Nat.le_zero.mp hlength)
  | cons now nows ih =>
    refine ih (h.step env (.apply now) trivial) ?_
    have hone := h.apply_pending env now
    split_ifs at hone with hempty
    · rw [hempty,length_nil] at hone
      omega
    · rw [length_cons] at hlength
      omega

end drain

/-- As long as cleanups leave the checkpoints of open minutes, nothing accepted is refused later. -/
theorem accepted_batches_never_block (env : PipelineEnv) {moves : List PipelineMove}
    (h : RunGuarded (pipelineStep env) KeepsOpenCheckpoints {} moves) :
    (∀now,∃result,applyAccountActivityBatch env (run (pipelineStep env) {} moves).1 now=.ok result) ∧
    ∀nows : List Int,(run (pipelineStep env) {} moves).1.pending.length≤nows.length →
      (run (pipelineStep env) (run (pipelineStep env) {} moves).1 (nows.map .apply)).1.pending=
        [] := by
  have hinv := run_invariant Admitted _
    (fun {_ _ move} hg hi => hi.step env move hg) h admitted_empty
  refine ⟨fun now => ?_,fun nows hlength => hinv.drains hlength⟩
  obtain ⟨db',applied,heq,-⟩ := hinv.apply env now
  exact ⟨_,heq⟩

section runs

def plainEnv : PipelineEnv := ⟨fun _ => 0,fun _ => "",fun _ => [],fun l => l⟩

def hexText (size : Nat) : String := String.ofList (List.replicate (2*size) 'a')

def plainBatch (sequence : Int) (uploadBytes : Nat) : AccountActivityBatch where
  serverID := 1
  collectorBootID := hexText 16
  collectorStartedAt := 1
  sequence := sequence
  minuteUnix := 6000
  sourceVersion := "v1"
  items := [{
    accountID := 1
    inboundID := 1
    sourceGroup := hexText 32
    activityBits := 1
    uploadBytes := uploadBytes}]

def at_ (seconds : Int) : Int := seconds*1000000000

def cleanedInTime : List PipelineMove :=
  [.receive (plainBatch 1 100) (at_ 6060),.cleanup (at_ 6060),.receive (plainBatch 2 50) (at_ 6070),
    .receive (plainBatch 2 150) (at_ 6070)]

def cleanedAhead : List PipelineMove :=
  [.receive (plainBatch 1 100) (at_ 6060),.cleanup (at_ 6200),.receive (plainBatch 2 50) (at_ 6070),
    .apply (at_ 6080)]

theorem cleanup_in_time_never_blocks :
    RunGuarded (pipelineStep plainEnv) KeepsOpenCheckpoints {} cleanedInTime ∧
    (run (pipelineStep plainEnv) {} cleanedInTime).1.pending.length=2 ∧
    (run (pipelineStep plainEnv) (run (pipelineStep plainEnv) {} cleanedInTime).1
      ([at_ 6080,at_ 6080].map .apply)).1.pending=[] := by
  have h : RunGuarded (pipelineStep plainEnv) KeepsOpenCheckpoints {} cleanedInTime := by
    decide +kernel
  have hlength : (run (pipelineStep plainEnv) {} cleanedInTime).1.pending.length=2 := by
    decide +kernel
  exact ⟨h,hlength,(accepted_batches_never_block plainEnv h).2 [at_ 6080,at_ 6080] hlength.le⟩

/-- The second batch was accepted without the first one's checkpoint and is refused from then on. -/
theorem accepted_batch_blocks_inbox :
    (run (pipelineStep plainEnv) {} cleanedAhead).1.pending.length=1 ∧
    applyAccountActivityBatch plainEnv (run (pipelineStep plainEnv) {} cleanedAhead).1 (at_ 6080)=
      .error .conflict := by
  constructor
  · decide +kernel
  · rfl

end runs

end Oboard.Activity
