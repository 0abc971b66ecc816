import Oboard.Activity.Admission
import Oboard.Framework.Cumulative

namespace Oboard.Activity

open Runs Cumulative List Table Counts AccountActivityBatchItem

section totals

def AccountActivityBatch.snapshot (b : AccountActivityBatch) (r : AccountActivityBatchItem) :
    Snapshot SourceKey CounterKey Counts :=
  ⟨b.sourceKey r,b.counterKey r,b.sequence,r.counts⟩

def AccountActivityBatch.snapshots (b : AccountActivityBatch) :
    List (Snapshot SourceKey CounterKey Counts) :=
  b.items.map b.snapshot

def snapshots (batches : List AccountActivityBatch) : List (Snapshot SourceKey CounterKey Counts) :=
  batches.flatMap (·.snapshots)

def Counts.bytes (c : Counts) : Nat := c.up+c.down

def Counts.slice (i : Nat) (c : Counts) : Nat := if c.bits.testBit i then 1 else 0

section

variable (all : List (Snapshot SourceKey CounterKey Counts)) (account minute : Int)

def sourceKeys :
    Finset SourceKey :=
  (all.map (·.group)).toFinset.filter (fun k => k.account=account ∧ k.minute=minute)

def WithinSourceLimit :
    Prop :=
  (sourceKeys all account minute).card≤32

def WithinByteRange :
    Prop :=
  ∀k∈sourceKeys all account minute,total bytes all k≤ maxInt64

end

variable {all all' : List (Snapshot SourceKey CounterKey Counts)}

theorem mem_sourceKeys :
    k∈sourceKeys all account minute ↔ (∃s∈all,s.group=k) ∧ k.account=account ∧ k.minute=minute := by
  simp only [sourceKeys,Finset.mem_filter,mem_toFinset,mem_map]

/-- Later snapshots of a counter have at least the bytes and slices of earlier ones. -/
def Ascending (all : List (Snapshot SourceKey CounterKey Counts)) : Prop :=
  ∀s∈all,∀t∈all,s.counter=t.counter → s.seq≤t.seq →
    comparableActivityCounters t.value s.value=true

theorem comparable_spec (h : comparableActivityCounters newer older=true) :
    older.up≤newer.up ∧ older.down≤newer.down ∧
      ∀i,older.bits.testBit i=true → newer.bits.testBit i=true := by
  simp only [comparableActivityCounters,Bool.and_eq_true,decide_eq_true_eq] at h
  refine ⟨h.1.1,h.1.2,fun i hi => ?_⟩
  rw [← h.2,Nat.testBit_and,Bool.and_eq_true] at hi
  exact hi.1

theorem slice_le (h : comparableActivityCounters newer older=true) (i) :
    older.slice i≤newer.slice i := by
  have := (comparable_spec h).2.2 i
  unfold slice
  split_ifs <;> simp_all

theorem Ascending.bytes (h : Ascending all) : Grows bytes all :=
  fun s hs t ht hc hseq =>
    Nat.add_le_add (comparable_spec (h s hs t ht hc hseq)).1 (comparable_spec (h s hs t ht hc hseq)).2.1

theorem Ascending.slice (h : Ascending all) (i) : Grows (slice i) all :=
  fun s hs t ht hc hseq => slice_le (h s hs t ht hc hseq) i

theorem withinLimits_anti (hsub : all⊆all') (h : Ascending all')
    (hlimit : WithinSourceLimit all' account minute) (hrange : WithinByteRange all' account minute) :
    WithinSourceLimit all account minute ∧ WithinByteRange all account minute := by
  have hkeys : sourceKeys all account minute⊆sourceKeys all' account minute := by
    intro k hk
    obtain ⟨⟨s,hs,hgroup⟩,hk⟩ := mem_sourceKeys.mp hk
    exact mem_sourceKeys.mpr ⟨⟨s,hsub hs,hgroup⟩,hk⟩
  exact ⟨(Finset.card_le_card hkeys).trans hlimit,
    fun k hk => (total_mono hsub h.bytes k).trans (hrange k (hkeys hk))⟩

end totals

section items

variable {all done : List (Snapshot SourceKey CounterKey Counts)} {db db' : ActivityDB}
  {b : AccountActivityBatch} {r : AccountActivityBatchItem}

/-- The counter row that the applied snapshots lead to. -/
def counterRow (done : List (Snapshot SourceKey CounterKey Counts)) (c : CounterKey) : CounterRow :=
  (latest done c).elim {} (fun s => ⟨s.seq,s.value⟩)

/-- The tables say what the applied snapshots add up to, for all minutes that are kept and have no
recorded overflow. Overflows are recorded only where all snapshots together exceed a limit. -/
structure Tallied (all : List (Snapshot SourceKey CounterKey Counts)) (db : ActivityDB)
    (done : List (Snapshot SourceKey CounterKey Counts)) : Prop where
  sub : done⊆all
  counter : ∀c,reclaimCutoff db.clock≤c.minute → (db.counter.lookup c).getD {}=counterRow done c
  source : ∀k,reclaimCutoff db.clock≤k.minute → db.quality.lookup (k.account,k.minute)=none →
    (db.sourceOf k).bytes=total bytes done k ∧
    ∀i,(db.sourceOf k).bits.testBit i=true ↔ 0<total (slice i) done k
  stored : ∀k row,db.source.lookup k=some row → ∃s∈done,s.group=k
  exceeded : ∀account minute,(db.quality.lookup (account,minute)).isSome=true →
    ¬(WithinSourceLimit all account minute ∧ WithinByteRange all account minute)

theorem reached_eq (hf : f {}=0) : reached f done c=f (counterRow done c).counts := by
  unfold reached counterRow
  cases latest done c with
  | none => exact hf.symm
  | some s => rfl

theorem outdated_snoc (h : s.seq<(counterRow done s.counter).seq) (hpos : 0<s.seq) :
    latest (done++[s]) s.counter=latest done s.counter := by
  unfold counterRow at h
  rcases latest_snoc_self (l := done) (s := s) with ⟨t,hold,-,hnew⟩ | ⟨hmax,-⟩
  · rw [hold,hnew]
  cases hlatest : latest done s.counter with
  | none =>
    rw [hlatest] at h
    exact absurd h (not_lt.mpr hpos.le)
  | some t =>
    rw [hlatest] at h
    exact absurd h (not_lt.mpr (hmax t hlatest))

theorem current_snoc (h : (counterRow done s.counter).seq≤ s.seq) :
    latest (done++[s]) s.counter=some s := by
  unfold counterRow at h
  rcases latest_snoc_self (l := done) (s := s) with ⟨t,hold,hlt,-⟩ | ⟨-,hnew⟩
  · rw [hold] at h
    exact absurd h (not_le.mpr hlt)
  · exact hnew

theorem total_current (hf : f {}=0) (hm : Mapped target (done++[s]))
    (h : (counterRow done s.counter).seq≤ s.seq) :
    total f (done++[s]) s.group+f (counterRow done s.counter).counts=
      total f done s.group+f s.value := by
  have hmove := total_snoc_self (f := f) hm
  rw [reached_eq hf,reached_eq hf] at hmove
  rw [hmove,counterRow,current_snoc h]
  rfl

theorem total_outdated (hm : Mapped target (done++[s])) (h : s.seq<(counterRow done s.counter).seq)
    (hpos : 0<s.seq) : total f (done++[s]) k=total f done k := by
  by_cases hk : s.group=k
  · subst hk
    have hmove := total_snoc_self (f := f) hm
    rw [reached,reached,outdated_snoc h hpos] at hmove
    exact Nat.add_right_cancel hmove
  · exact total_snoc_ne hm hk

theorem snoc_sub (h : Tallied all db done) (hs : s∈all) : done++[s]⊆all :=
  append_subset.mpr ⟨h.sub,cons_subset.mpr ⟨hs,nil_subset _⟩⟩

theorem Tallied.outdated (h : Tallied all db done) (hm : Mapped target all) (hs : s∈all)
    (hlt : s.seq<(counterRow done s.counter).seq) (hpos : 0<s.seq) :
    Tallied all db (done++[s]) := by
  have hm' := hm.mono (snoc_sub h hs)
  refine ⟨snoc_sub h hs,fun c hc => ?_,fun k hk hq => ?_,fun k row hrow => ?_,h.exceeded⟩
  · rw [h.counter c hc]
    by_cases hcounter : c=s.counter
    · rw [hcounter,counterRow,counterRow,outdated_snoc hlt hpos]
    · rw [counterRow,counterRow,latest_snoc_ne hcounter]
  · simp only [total_outdated hm' hlt hpos]
    exact h.source k hk hq
  · obtain ⟨t,ht,hgroup⟩ := h.stored k row hrow
    exact ⟨t,mem_append_left _ ht,hgroup⟩

theorem Tallied.sourceCount_lt (h : Tallied all db done) (hs : b.snapshot r∈all)
    (hnone : db.source.lookup (b.sourceKey r)=none) : db.sourceCount r.accountID b.minuteUnix<
      (sourceKeys all r.accountID b.minuteUnix).card := by
  have hkey : b.sourceKey r∈sourceKeys all r.accountID b.minuteUnix :=
    mem_sourceKeys.mpr ⟨⟨_,hs,rfl⟩,rfl,rfl⟩
  have hnodup : ((db.source.rows.filter (fun s => s.1.account=r.accountID &&
      s.1.minute=b.minuteUnix)).map (·.1)).Nodup :=
    (filter_sublist.map _).nodup (nodup_keys _)
  have hsub : ((db.source.rows.filter (fun s => s.1.account=r.accountID &&
      s.1.minute=b.minuteUnix)).map (·.1)).toFinset⊆
      (sourceKeys all r.accountID b.minuteUnix).erase (b.sourceKey r) := by
    intro k hk
    simp only [mem_toFinset,mem_map,mem_filter,Bool.and_eq_true,
      decide_eq_true_eq] at hk
    obtain ⟨⟨k',row⟩,⟨hrow,haccount⟩,rfl⟩ := hk
    have hlookup := mem_rows.mp hrow
    obtain ⟨t,ht,hgroup⟩ := h.stored k' row hlookup
    refine Finset.mem_erase.mpr ⟨?_,mem_sourceKeys.mpr ⟨⟨t,h.sub ht,hgroup⟩,haccount⟩⟩
    rintro rfl
    rw [hnone] at hlookup
    exact nomatch hlookup
  have hcard := Finset.card_le_card hsub
  rw [toFinset_card_of_nodup hnodup,length_map,Finset.card_erase_of_mem hkey] at hcard
  have hpos := Finset.card_pos.mpr ⟨_,hkey⟩
  unfold ActivityDB.sourceCount
  omega

theorem bytesSince_eq (h : comparableActivityCounters r.counts c=true) :
    c.bytes+r.bytesSince c=r.counts.bytes := by
  obtain ⟨hup,hdown,-⟩ := comparable_spec h
  simp only [counts] at hup hdown
  simp only [bytes,bytesSince,counts]
  omega

theorem bytes_current (hm : Mapped target (done++[b.snapshot r]))
    (h : (counterRow done (b.counterKey r)).seq≤b.sequence)
    (hc : comparableActivityCounters r.counts (counterRow done (b.counterKey r)).counts=true) :
    total bytes (done++[b.snapshot r]) (b.sourceKey r)=
      total bytes done (b.sourceKey r)+
        r.bytesSince (counterRow done (b.counterKey r)).counts := by
  have hmove : total bytes (done++[b.snapshot r]) (b.sourceKey r)+
      (counterRow done (b.counterKey r)).counts.bytes=
      total bytes done (b.sourceKey r)+r.counts.bytes := total_current rfl hm h
  have hsince := bytesSince_eq hc
  omega

theorem slice_current (hm : Mapped target (done++[s])) (h : (counterRow done s.counter).seq≤ s.seq)
    (hc : comparableActivityCounters s.value (counterRow done s.counter).counts=true) (i) :
    0<total (slice i) (done++[s]) s.group ↔
      0<total (slice i) done s.group ∨ s.value.bits.testBit i=true := by
  have hmove := total_current (f := slice i) (by simp [slice]) hm h
  have hle := slice_le hc i
  have hreached : s.value.slice i≤total (slice i) (done++[s]) s.group := by
    have := reached_le_total (f := slice i) (mem_append_right done
      (mem_singleton_self s))
    rwa [reached,current_snoc h] at this
  have hbit : s.value.bits.testBit i=true ↔ 0<s.value.slice i := by
    unfold slice
    split_ifs with hi <;> simp [hi]
  rw [hbit]
  omega

theorem Tallied.counter_current (h : Tallied all db done)
    (hcurrent : (counterRow done s.counter).seq≤ s.seq) (c) (hc : reclaimCutoff db.clock≤c.minute) :
    ((db.counter.insert s.counter ⟨s.seq,s.value⟩).lookup c).getD {}=counterRow (done++[s]) c := by
  by_cases hcounter : c=s.counter
  · rw [hcounter,AList.lookup_insert,counterRow,current_snoc hcurrent]
    rfl
  · rw [AList.lookup_insert_ne hcounter,counterRow,latest_snoc_ne hcounter]
    exact h.counter c hc

theorem Tallied.stored_snoc (h : Tallied all db done) (s) :
    ∀k row,db.source.lookup k=some row → ∃t∈done++[s],t.group=k := by
  intro k row hrow
  obtain ⟨t,ht,hgroup⟩ := h.stored k row hrow
  exact ⟨t,mem_append_left _ ht,hgroup⟩

section

variable (h : Tallied all db done) (hm : Mapped target all)
include h hm

theorem Tallied.record (hs : b.snapshot r∈all) (hlive : reclaimCutoff db.clock≤b.minuteUnix)
    (hcurrent : (counterRow done (b.counterKey r)).seq≤b.sequence)
    (hc : comparableActivityCounters r.counts (counterRow done (b.counterKey r)).counts=true) :
    Tallied all
      (let row := (db.sourceOf (b.sourceKey r)).add
        (r.bytesSince (counterRow done (b.counterKey r)).counts) r.activityBits
      {db.count b r with source := db.source.insert (b.sourceKey r) row}) (done++[b.snapshot r]) := by
  have hm' := hm.mono (snoc_sub h hs)
  have hbytes := bytes_current hm' hcurrent hc
  have hslice := slice_current hm' hcurrent hc
  refine ⟨snoc_sub h hs,h.counter_current (s := b.snapshot r) hcurrent,fun k hk hq => ?_,
    forall_insert (h.stored_snoc _) ⟨_,mem_append_right _ mem_cons_self,rfl⟩,
    h.exceeded⟩
  unfold ActivityDB.sourceOf
  rw [lookup_insert_eq]
  split_ifs with hkey
  · subst hkey
    obtain ⟨hold,hbits⟩ := h.source _ hlive hq
    refine ⟨?_,fun i => ?_⟩
    · change (db.sourceOf (b.sourceKey r)).bytes+r.bytesSince _=_
      rw [hbytes,← hold]
    change ((db.sourceOf (b.sourceKey r)).bits ||| r.activityBits).testBit i=true ↔ _
    rw [Nat.testBit_or,Bool.or_eq_true,hbits i]
    exact (hslice i).symm
  · simp only [total_snoc_ne hm' (Ne.symm hkey)]
    exact h.source k hk hq

theorem Tallied.drop (hasc : Ascending all)
    (hs : b.snapshot r∈all) (hlive : reclaimCutoff db.clock≤b.minuteUnix)
    (hcurrent : (counterRow done (b.counterKey r)).seq≤b.sequence)
    (hc : comparableActivityCounters r.counts (counterRow done (b.counterKey r)).counts=true)
    (hfull : db.source.lookup (b.sourceKey r)=none ∧ 32≤db.sourceCount r.accountID b.minuteUnix ∨
      maxInt64<(db.sourceOf (b.sourceKey r)).bytes+
        r.bytesSince (counterRow done (b.counterKey r)).counts) :
    Tallied all {db.count b r with quality := db.quality.insert (r.accountID,b.minuteUnix) ()}
      (done++[b.snapshot r]) := by
  have hsub := snoc_sub h hs
  have hm' := hm.mono hsub
  have hbytes := bytes_current hm' hcurrent hc
  refine ⟨hsub,h.counter_current (s := b.snapshot r) hcurrent,fun k hk hq => ?_,h.stored_snoc _,
    fun account minute hq hwithin => ?_⟩
  · rw [lookup_insert_eq] at hq
    split_ifs at hq with hkey
    have hne : b.sourceKey r≠k := by
      rintro rfl
      exact hkey rfl
    simp only [total_snoc_ne hm' hne]
    exact h.source k hk hq
  · rw [lookup_insert_eq] at hq
    split_ifs at hq with hkey
    · cases hkey
      cases hold : db.quality.lookup (r.accountID,b.minuteUnix) with
      | some u => exact h.exceeded _ _ (by rw [hold]; rfl) hwithin
      | none =>
        have hbefore := (h.source (b.sourceKey r) hlive hold).1
        rcases hfull with ⟨hnone,hcount⟩ | hover
        · have hlt := h.sourceCount_lt hs hnone
          have hlimit : (sourceKeys all r.accountID b.minuteUnix).card≤32 := hwithin.1
          omega
        have hle := total_mono hsub hasc.bytes (b.sourceKey r)
        have hrange := hwithin.2 (b.sourceKey r) (mem_sourceKeys.mpr ⟨⟨_,hs,rfl⟩,rfl,rfl⟩)
        omega
    · exact h.exceeded account minute hq hwithin

/-- Applying an item of a kept minute counts its snapshot, or records that a limit is exceeded. -/
theorem Tallied.applyItem (hasc : Ascending all) (hs : b.snapshot r∈all) (hpos : 0<b.sequence)
    (halign : b.clockState=.aligned) (hlive : reclaimCutoff db.clock≤b.minuteUnix)
    (happly : applyItem b db r=.ok db') : Tallied all db' (done++[b.snapshot r]) := by
  have hrow : db.counterOf b r=counterRow done (b.counterKey r) := h.counter _ hlive
  rcases applyItem_cases happly with ⟨hlt,rfl⟩ | ⟨hcurrent,hc,rfl⟩
  · rw [hrow] at hlt
    exact h.outdated hm hs hlt hpos
  rw [if_pos halign]
  rw [hrow] at hcurrent hc ⊢
  rcases recordSource_cases (db.count b r) b r
    (r.bytesSince (counterRow done (b.counterKey r)).counts) with ⟨hfull,heq⟩ | ⟨-,-,heq⟩
  · have hdrop := h.drop hm hasc hs hlive hcurrent hc hfull
    rw [heq]
    exact ⟨hdrop.sub,hdrop.counter,hdrop.source,hdrop.stored,hdrop.exceeded⟩
  have hrecord := h.record hm hs hlive hcurrent hc
  rw [heq]
  exact ⟨hrecord.sub,hrecord.counter,hrecord.source,hrecord.stored,hrecord.exceeded⟩

theorem Tallied.applyItems {items : List AccountActivityBatchItem} (hasc : Ascending all)
    (hs : ∀r∈items,b.snapshot r∈all) (hpos : 0<b.sequence) (halign : b.clockState=.aligned)
    (hlive : reclaimCutoff db.clock≤b.minuteUnix)
    (happly : items.foldlM (Activity.applyItem b) db=.ok db') :
    Tallied all db' (done++items.map b.snapshot) := by
  induction items generalizing db done with
  | nil =>
    cases happly
    rwa [map_nil,append_nil]
  | cons r items ih =>
    obtain ⟨db₁,hone,happly⟩ := bind_ok happly
    have hclock : db₁.clock=db.clock := by rw [applyItem_only hone]
    have hstep := h.applyItem hm hasc (hs r mem_cons_self) hpos halign hlive hone
    have hrest := ih hstep (fun r' hr' => hs r' (mem_cons_of_mem _ hr')) (hclock ▸ hlive) happly
    rwa [append_assoc] at hrest

end

end items

section steps

variable {all all' done : List (Snapshot SourceKey CounterKey Counts)}
  {db db' db'' : ActivityDB}

theorem reclaimCutoff_mono (h : t≤t') : reclaimCutoff t≤reclaimCutoff t' := by
  unfold reclaimCutoff
  have := Int.tmod_add_mul_tdiv t 60
  have := Int.tmod_add_mul_tdiv t' 60
  have := Int.tdiv_le_tdiv (c := 60) (by decide) h
  omega

theorem retentionCutoff_le : retentionCutoff now≤reclaimCutoff (unix now) := by
  unfold retentionCutoff reclaimCutoff
  rw [Int.tmod_eq_emod]
  split_ifs <;> omega

/-- A step that changes nothing in the minutes that are kept. -/
structure KeepsLive (db db' : ActivityDB) : Prop where
  clock : db.clock≤db'.clock
  counter : ∀c,reclaimCutoff db'.clock≤c.minute →
    (db'.counter.lookup c).getD {}=(db.counter.lookup c).getD {}
  source : ∀k,reclaimCutoff db'.clock≤k.minute → db'.source.lookup k=db.source.lookup k
  quality : ∀account minute,reclaimCutoff db'.clock≤ minute →
    db'.quality.lookup (account,minute)=db.quality.lookup (account,minute)
  stored : ∀k row,db'.source.lookup k=some row → db.source.lookup k=some row
  recorded : ∀key row,db'.quality.lookup key=some row → db.quality.lookup key=some row

theorem Tallied.keeps (h : Tallied all db done) (hk : KeepsLive db db') : Tallied all db' done := by
  have hcutoff := reclaimCutoff_mono hk.clock
  refine ⟨h.sub,fun c hc => ?_,fun k hlive hq => ?_,fun k row hrow => ?_,fun account minute hq => ?_⟩
  · rw [hk.counter c hc]
    exact h.counter c (hcutoff.trans hc)
  · rw [hk.quality _ _ hlive] at hq
    rw [ActivityDB.sourceOf,hk.source k hlive]
    exact h.source k (hcutoff.trans hlive) hq
  · exact h.stored k row (hk.stored k row hrow)
  · obtain ⟨u,hu⟩ := Option.isSome_iff_exists.mp hq
    exact h.exceeded account minute (by rw [hk.recorded _ u hu]; rfl)

theorem KeepsLive.trans (h : KeepsLive db db') (h' : KeepsLive db' db'') : KeepsLive db db'' := by
  have hcutoff := reclaimCutoff_mono h'.clock
  exact ⟨h.clock.trans h'.clock,
    fun c hc => (h'.counter c hc).trans (h.counter c (hcutoff.trans hc)),
    fun k hk => (h'.source k hk).trans (h.source k (hcutoff.trans hk)),
    fun a m hm => (h'.quality a m hm).trans (h.quality a m (hcutoff.trans hm)),
    fun k row hrow => h.stored k row (h'.stored k row hrow),
    fun key row hrow => h.recorded key row (h'.recorded key row hrow)⟩

theorem KeepsLive.of_same (hclock : db.clock≤db'.clock) (hcounter : db'.counter=db.counter)
    (hsource : db'.source=db.source) (hquality : db'.quality=db.quality) : KeepsLive db db' :=
  ⟨hclock,fun _ _ => by rw [hcounter],fun _ _ => by rw [hsource],fun _ _ _ => by rw [hquality],
    fun _ _ h => hsource ▸ h,fun _ _ h => hquality ▸ h⟩

theorem keepsLive_reclaim (h : clock≤db.clock) :
    KeepsLive db (reclaimActivityDirty env db clock) := by
  refine ⟨le_rfl,fun c hc => ?_,fun _ _ => rfl,fun _ _ _ => rfl,fun _ _ h => h,fun _ _ h => h⟩
  change ((db.counter.deleteLimited _ _ _).lookup c).getD {}=_
  rw [lookup_deleteLimited_of_not]
  intro row _
  have hlive : reclaimCutoff clock≤c.minute := (reclaimCutoff_mono h).trans hc
  simp only [Bool.and_eq_false_iff,decide_eq_false_iff_not,not_lt]
  exact .inl hlive

theorem keepsLive_deleteExpired (h : cutoff≤reclaimCutoff db.clock) :
    KeepsLive db (deleteExpired env db cutoff) := by
  refine ⟨le_rfl,fun _ _ => rfl,fun k hk => ?_,fun a m hm => ?_,
    fun _ _ h => lookup_of_deleteLimited h,fun _ _ h => lookup_of_deleteLimited h⟩
  · exact lookup_deleteLimited_of_not fun _ _ => decide_eq_false (not_lt.mpr (h.trans hk))
  · exact lookup_deleteLimited_of_not fun _ _ => decide_eq_false (not_lt.mpr (h.trans hm))

theorem keepsLive_finishBatch (h : unix now≤db.clock) (gap) :
    KeepsLive db (finishBatch env db b gap now) := by
  have htouch : KeepsLive db ((db.coverBatch b gap).touchExpected b) := by
    rw [touchExpected_only]
    exact .of_same le_rfl rfl rfl rfl
  have hclock : ((db.coverBatch b gap).touchExpected b).clock=db.clock := by
    rw [touchExpected_only]
    rfl
  have hpayload inbox :
      KeepsLive db {(db.coverBatch b gap).touchExpected b with inbox := inbox} :=
    htouch.trans (.of_same le_rfl rfl rfl rfl)
  refine ((hpayload _).trans (keepsLive_deleteExpired ?_)).trans (keepsLive_reclaim ?_)
  · rw [hclock]
    exact retentionCutoff_le.trans (reclaimCutoff_mono h)
  · change _≤((db.coverBatch b gap).touchExpected b).clock
    rwa [hclock]

theorem keepsLive_reserve
    (h : reserveActivityCapacity env db b db.clock=.ok room) : KeepsLive db room := by
  have hreclaim : KeepsLive db (reclaimActivityDirty env db db.clock) := keepsLive_reclaim le_rfl
  simp only [reserveActivityCapacity] at h
  split_ifs at h
  obtain ⟨checkpoint,-,h⟩ := bind_ok h
  cases h
  refine hreclaim.trans ⟨le_rfl,fun c _ => ?_,fun _ _ => rfl,fun _ _ _ => rfl,fun _ _ h => h,
    fun _ _ h => h⟩
  change (((b.items.map (fun r => (b.counterKey r,{}))).foldl Table.putNew
    (reclaimActivityDirty env db db.clock).counter).lookup c).getD {}=_
  rw [lookup_foldl_putNew]
  -- A reserved counter starts at zero, as one without a row does.
  cases hrow : (reclaimActivityDirty env db db.clock).counter.lookup c with
  | some row => rfl
  | none =>
    cases hnew : (b.items.map (fun r => (b.counterKey r,({} : CounterRow)))).lookup c with
    | none => rfl
    | some row =>
      obtain ⟨r,-,heq⟩ := mem_map.mp (mem_of_lookup hnew)
      cases heq
      rfl

theorem Tallied.stored_batch (h : Tallied all db done) (hsub : all⊆all') (hasc : Ascending all')
    (hs : Stored env db b stream room db') : Tallied all' db' done := by
  have hroom := h.keeps (keepsLive_reserve hs.reserved)
  obtain ⟨digest,gap,rfl⟩ := hs.result
  refine ⟨fun s hs => hsub (hroom.sub hs),hroom.counter,hroom.source,hroom.stored,
    fun account minute hq hwithin => ?_⟩
  exact hroom.exceeded account minute hq (withinLimits_anti hsub hasc hwithin.1 hwithin.2)

end steps

end Oboard.Activity
