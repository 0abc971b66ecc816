import Oboard.Activity.Admission

namespace Oboard.Activity

open Runs List Table AccountActivityBatch AList

section streams

variable {env : PipelineEnv} {db db' : ActivityDB} {b b' : AccountActivityBatch} {stream : StreamRow}

theorem admitStream_cases (h : admitStream env db b=.ok (stream,changed)) :
    (db.streams.lookup b.streamKey=none ∧ stream={boot := b.collectorBootID}) ∨
    ∃row generation,db.streams.lookup b.streamKey=some row ∧
      db.generation.lookup b.streamKey=some generation ∧
      ((row.boot=b.collectorBootID ∧ b.collectorStartedAt=generation ∧ stream=row) ∨
        (row.boot≠b.collectorBootID ∧ generation<b.collectorStartedAt ∧
          activityRetired env row.retired b.collectorBootID=false ∧
          stream=⟨b.collectorBootID,row.retired++env.bootBits row.boot,0,0⟩)) := by
  unfold admitStream at h
  split at h
  next hnone =>
    split at h
    · exact nomatch h
    · cases h
      exact .inl ⟨hnone,rfl⟩
  next row hrow =>
  split at h
  · exact nomatch h
  next generation hgeneration =>
  refine .inr ⟨row,generation,hrow,hgeneration,?_⟩
  split at h
  next hboot =>
    split at h
    · exact nomatch h
    next hstarted =>
    cases h
    exact .inl ⟨hboot,not_not.mp hstarted,rfl⟩
  next hboot =>
    split at h
    · exact nomatch h
    next hstarted =>
    split at h
    · exact nomatch h
    next hretired =>
    cases h
    exact .inr ⟨hboot,not_le.mp hstarted,Bool.not_eq_true _ ▸ hretired,rfl⟩

/-- Where an accepted batch stands: its boot is retired, or its sequence is behind the floor, or its
row is still in the inbox. -/
structure Placed (env : PipelineEnv) (db : ActivityDB) (b : AccountActivityBatch) (row : StreamRow)
    (generation : Int) : Prop where
  row_eq : db.streams.lookup b.streamKey=some row
  generation_eq : db.generation.lookup b.streamKey=some generation
  started : b.collectorStartedAt≤generation
  boot : b.collectorBootID=row.boot ↔ b.collectorStartedAt=generation
  retired : b.collectorBootID≠row.boot → activityRetired env row.retired b.collectorBootID=true
  seen : b.collectorBootID=row.boot →
    b.sequence≤row.floor ∨ (db.inbox.lookup b.inboxKey).isSome=true

/-- No batch of an older boot comes after one of a newer boot. -/
def InBootOrder (b b' : AccountActivityBatch) : Prop :=
  b.streamKey=b'.streamKey → b.collectorStartedAt≤b'.collectorStartedAt ∧
    (b.collectorBootID=b'.collectorBootID ↔ b.collectorStartedAt=b'.collectorStartedAt)

variable {row : StreamRow} {generation : Int} {room : ActivityDB}

section

variable (h : Placed env db b' row generation)
include h

theorem Placed.continues
    (hs : Stored env db b stream room db') (hstream : b'.streamKey=b.streamKey) :
    (row.boot=b.collectorBootID ∧ b.collectorStartedAt=generation ∧ stream=row) ∨
      (row.boot≠b.collectorBootID ∧ generation<b.collectorStartedAt ∧
        activityRetired env row.retired b.collectorBootID=false ∧
        stream=⟨b.collectorBootID,row.retired++env.bootBits row.boot,0,0⟩) := by
  obtain ⟨changed,hadmitted⟩ := hs.admitted
  rcases admitStream_cases hadmitted with ⟨hnone,-⟩ | ⟨row',generation',hrow,hgeneration,hcont⟩
  · rw [← hstream,h.row_eq] at hnone
    exact nomatch hnone
  rw [← hstream,h.row_eq] at hrow
  rw [← hstream,h.generation_eq] at hgeneration
  cases hrow
  cases hgeneration
  exact hcont

theorem Placed.boot_ne (hboot : row.boot≠b.collectorBootID)
    (hretired : activityRetired env row.retired b.collectorBootID=false) :
    b'.collectorBootID≠b.collectorBootID := by
  intro heq
  by_cases hcurrent : b'.collectorBootID=row.boot
  · exact hboot (hcurrent.symm.trans heq)
  have := h.retired hcurrent
  rw [heq,hretired] at this
  exact nomatch this

theorem Placed.apart (hs : Stored env db b stream room db') :
    InBootOrder b' b ∧ b'.inboxKey≠b.inboxKey := by
  have hkey (heq : b'.inboxKey=b.inboxKey) : b'.streamKey=b.streamKey ∧
      b'.collectorBootID=b.collectorBootID ∧ b'.sequence=b.sequence := by
    simp only [inboxKey,InboxKey.mk.injEq] at heq
    simp only [streamKey,heq,and_self]
  by_cases hstream : b'.streamKey=b.streamKey
  swap
  · exact ⟨fun heq => absurd heq hstream,fun heq => hstream (hkey heq).1⟩
  rcases h.continues hs hstream with ⟨hboot,hstarted,rfl⟩ | ⟨hboot,hstarted,hretired,-⟩
  · refine ⟨fun _ => ?_,fun heq => ?_⟩
    · rw [hstarted,← hboot]
      exact ⟨h.started,h.boot⟩
    obtain ⟨-,hsame,hseq⟩ := hkey heq
    have hfloor := hs.floor
    rcases h.seen (hsame.trans hboot.symm) with hbehind | hrow
    · omega
    · rw [heq,hs.fresh] at hrow
      exact nomatch hrow
  · have hne := h.boot_ne hboot hretired
    refine ⟨fun _ => ⟨h.started.trans hstarted.le,iff_of_false hne ?_⟩,fun heq => hne (hkey heq).2.1⟩
    exact (lt_of_le_of_lt h.started hstarted).ne

end

theorem inbox_storeBatch (h : (db.inbox.lookup key).isSome=true)
    (hkept : (key.server,key.stream)=b.streamKey →
      key.boot=b.collectorBootID ∧ stream.floor<key.seq) :
    ((storeBatch db b stream digest gap).inbox.lookup key).isSome=true := by
  simp only [storeBatch]
  rw [lookup_insert_eq]
  split_ifs with hkey
  · rfl
  rw [lookup_deleteRows]
  obtain ⟨row,hrow⟩ := Option.isSome_iff_exists.mp h
  rw [hrow,Option.filter_some]
  rw [if_pos]
  · rfl
  simp only [Bool.not_eq_true',Bool.and_eq_false_iff,decide_eq_false_iff_not,Bool.or_eq_false_iff]
  by_cases hserver : key.server=b.serverID
  · by_cases hstream : key.stream=b.streamType
    · obtain ⟨hboot,hseq⟩ := hkept (by rw [streamKey,hserver,hstream])
      exact .inr ⟨not_not.mpr hboot,not_le.mpr hseq⟩
    · exact .inl (.inl (.inr hstream))
  · exact .inl (.inl (.inl hserver))

theorem Placed.stored (h : Placed env db b' row generation) (hs : Stored env db b stream room db') :
    ∃row' generation',Placed env db' b' row' generation' := by
  have hroom := reserve_only hs.reserved
  obtain ⟨digest,gap,rfl⟩ := hs.result
  by_cases hstream : b'.streamKey=b.streamKey
  swap
  · refine ⟨row,generation,?_,?_,h.started,h.boot,h.retired,fun hboot => ?_⟩
    · rw [hroom]
      exact (lookup_insert_ne hstream).trans h.row_eq
    · rw [hroom]
      exact (lookup_insert_ne hstream).trans h.generation_eq
    · refine (h.seen hboot).imp id fun hrow => inbox_storeBatch ?_ fun heq => absurd heq hstream
      rw [hroom]
      exact hrow
  have hinsert {ρ : Type} (t : Table StreamKey ρ) (row : ρ) :
      (t.insert b.streamKey row).lookup b'.streamKey=some row := by
    rw [hstream]
    exact lookup_insert t
  rcases h.continues hs hstream with ⟨hboot,hstarted,rfl⟩ | ⟨hboot,hstarted,hretired,rfl⟩
  · refine ⟨_,_,hinsert _ _,hinsert _ _,hstarted ▸ h.started,hstarted ▸ h.boot,h.retired,
      fun hcurrent => ?_⟩
    by_cases hbehind : b'.sequence≤ max stream.floor (max stream.high b.sequence-4096)
    · exact .inl hbehind
    refine (h.seen hcurrent).imp (·.trans (le_max_left _ _)) fun hrow =>
      inbox_storeBatch ?_ fun _ => ⟨hcurrent.trans hboot,not_le.mp hbehind⟩
    rw [hroom]
    exact hrow
  · have hne := h.boot_ne hboot hretired
    refine ⟨_,_,hinsert _ _,hinsert _ _,h.started.trans hstarted.le,
      iff_of_false hne (lt_of_le_of_lt h.started hstarted).ne,fun _ => ?_,fun heq => absurd heq hne⟩
    simp only [activityRetired,all_eq_true,contains_iff_mem]
    by_cases hcurrent : b'.collectorBootID=row.boot
    · rw [hcurrent]
      exact fun bit hbit => mem_append_right _ hbit
    have hretired := h.retired hcurrent
    simp only [activityRetired,all_eq_true,contains_iff_mem] at hretired
    exact fun bit hbit => mem_append_left _ (hretired bit hbit)

theorem placed_stored (hs : Stored env db b stream room db') :
    ∃row generation,Placed env db' b row generation := by
  obtain ⟨changed,hadmitted⟩ := hs.admitted
  have hboot : b.collectorBootID=stream.boot := by
    rcases admitStream_cases hadmitted with
      ⟨-,rfl⟩ | ⟨row,generation,-,-,⟨hboot,-,rfl⟩ | ⟨-,-,-,rfl⟩⟩
    · rfl
    · exact hboot.symm
    · rfl
  obtain ⟨digest,gap,rfl⟩ := hs.result
  refine ⟨_,_,lookup_insert _,lookup_insert _,le_rfl,iff_of_true hboot rfl,
    fun hne => absurd hboot hne,fun _ => .inr ?_⟩
  simp only [storeBatch]
  rw [lookup_insert]
  rfl

end streams

section runs

variable {env : PipelineEnv} {db db' : ActivityDB} {log : List PipelineEvent}
  {b : AccountActivityBatch}

/-- Every batch is accepted once, in the order of the boots. -/
structure Sequenced (env : PipelineEnv) (db : ActivityDB) (log : List PipelineEvent) : Prop where
  once : ((accepted log).map (·.inboxKey)).Nodup
  boots : (accepted log).Pairwise InBootOrder
  placed : ∀b∈accepted log,∃row generation,Placed env db b row generation

/-- A step that keeps the streams and drops no row of the inbox. -/
structure KeepsPlaces (db db' : ActivityDB) : Prop where
  streams : db'.streams=db.streams
  generation : db'.generation=db.generation
  inbox : ∀key,(db.inbox.lookup key).isSome=true → (db'.inbox.lookup key).isSome=true

theorem Placed.keeps (h : Placed env db b row generation)
    (hk : KeepsPlaces db db') : Placed env db' b row generation :=
  ⟨hk.streams ▸ h.row_eq,hk.generation ▸ h.generation_eq,h.started,h.boot,h.retired,
    fun hboot => (h.seen hboot).imp id (hk.inbox _)⟩

theorem Sequenced.keeps (h : Sequenced env db log) (hk : KeepsPlaces db db') :
    Sequenced env db' log := by
  refine ⟨h.once,h.boots,fun b hb => ?_⟩
  obtain ⟨row,generation,hplaced⟩ := h.placed b hb
  exact ⟨row,generation,hplaced.keeps hk⟩

theorem Sequenced.congr (h : Sequenced env db log)
    (hlog : accepted log'=accepted log) : Sequenced env db log' :=
  ⟨hlog ▸ h.once,hlog ▸ h.boots,hlog ▸ h.placed⟩

theorem Sequenced.stored {stream : StreamRow} {room : ActivityDB} (h : Sequenced env db log)
    (hs : Stored env db b stream room db') : Sequenced env db' (log++[.accepted b]) := by
  have hsnoc : accepted (log++[.accepted b])=accepted log++[b] := accepted_append
  have hapart : ∀b'∈accepted log,InBootOrder b' b ∧ b'.inboxKey≠b.inboxKey := by
    intro b' hb'
    obtain ⟨row,generation,hplaced⟩ := h.placed b' hb'
    exact hplaced.apart hs
  refine ⟨?_,?_,?_⟩
  · rw [hsnoc,map_append,nodup_append]
    refine ⟨h.once,nodup_singleton _,fun key hkey key' hkey' heq => ?_⟩
    obtain ⟨b',hb',rfl⟩ := mem_map.mp hkey
    cases mem_singleton.mp hkey'
    exact (hapart b' hb').2 heq
  · rw [hsnoc,pairwise_append]
    refine ⟨h.boots,pairwise_singleton _ _,fun b' hb' b'' hb'' => ?_⟩
    cases mem_singleton.mp hb''
    exact (hapart b' hb').1
  · rw [hsnoc]
    intro b' hb'
    rcases mem_append.mp hb' with hb' | hb'
    · obtain ⟨row,generation,hplaced⟩ := h.placed b' hb'
      exact hplaced.stored hs
    · cases mem_singleton.mp hb'
      exact placed_stored hs

theorem keepsPlaces_finishBatch {items : ActivityDB}
    (hitems : b.items.foldlM (applyItem b) (db.tick now)=.ok items) :
    KeepsPlaces db (finishBatch env items b gap now) := by
  rw [finishBatch_only,applyItems_only hitems]
  refine ⟨rfl,rfl,fun key hkey => ?_⟩
  change ((db.inbox.modify _ _).lookup key).isSome=true
  rw [lookup_modify]
  split_ifs with hsame
  · rwa [Option.isSome_map,← hsame]
  · exact hkey

theorem Sequenced.step (h : Sequenced env db log) (move) :
    Sequenced env (pipelineStep env db move).1 (log++(pipelineStep env db move).2) := by
  have hsame : Sequenced env db (log++[]) := by rwa [append_nil]
  have hturn := pipelineStep_turn env db move
  generalize pipelineStep env db move=result at hturn ⊢
  cases hturn with
  | failed => exact hsame
  | ticked => exact hsame.keeps ⟨rfl,rfl,fun _ h => h⟩
  | @stored raw b now stream room db' hb hraw hs =>
    have hticked : KeepsPlaces db (db.tick now) := ⟨rfl,rfl,fun _ h => h⟩
    exact (h.keeps hticked).stored hs
  | applied hnext hb hitems =>
    refine (h.keeps (keepsPlaces_finishBatch hitems)).congr ?_
    rw [accepted_append]
    exact append_nil _
  | expected hsave =>
    refine hsame.keeps ?_
    rw [saveAccountActivityExpected_only hsave]
    exact ⟨rfl,rfl,fun _ h => h⟩
  | cleaned => exact hsame.keeps ⟨rfl,rfl,fun _ h => h⟩

theorem sequenced_empty : Sequenced env {} [] :=
  ⟨nodup_nil,List.Pairwise.nil,fun _ => nofun⟩

end runs

end Oboard.Activity
