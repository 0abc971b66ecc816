import Mathlib.Data.List.Sort
import Mathlib.Data.Prod.Lex
import Mathlib.Data.String.Basic
import Oboard.Framework.GoText
import Oboard.Framework.Runs
import Oboard.Framework.Table

namespace Oboard.Activity

open Runs

inductive StreamType where
  | kernel
  | ssh
  | other
  deriving DecidableEq

def StreamType.rank : StreamType → Nat
  | .kernel => 0
  | .ssh => 1
  | .other => 2

inductive ClockState where
  | aligned
  | unaligned
  | unknown
  | other
  deriving DecidableEq

inductive ActivityError where
  | invalid
  | expired
  | conflict
  | capacity
  /-- A row is missing or a key is taken. -/
  | constraint

/-- What one counter has seen within its minute: bytes, and the slices with activity as bits. -/
structure Counts where
  up : Nat := 0
  down : Nat := 0
  bits : Nat := 0

structure AccountActivityBatchItem where
  accountID : Int
  inboundID : Int
  pathID : Int := 0
  sourceGroup : String
  counterSource : String := ""
  activityBits : Nat
  uploadBytes : Nat
  downloadBytes : Nat := 0

/-- The raw source that the counter is kept for. -/
def AccountActivityBatchItem.counted (r : AccountActivityBatchItem) : String :=
  if r.counterSource≠"" then r.counterSource else r.sourceGroup

def AccountActivityBatchItem.counts (r : AccountActivityBatchItem) : Counts :=
  ⟨r.uploadBytes,r.downloadBytes,r.activityBits⟩

structure AccountActivityBatch where
  /-- The zero digest stands for none. -/
  receiptDigest : Option String := none
  serverID : Int
  collectorBootID : String
  collectorStartedAt : Int
  streamType : StreamType := .kernel
  sequence : Int
  minuteUnix : Int
  sourceVersion : String
  clockState : ClockState := .aligned
  complete : Bool := true
  droppedUpdates : Nat := 0
  unknownSourceUpdates : Nat := 0
  items : List AccountActivityBatchItem

structure AccountActivityBatchReceipt where
  accepted : Bool
  duplicate : Bool := false
  sequence : Int

structure AccountActivityExpected where
  accountID : Int
  serverID : Int
  streamType : StreamType
  minuteUnix : Int
  capabilitySupported : Bool

structure CounterKey where
  server : Int
  stream : StreamType
  boot : String
  minute : Int
  account : Int
  inbound : Int
  path : Int
  source : String
  version : String
  deriving DecidableEq

structure CounterRow where
  seq : Int := 0
  counts : Counts := {}

structure SourceKey where
  account : Int
  minute : Int
  version : String
  source : String
  deriving DecidableEq

structure SourceRow where
  bytes : Nat
  bits : Nat
  deriving DecidableEq

def SourceRow.add (row : SourceRow) (bytes bits : Nat) : SourceRow :=
  ⟨row.bytes+bytes,row.bits ||| bits⟩

abbrev StreamKey := Int×StreamType

/-- The retired boots are kept as the set bits of a filter. -/
structure StreamRow where
  boot : String
  retired : List Nat := []
  high : Int := 0
  floor : Int := 0

structure InboxKey where
  server : Int
  stream : StreamType
  boot : String
  seq : Int
  deriving DecidableEq

structure InboxRow where
  minute : Int
  digest : String
  /-- The batch, until it has been applied. -/
  payload : Option AccountActivityBatch
  gap : Bool

structure ExpectedKey where
  account : Int
  server : Int
  stream : StreamType
  minute : Int
  deriving DecidableEq

structure CoverageKey where
  server : Int
  stream : StreamType
  minute : Int
  version : String
  deriving DecidableEq

structure CoverageRow where
  complete : Bool
  aligned : Bool

structure DirtyRow where
  revision : Nat
  evaluated : Nat := 0

structure BaselineKey where
  account : Int
  day : Int
  policy : String
  version : String

structure BaselineDay where
  histogram : Fin 33 → Nat
  overflow : Bool := false

structure ActivityDB where
  clock : Int := 0
  generation : Table StreamKey Int := ∅
  streams : Table StreamKey StreamRow := ∅
  inbox : Table InboxKey InboxRow := ∅
  counter : Table CounterKey CounterRow := ∅
  checkpoint : Table (CounterKey×Int) Counts := ∅
  source : Table SourceKey SourceRow := ∅
  /-- Whether the collector supports the capability. -/
  expected : Table ExpectedKey Bool := ∅
  coverage : Table CoverageKey CoverageRow := ∅
  /-- The minutes of accounts for which an overflow was recorded. -/
  quality : Table (Int×Int) Unit := ∅
  dirty : Table Int DirtyRow := ∅
  baseline : Table BaselineKey BaselineDay := ∅

/-- What comes from outside: the length and the digest of an encoded batch, the four filter positions
of a boot, and the order in which a query without `order by` finds rows. -/
structure PipelineEnv where
  payloadSize : AccountActivityBatch → Nat
  payloadDigest : AccountActivityBatch → String
  bootBits : String → List Nat
  order : ∀{α : Type},List α → List α

def maxInt64 : Nat := 9223372036854775807

section batches

def isLowerHex (c : Char) : Bool := ('0' ≤ c && c ≤ '9') || ('a' ≤ c && c ≤ 'f')

def activityHex (s : String) (size : Nat) : Bool := s.toList.length=2*size && s.toList.all isLowerHex

def AccountActivityBatchItem.key (r : AccountActivityBatchItem) : Int ×ₗ Int ×ₗ Int ×ₗ String :=
  toLex (r.accountID,toLex (r.inboundID,toLex (r.pathID,r.counted)))

def AccountActivityBatchItem.valid (r : AccountActivityBatchItem) : Bool :=
  0<r.accountID && 0<r.inboundID && 0≤r.pathID && activityHex r.sourceGroup 32 &&
  activityHex r.counted 32 && r.activityBits≤4095 && r.uploadBytes≤ maxInt64 &&
  r.downloadBytes≤ maxInt64-r.uploadBytes && ((r.uploadBytes+r.downloadBytes=0)==(r.activityBits=0))

def validItems : List AccountActivityBatchItem → Bool
  | [] => true
  | [r] => r.valid
  | p::r::rest => p.valid && p.key≠r.key && validItems (r::rest)

section

variable (b : AccountActivityBatch)

def AccountActivityBatch.headerValid : Bool :=
  0<b.collectorStartedAt && 0<b.serverID && activityHex b.collectorBootID 16 &&
  b.streamType≠.other && 0<b.sequence && 0<b.minuteUnix && b.minuteUnix%60=0 &&
  b.sourceVersion≠"" && b.sourceVersion.utf8ByteSize≤128 && b.clockState≠.other &&
  b.items.length≤4096

def validateActivityBatch : Except ActivityError AccountActivityBatch :=
  let sorted := b.items.insertionSort (fun a c => a.key≤c.key)
  if b.headerValid && validItems sorted then .ok {b with items := sorted} else .error .invalid

def AccountActivityBatch.counterKey (r : AccountActivityBatchItem) : CounterKey :=
  ⟨b.serverID,b.streamType,b.collectorBootID,b.minuteUnix,r.accountID,r.inboundID,r.pathID,r.counted,
    b.sourceVersion⟩

def AccountActivityBatch.sourceKey (r : AccountActivityBatchItem) : SourceKey :=
  ⟨r.accountID,b.minuteUnix,b.sourceVersion,r.sourceGroup⟩

def AccountActivityBatch.inboxKey : InboxKey :=
  ⟨b.serverID,b.streamType,b.collectorBootID,b.sequence⟩

def AccountActivityBatch.streamKey : StreamKey := (b.serverID,b.streamType)

end

def comparableActivityCounters (newer older : Counts) : Bool :=
  older.up≤newer.up && older.down≤newer.down && newer.bits &&& older.bits=older.bits

end batches

section retention

def unix (now : Int) : Int := now/1000000000

/-- The stored clock never runs backwards. -/
def ActivityDB.tick (db : ActivityDB) (now : Int) : ActivityDB :=
  {db with clock := max db.clock (unix now)}

variable (env : PipelineEnv)

/-- Rows are deleted in portions of 500. -/
def deletePortion {κ ρ : Type} [DecidableEq κ] (p : κ → ρ → Bool) (t : Table κ ρ) : Table κ ρ :=
  t.deleteLimited env.order 500 p

/-- The first minute that is kept, as computed from an instant in seconds. -/
def reclaimCutoff (clock : Int) : Int := clock-clock.tmod 60-1920

def retentionCutoff (now : Int) : Int := unix now-unix now%60-1920

section

variable (db : ActivityDB)

def ActivityDB.hasPending (k : CounterKey) : Bool :=
  db.inbox.rows.any (fun i => i.1.server=k.server && i.1.stream=k.stream && i.1.boot=k.boot &&
    i.2.minute=k.minute && i.2.payload.isSome)

def reclaimActivityDirty (clock : Int) : ActivityDB :=
  let cutoff := reclaimCutoff clock
  let counter := deletePortion env (fun k _ => k.minute<cutoff && !db.hasPending k) db.counter
  let idle (account : Int) (d : DirtyRow) : Bool := d.revision=d.evaluated &&
    !counter.rows.any (·.1.account=account) && !db.expected.rows.any (·.1.account=account) &&
    !db.source.rows.any (fun s => s.1.account=account && cutoff≤ s.1.minute)
  {db with counter := counter,dirty := deletePortion env idle db.dirty}

def deleteExpired (cutoff : Int) : ActivityDB :=
  {db with
    source := deletePortion env (fun k _ => k.minute<cutoff) db.source
    expected := deletePortion env (fun k _ => k.minute<cutoff) db.expected
    coverage := deletePortion env (fun k _ => k.minute<cutoff) db.coverage
    quality := deletePortion env (fun k _ => k.2<cutoff) db.quality}

def deleteCheckpoints (cutoff : Int) : ActivityDB :=
  {db with checkpoint := deletePortion env (fun k _ => k.1.minute<cutoff) db.checkpoint}

def cleanupAccountActivityPipeline (at_ : Int) : ActivityDB :=
  reclaimActivityDirty env
    (deleteCheckpoints env (deleteExpired env db (retentionCutoff at_)) (unix at_-180)) (unix at_)

end

end retention

section receive

variable (env : PipelineEnv)

/-- Every checkpoint of a counter is comparable with the snapshot that the batch brings. -/
def validateActivityCumulative (db : ActivityDB) (b : AccountActivityBatch) : Bool :=
  b.items.all fun r => db.checkpoint.rows.all fun c =>
    c.1.1≠b.counterKey r || (if b.sequence<c.1.2 then comparableActivityCounters c.2 r.counts
      else comparableActivityCounters r.counts c.2)

def reserveCounters (db : ActivityDB) (b : AccountActivityBatch) : ActivityDB :=
  {db with
    counter :=
      (b.items.map (fun r => (b.counterKey r,({} : CounterRow)))).foldl Table.putNew db.counter
    dirty := (b.items.map (fun r => (r.accountID,(⟨0,0⟩ : DirtyRow)))).foldl Table.putNew db.dirty}

def insertCheckpoint (b : AccountActivityBatch) (t : Table (CounterKey×Int) Counts)
    (r : AccountActivityBatchItem) : Except ActivityError (Table (CounterKey×Int) Counts) :=
  if (t.lookup (b.counterKey r,b.sequence)).isSome then .error .constraint
  else .ok (t.insert (b.counterKey r,b.sequence) r.counts)

def reserveActivityCapacity (db : ActivityDB) (b : AccountActivityBatch) (clock : Int) :
    Except ActivityError ActivityDB := do
  let db := deleteCheckpoints env (reclaimActivityDirty env db clock) (clock-180)
  let db := reserveCounters db b
  if 1048576<db.counter.rows.length ∨ 1048576<db.checkpoint.rows.length+b.items.length ∨
      65536<db.dirty.rows.length then .error .capacity
  else if !validateActivityCumulative db b then .error .conflict
  else
    let checkpoint ← b.items.foldlM (insertCheckpoint b) db.checkpoint
    .ok {db with checkpoint := checkpoint}

def activityRetired (retired : List Nat) (boot : String) : Bool :=
  (env.bootBits boot).all retired.contains

section

variable (db : ActivityDB)

/-- The stream that a batch continues, and whether it starts a boot. -/
def admitStream (b : AccountActivityBatch) : Except ActivityError (StreamRow×Bool) :=
  match db.streams.lookup b.streamKey with
  | none =>
    if 8192≤db.streams.rows.length then .error .capacity
    else .ok ({boot := b.collectorBootID},true)
  | some row => match db.generation.lookup b.streamKey with
    | none => .error .constraint
    | some generation =>
      if row.boot=b.collectorBootID then
        if b.collectorStartedAt≠generation then .error .conflict else .ok (row,false)
      else if b.collectorStartedAt≤generation then .error .conflict
      else if activityRetired env row.retired b.collectorBootID then .error .conflict
      else .ok (⟨b.collectorBootID,row.retired++env.bootBits row.boot,0,0⟩,true)

def ActivityDB.pending : List (InboxKey×InboxRow) :=
  db.inbox.rows.filter (·.2.payload.isSome)

def inboxFull (b : AccountActivityBatch) : Bool :=
  4096≤db.pending.length || 256≤(db.pending.filter (·.1.server=b.serverID)).length ||
    67108864<(db.pending.map (fun i => i.2.payload.elim 0 env.payloadSize)).sum+env.payloadSize b

/-- The row of a new batch goes in, and applied rows that can no longer be needed go out. -/
def storeBatch (b : AccountActivityBatch) (stream : StreamRow) (digest : String)
    (gap : Bool) : ActivityDB :=
  let purged := db.inbox.deleteRows (fun k row => k.server=b.serverID && k.stream=b.streamType &&
    row.payload.isNone && (k.boot≠b.collectorBootID || k.seq≤ stream.floor))
  {db with
    generation := db.generation.insert b.streamKey b.collectorStartedAt
    streams := db.streams.insert b.streamKey stream
    inbox := purged.insert b.inboxKey ⟨b.minuteUnix,digest,some b,gap⟩}

def receiveAccountActivityBatch (batch : AccountActivityBatch) (now : Int) :
    Except ActivityError (ActivityDB×AccountActivityBatchReceipt) := do
  let batch ← validateActivityBatch batch
  let b := {batch with receiptDigest := none}
  let digest := batch.receiptDigest.getD (env.payloadDigest b)
  let db := db.tick now
  if now+30000000000<b.collectorStartedAt then .error .invalid
  else if 1048576<env.payloadSize b then .error .capacity
  else match db.inbox.lookup b.inboxKey with
    | some row =>
      if row.digest≠digest then .error .conflict else .ok (db,⟨true,true,b.sequence⟩)
    | none =>
      if db.clock-60<b.minuteUnix ∨ b.minuteUnix<db.clock-180 then .error .expired
      else if inboxFull env db b then .error .capacity
      else
        let (stream,changed) ← admitStream env db b
        if b.sequence≤ stream.floor then .error .expired
        else
          let db ← reserveActivityCapacity env db b db.clock
          let gap := changed || stream.high+1<b.sequence
          let high := max stream.high b.sequence
          let stream := {stream with high := high,floor := max stream.floor (high-4096)}
          .ok (storeBatch db b stream digest gap,⟨true,false,b.sequence⟩)

end

end receive

section apply

variable (env : PipelineEnv)

def touchAccount (db : ActivityDB) (account : Int) : ActivityDB :=
  let row := (db.dirty.lookup account).elim ⟨1,0⟩ (fun d => {d with revision := d.revision+1})
  {db with dirty := db.dirty.insert account row}

def ActivityDB.sourceCount (db : ActivityDB) (account minute : Int) : Nat :=
  (db.source.rows.filter (fun s => s.1.account=account && s.1.minute=minute)).length

/-- Activity beyond 32 sources in a minute or beyond the range of a byte count is only recorded as
missing. -/
def recordSource (db : ActivityDB) (b : AccountActivityBatch) (r : AccountActivityBatchItem)
    (delta : Nat) : ActivityDB :=
  let stored := db.source.lookup (b.sourceKey r)
  let saved := stored.elim 0 (·.bytes)
  if (stored.isNone && 32≤db.sourceCount r.accountID b.minuteUnix) || maxInt64<saved+delta then
    {db with quality := db.quality.insert (r.accountID,b.minuteUnix) ()}
  else
    let row : SourceRow := ⟨saved+delta,stored.elim 0 (·.bits) ||| r.activityBits⟩
    {db with source := db.source.insert (b.sourceKey r) row}

def applyItem (b : AccountActivityBatch) (db : ActivityDB) (r : AccountActivityBatchItem) :
    Except ActivityError ActivityDB :=
  let c := (db.counter.lookup (b.counterKey r)).getD {}
  if b.sequence<c.seq then
    if !comparableActivityCounters c.counts r.counts then .error .conflict else .ok db
  else if !comparableActivityCounters r.counts c.counts then .error .conflict
  else
    let delta := r.uploadBytes-c.counts.up+(r.downloadBytes-c.counts.down)
    let db := {db with counter := db.counter.insert (b.counterKey r) ⟨b.sequence,r.counts⟩}
    let db := if b.clockState=.aligned then recordSource db b r delta else db
    .ok (touchAccount db r.accountID)

def ActivityDB.coverBatch (db : ActivityDB) (b : AccountActivityBatch) (gap : Bool) : ActivityDB :=
  let aligned : Bool := b.clockState=.aligned
  let complete := b.complete && aligned && !gap && b.droppedUpdates=0 && b.unknownSourceUpdates=0
  let key : CoverageKey := ⟨b.serverID,b.streamType,b.minuteUnix,b.sourceVersion⟩
  let row := (db.coverage.lookup key).elim (⟨complete,aligned⟩ : CoverageRow)
    (fun c => ⟨c.complete && complete,c.aligned && aligned⟩)
  {db with coverage := db.coverage.insert key row}

def ActivityDB.touchExpected (db : ActivityDB) (b : AccountActivityBatch) : ActivityDB :=
  let accounts := (db.expected.rows.filter (fun e => e.1.server=b.serverID &&
    e.1.stream=b.streamType && e.1.minute=b.minuteUnix)).map (·.1.account)
  accounts.dedup.foldl touchAccount db

/-- The oldest batch comes first. -/
def InboxRow.rank (i : InboxKey×InboxRow) : Int ×ₗ Int ×ₗ Nat ×ₗ Int :=
  toLex (i.2.minute,toLex (i.1.server,toLex (i.1.stream.rank,i.1.seq)))

def ActivityDB.nextPending (db : ActivityDB) : Option (InboxKey×InboxRow) :=
  (db.pending.insertionSort (fun i j => InboxRow.rank i≤InboxRow.rank j)).head?

/-- Everything that applying a batch does after its items. -/
def finishBatch (db : ActivityDB) (b : AccountActivityBatch) (gap : Bool) (now : Int) : ActivityDB :=
  let db := (db.coverBatch b gap).touchExpected b
  let db := {db with inbox := db.inbox.modify b.inboxKey (fun row => {row with payload := none})}
  reclaimActivityDirty env (deleteExpired env db (retentionCutoff now)) (unix now)

def applyAccountActivityBatch (db : ActivityDB) (now : Int) :
    Except ActivityError (ActivityDB×Option AccountActivityBatch) := do
  let db := db.tick now
  match db.nextPending with
  | none => .ok (db,none)
  | some (_,row) => match row.payload with
    | none => .ok (db,none)
    | some b =>
      let applied ← b.items.foldlM (applyItem b) db
      .ok (finishBatch env applied b row.gap now,some b)

end apply

section expected

variable (env : PipelineEnv)

def saveExpected (now : Int) (db : ActivityDB) (e : AccountActivityExpected) :
    Except ActivityError ActivityDB :=
  if e.accountID≤0 ∨ e.serverID≤0 ∨ e.streamType=.other ∨ e.minuteUnix%60≠0 ∨
      e.minuteUnix<unix now-1920 ∨ unix now<e.minuteUnix then .error .invalid
  else
    let key : ExpectedKey := ⟨e.accountID,e.serverID,e.streamType,e.minuteUnix⟩
    let capable := (db.expected.lookup key).elim e.capabilitySupported (· && e.capabilitySupported)
    .ok (touchAccount {db with expected := db.expected.insert key capable} e.accountID)

def saveAccountActivityExpected (db : ActivityDB) (expected : List AccountActivityExpected)
    (now : Int) : Except ActivityError ActivityDB := do
  if 16384<expected.length then .error .capacity
  else
    let old := db.expected.deleteRows (fun k _ => k.minute<retentionCutoff now)
    let db := reclaimActivityDirty env {db.tick now with expected := old} (unix now)
    let db ← expected.foldlM (saveExpected now) db
    if 1048576<db.expected.rows.length ∨ 65536<db.dirty.rows.length then .error .capacity
    else .ok db

end expected

section runs

inductive PipelineMove where
  | receive (batch : AccountActivityBatch) (now : Int)
  | apply (now : Int)
  | expect (expected : List AccountActivityExpected) (now : Int)
  | cleanup (at_ : Int)

inductive PipelineEvent where
  | accepted (batch : AccountActivityBatch)
  | applied (batch : AccountActivityBatch)

section

variable (env : PipelineEnv) (db : ActivityDB)

def receiveMove (batch : AccountActivityBatch) (now : Int) :
    Except ActivityError (ActivityDB×List PipelineEvent) := do
  let b ← validateActivityBatch batch
  let result ← receiveAccountActivityBatch env db batch now
  .ok (result.1,if result.2.duplicate then [] else [.accepted {b with receiptDigest := none}])

def applyMove (now : Int) : Except ActivityError (ActivityDB×List PipelineEvent) := do
  let result ← applyAccountActivityBatch env db now
  .ok (result.1,(result.2.map .applied).toList)

def expectMove (expected : List AccountActivityExpected)
    (now : Int) : Except ActivityError (ActivityDB×List PipelineEvent) := do
  let db ← saveAccountActivityExpected env db expected now
  .ok (db,[])

/-- Every call is a transaction: one that fails leaves everything as it was. -/
def pipelineStep : PipelineMove → ActivityDB×List PipelineEvent
  | .receive batch now => keepOnError (db,[]) (receiveMove env db batch now)
  | .apply now => keepOnError (db,[]) (applyMove env db now)
  | .expect expected now => keepOnError (db,[]) (expectMove env db expected now)
  | .cleanup at_ => (cleanupAccountActivityPipeline env db at_,[])

end

end runs

end Oboard.Activity
