import Mathlib.Data.List.Dedup
import Oboard.Store.ConfigurationSyncRuns

namespace Oboard.Store

open Runs

/-- The columns of servers that an intent can track. -/
structure ServerSettings where
  ipStack : String := ""
  listenMode : String := ""
  listenIP : String := ""
  udpInboundMode : String := ""

inductive TrackedField where
  | ipStack
  | listenMode
  | listenIP
  | udpInboundMode
  deriving DecidableEq

def TrackedField.parse (name : String) : Option TrackedField :=
  if name="ip_stack" then some .ipStack
  else if name="listen_mode" then some .listenMode
  else if name="listen_ip" then some .listenIP
  else if name="udp_inbound_mode" then some .udpInboundMode
  else none

def ServerSettings.value (v : ServerSettings) : TrackedField → String
  | .ipStack => v.ipStack
  | .listenMode => v.listenMode
  | .listenIP => v.listenIP
  | .udpInboundMode => v.udpInboundMode

structure ServerConfigurationIntent where
  actorPrincipal : String
  source : String
  fields : List String

inductive OperationState where
  | pending
  | queued
  | succeeded
  | failed
  | superseded
  | evidenceInsufficient
  | noChange
  deriving DecidableEq

inductive CauseCode where
  | trackedFieldsOnly
  | localSaved
  | partialScope
  | confirmedFields
  | serverDeleted
  deriving DecidableEq

/-- One row of task_operation_targets, keyed by operation and server. -/
structure OperationTarget where
  state : OperationState
  causeCode : CauseCode
  desiredRevision : Nat

abbrev TargetKey := String×Int

/-- One row of task_operation_links, keyed by target and attempt. -/
structure OperationLink where
  taskID : Int
  appliedRevision : Nat
  state : OperationState

inductive ExecutionKind where
  | originalApply
  | originalRetry
  | laterModified

structure OperationAttempt where
  configVersion : Int
  actualRevision : Nat
  executionKind : ExecutionKind

/-- The operations of kind servers.update beside the tables they are decided from. -/
structure OperationStore where
  sync : SyncStore := {}
  servers : Table Int ServerSettings := ∅
  payloads : Table Int String := ∅
  revision : Nat := 0
  operations : List String := []
  targets : Table TargetKey OperationTarget := ∅
  fields : Table (String×TrackedField) String := ∅
  links : Table (TargetKey×Nat) OperationLink := ∅
  attempts : Table (TargetKey×Nat) OperationAttempt := ∅

namespace OperationStore

section triggers

/-- An update statement on configuration_sync_states that set the state of a row. -/
structure RowUpdate where
  serverID : Int
  old : ConfigurationSyncState
  new : ConfigurationSyncState

section

variable (db : OperationStore)

/-- The attempts that carried the version of the row at the revision of the row. -/
def attemptsOf (serverID : Int) (row : ConfigurationSyncState) : List (TargetKey×Nat) :=
  (db.attempts.rows.filter (fun a => a.1.1.2=serverID && a.2.configVersion=row.lastConfigVersion &&
    a.2.actualRevision=row.wantedRevision)).map (·.1)

def latestAttempt (key : TargetKey) : Option Nat :=
  ((db.links.rows.filter (fun l => l.1.1=key)).map (·.1.2)).max?

def latestLinkState (key : TargetKey) : Option OperationState :=
  (db.latestAttempt key).bind (fun n => (db.links.lookup (key,n)).map (·.state))

def setLinks (hit : List (TargetKey×Nat)) (state : OperationState) : OperationStore :=
  {db with links := db.links.mapRows (fun k l => if k∈hit then {l with state := state} else l)}

def updateTargets (p : TargetKey → OperationTarget → Bool)
    (f : TargetKey → OperationTarget → OperationState) : OperationStore :=
  {db with targets := db.targets.mapRows (fun k t => if p k t then {t with state := f k t} else t)}

end

def resultOutcome (state : SyncState) : OperationState :=
  if state=.synced then .succeeded else .failed

section

variable (db : OperationStore) (u : RowUpdate)

/-- Trigger configuration_operations_sync_result. -/
def syncResult : OperationStore :=
  if u.old.inFlight && (u.new.state=.synced || u.new.state=.failed) &&
      u.new.syncStrategy≠some .semanticNoop &&
      u.new.lastConfigVersion=u.old.lastConfigVersion && u.new.wantedRevision=u.old.wantedRevision then
    let hit := db.attemptsOf u.serverID u.new
    let linked := db.setLinks hit (resultOutcome u.new.state)
    linked.updateTargets (fun k t => t.state≠.superseded &&
        hit.any (fun a => a.1=k && linked.latestAttempt k=some a.2))
      (fun k t => if u.new.state=.synced ∧ t.causeCode=.partialScope then .evidenceInsufficient
        else (linked.latestLinkState k).getD t.state)
  else db

/-- Trigger configuration_operations_preparation_failure. -/
def preparationFailure : OperationStore :=
  if u.old.state=.preparing ∧ u.new.state=.failed then
    db.updateTargets (fun k t => k.2=u.serverID && t.desiredRevision≤u.new.wantedRevision &&
      [OperationState.pending,.queued,.evidenceInsufficient].contains t.state) (fun _ _ => .failed)
  else db

/-- Trigger configuration_operations_superseded. -/
def supersededResult : OperationStore :=
  if u.old.inFlight ∧ u.new.state=.pending ∧ u.new.triggerReason=some .superseded then
    let hit := db.attemptsOf u.serverID u.old
    (db.setLinks hit .superseded).updateTargets
      (fun k t => t.state=.queued && hit.any (·.1=k)) (fun _ _ => .evidenceInsufficient)
  else db

/-- Trigger configuration_operations_semantic_noop. -/
def semanticNoop : OperationStore :=
  if u.new.state=.synced ∧ u.new.syncStrategy=some .semanticNoop then
    db.updateTargets (fun k t => k.2=u.serverID && t.desiredRevision≤u.new.wantedRevision &&
      [OperationState.pending,.queued,.failed,.evidenceInsufficient].contains t.state)
      (fun _ _ => .evidenceInsufficient)
  else db

/-- At most one of the triggers acts on an update. -/
def fire : OperationStore :=
  (((db.syncResult u).preparationFailure u).supersededResult u).semanticNoop u

end

open SyncStore in
def stateReached (σ : SyncStore) (s : Int) (row : ConfigurationSyncState) : SyncCall → Bool
  | .markPending revision serverIDs =>
    0<revision && 0<s && s∈(if serverIDs=[] then σ.enrolled else serverIDs) &&
      row.wantedRevision<revision
  | .ensureRevision serverID revision =>
    s=serverID && 0<serverID && 0<revision && row.wantedRevision<revision
  | .drift serverID revision => s=serverID && 0<serverID && 0<revision && row.opensDrift
  | .waiting serverID revision _ _ problems =>
    s=serverID && preparingFor revision row && (encodeConfigurationSyncProblems problems).isOk
  | .noop serverID revision _ =>
    s=serverID && 0<serverID && 0<revision && row.wantedRevision=revision
  | .updateDigest _ _ => false
  | .recover =>
    (unfinished row && 0<row.lastConfigVersion && σ.hasTask s row.lastConfigVersion [.failed] &&
        !σ.hasTask s row.lastConfigVersion [.pending,.running]) ||
      (unfinished row && !σ.hasTask s row.lastConfigVersion [.pending,.running,.failed]) ||
      (row.state=.failed && row.lastConfigVersion=0 && row.busyError)
  | .claim serverID revision => s=serverID && claimable revision row
  | .preparationFailure serverID revision _ problems _ =>
    s=serverID && preparingFor revision row && (encodeConfigurationSyncProblems problems).isOk &&
      (encodeConfigurationSyncProblems (manualProblems problems)).isOk
  | .queued serverID revision _ _ _ prepared previousTaskID =>
    s=serverID && queueable revision prepared previousTaskID row
  | .unchangedFailure serverID revision _ => s=serverID && preparingFor revision row
  | .result serverID version _ _ _ => s=serverID && awaits version row
  | .superseded serverID version => s=serverID && 0<serverID && 0<version && awaits version row
  | .retryFailed serverIDs => row.state=.failed && (serverIDs=[] || (0<s && s∈serverIDs))
  | .otherTables .. => false

def rowUpdates (σ : SyncStore) (call : SyncCall) : List RowUpdate :=
  σ.states.rows.filterMap (fun r =>
    if stateReached σ r.1 r.2 call then
      ((syncStep σ call).1.states.lookup r.1).map (fun new => ⟨r.1,r.2,new⟩)
    else none)

end triggers

section calls

-- the digest under which values are stored
variable (hash : String → String)

def trackedHashes (v : ServerSettings) (fields : List String) : List (TrackedField×String) :=
  (fields.filterMap TrackedField.parse).dedup.map (fun f => (f,hash (v.value f)))

/-- A delivered operation proves the value of the field at the current revision. -/
def confirmedField (db : OperationStore) (serverID : Int) (field : TrackedField×String) : Bool :=
  db.targets.rows.any (fun t => t.1.2=serverID && t.2.state=.succeeded &&
    db.fields.lookup (t.1.1,field.1)=some field.2 &&
    db.attempts.rows.any (fun a => a.1.1=t.1 && a.2.actualRevision=db.revision &&
      (db.links.lookup a.1).any (·.state=.succeeded) &&
      (db.sync.states.lookup serverID).any (fun row => row.wantedRevision=a.2.actualRevision &&
        row.state=.synced && row.lastConfigVersion=a.2.configVersion)))

def intentState (db : OperationStore) (serverID : Int) (previous : Option ServerSettings)
    (tracked : List (TrackedField×String)) (isPartial : Bool) : OperationState×CauseCode :=
  let cause := if isPartial then .partialScope else .trackedFieldsOnly
  if tracked=[] then (.evidenceInsufficient,.localSaved)
  else
    match previous with
    | none => (.pending,cause)
    | some old =>
      if tracked.any (fun f => hash (old.value f.1)≠f.2) then (.pending,cause)
      else if !isPartial && tracked.all (db.confirmedField serverID) then (.noChange,.confirmedFields)
      else (.evidenceInsufficient,cause)

def openOperation (db : OperationStore) (id : String) (serverID : Int) (target : OperationTarget) :
    OperationStore :=
  {db with operations := id::db.operations, targets := db.targets.insert (id,serverID) target}

/-- Only an explicitly conflicting value supersedes an earlier intent. -/
def supersedeConflicting (serverID : Int) (db : OperationStore) (field : TrackedField×String) :
    OperationStore :=
  db.updateTargets (fun k t => k.2=serverID &&
    !(([OperationState.succeeded,.noChange,.superseded]).contains t.state) &&
    (db.fields.lookup (k.1,field.1)).any (·≠field.2)) (fun _ _ => .superseded)

def trackField (id : String) (serverID : Int) (db : OperationStore) (field : TrackedField×String) :
    OperationStore :=
  let db := db.supersedeConflicting serverID field
  {db with fields := db.fields.insert (id,field.1) field.2}

section

variable (db : OperationStore)

def recordServerConfigurationIntent (serverID : Int) (v : ServerSettings)
    (previous : Option ServerSettings) (intent : ServerConfigurationIntent) (id : String) :
    Except String OperationStore :=
  if intent.actorPrincipal="" ∨ intent.source="" ∨ intent.fields=[] then
    .error "configuration intent requires authenticated actor and fields"
  else if id∈db.operations then .error "UNIQUE constraint failed: task_operations.id"
  else
    let tracked := trackedHashes hash v intent.fields
    let isPartial := intent.fields.any (fun f => (TrackedField.parse f).isNone)
    let first := db.intentState hash serverID previous tracked isPartial
    .ok (tracked.foldl (trackField id serverID)
      (db.openOperation id serverID ⟨first.1,first.2,db.revision⟩))

/-- The new task copies the failed deployment it is a retry of. -/
def copiesFailedTask (serverID version taskID previousTaskID : Int) : Bool :=
  match db.sync.tasks.lookup previousTaskID,db.sync.tasks.lookup taskID with
  | some old,some next => next.serverID=old.serverID && old.serverID=serverID &&
    old.taskType=.applyDeployment && next.taskType=old.taskType &&
    (old.status=.failed || old.status=.rollbackFailed) && next.configVersion=version &&
    db.payloads.lookup previousTaskID=db.payloads.lookup taskID
  | _,_ => false

/-- A retry inherits only the evidence that its source task carries at the same revision. -/
def inherits (key : TargetKey) (revision : Nat) (previousTaskID : Int) : Bool :=
  db.attempts.rows.any (fun a => a.1.1=key && a.2.actualRevision=revision &&
    (db.links.lookup a.1).any (·.taskID=previousTaskID))

def fieldsMatch (id : String) (v : ServerSettings) : Bool :=
  let fields := db.fields.rows.filter (fun f => f.1.1=id)
  fields≠[] && fields.all (fun f => hash (v.value f.1.2)=f.2)

def bindCandidates (serverID : Int) (revision : Nat) (fresh : Bool)
    (previousTaskID : Int) (v : ServerSettings) : List TargetKey :=
  (db.targets.rows.filter (fun t => t.1.2=serverID && t.2.desiredRevision≤revision &&
    t.2.causeCode≠.serverDeleted &&
    [OperationState.pending,.failed,.queued,.evidenceInsufficient].contains t.2.state &&
    (fresh || db.inherits t.1 revision previousTaskID) && db.fieldsMatch hash t.1.1 v)).map (·.1)

end

def executionKind (desired revision attempt : Nat) : ExecutionKind :=
  if desired≠revision then .laterModified
  else if 1<attempt then .originalRetry
  else .originalApply

/-- Binds one operation to the task, unless the task is already linked to it. -/
def bindOperation (revision : Nat) (version taskID : Int) (db : OperationStore) (key : TargetKey) :
    OperationStore :=
  if db.links.rows.any (fun l => l.1.1=key && l.2.taskID=taskID) then db
  else
    let attempt := (db.latestAttempt key).getD 0+1
    let desired := ((db.targets.lookup key).map (·.desiredRevision)).getD 0
    {db with
      links := db.links.insert (key,attempt) ⟨taskID,revision,.queued⟩
      attempts := db.attempts.insert (key,attempt) ⟨version,revision,executionKind desired revision attempt⟩
      targets := db.targets.modify key (fun t =>
        if t.state≠.superseded then {t with state := .queued} else t)}

def bindConfigurationOperations (db : OperationStore) (serverID : Int) (revision : Nat)
    (version taskID : Int) (fresh : Bool) (previousTaskID : Int) : Except String OperationStore :=
  if !fresh && previousTaskID≤0 then .ok db
  else if db.revision≠revision then
    if fresh then .ok db else .error "configuration changed while binding retry evidence"
  else
    match db.servers.lookup serverID with
    | none => .error "sql: no rows in result set"
    | some v =>
      if !fresh && !db.copiesFailedTask serverID version taskID previousTaskID then
        .error "configuration retry must copy the failed source deployment"
      else .ok ((db.bindCandidates hash serverID revision fresh previousTaskID v).foldl
        (bindOperation revision version taskID) db)

end calls

end OperationStore

section system

inductive OperationMove where
  /-- An update of a server row, with the revision that its triggers leave. -/
  | updateServer (serverID : Int) (v : ServerSettings) (revision : Nat)
      (intent : Option ServerConfigurationIntent) (id : String)
  | sync (call : SyncCall)
  | releaseServer (serverID : Int)
  | otherTables (servers : Table Int ServerSettings) (payloads : Table Int String) (revision : Nat)

inductive OperationEvent where
  /-- An intent named these fields of the settings, at the revision of its transaction. -/
  | intended (key : TargetKey) (fields : List String) (v : ServerSettings) (revision : Nat)
  /-- An attempt was bound while the server row had these settings. -/
  | bound (key : TargetKey) (attempt : Nat) (version : Int) (revision : Nat) (v : ServerSettings)
  /-- The result of a deployment made the row of a server synced. -/
  | deployed (serverID version : Int) (revision : Nat)

namespace OperationStore

variable (hash : String → String)

section

variable (db : OperationStore)

def editServer (serverID : Int) (v : ServerSettings) (revision : Nat) : OperationStore :=
  {db with servers := db.servers.insert serverID v, revision := revision}

def updateServer (serverID : Int) (v : ServerSettings) (revision : Nat)
    (intent : Option ServerConfigurationIntent) (id : String) : Except String OperationStore :=
  match db.servers.lookup serverID with
  | none => .error "sql: no rows in result set"
  | some previous =>
    match intent with
    | none => .ok (db.editServer serverID v revision)
    | some intent => (db.editServer serverID v revision).recordServerConfigurationIntent hash serverID
        v (some previous) intent id

def fired (call : SyncCall) : OperationStore :=
  (rowUpdates db.sync call).foldl fire {db with sync := (syncStep db.sync call).1}

/-- The queueing transaction: the row moves and the operations are bound, or nothing happens. -/
def markQueued (call : SyncCall) (serverID : Int) (revision : Nat)
    (version taskID : Int) (prepared : Bool) (previousTaskID : Int) : Except String OperationStore :=
  let moved := db.fired call
  if db.sync.reaches serverID (SyncStore.queueable revision prepared previousTaskID) then
    moved.bindConfigurationOperations hash serverID revision version taskID prepared previousTaskID
  else .ok moved

def syncCall : SyncCall → OperationStore
  | .queued serverID revision version taskID digest prepared previousTaskID =>
    keepOnError db (db.markQueued hash
      (.queued serverID revision version taskID digest prepared previousTaskID)
      serverID revision version taskID prepared previousTaskID)
  | call => db.fired call

end

def releaseTarget (serverID : Int) (k : TargetKey) (t : OperationTarget) : OperationTarget :=
  if k.2=serverID then
    let settled := [OperationState.succeeded,.noChange,.failed].contains t.state
    {t with state := if settled then t.state else .superseded, causeCode := .serverDeleted}
  else t

def releaseServer (db : OperationStore) (serverID : Int) : OperationStore :=
  {db with
    sync := {db.sync with states := db.sync.states.erase serverID}
    servers := db.servers.erase serverID
    targets := db.targets.mapRows (releaseTarget serverID)}

def boundEvents (db db' : OperationStore) : List OperationEvent :=
  (db'.attempts.rows.filter (fun a => (db.attempts.lookup a.1).isNone)).map (fun a =>
    .bound a.1.1 a.1.2 a.2.configVersion a.2.actualRevision ((db.servers.lookup a.1.1.2).getD {}))

def deployedEvents (db db' : OperationStore) : SyncCall → List OperationEvent
  | .result serverID version true _ _ =>
    match db.sync.states.lookup serverID,db'.sync.states.lookup serverID with
    | some row,some row' => if SyncStore.awaits version row ∧ row'.state=.synced then
        [.deployed serverID version row.wantedRevision] else []
    | _,_ => []
  | _ => []

def intendedEvents (db : OperationStore) : OperationMove → List OperationEvent
  | .updateServer serverID v revision (some intent) id =>
    if (db.updateServer hash serverID v revision (some intent) id).isOk then
      [.intended (id,serverID) intent.fields v revision] else []
  | _ => []

def move (db : OperationStore) : OperationMove → OperationStore
  | .updateServer serverID v revision intent id =>
    keepOnError db (db.updateServer hash serverID v revision intent id)
  | .sync call => db.syncCall hash call
  | .releaseServer serverID => db.releaseServer serverID
  | .otherTables servers payloads revision =>
    {db with servers := servers, payloads := payloads, revision := revision}

end OperationStore

open OperationStore in
def operationStep (hash : String → String) (db : OperationStore) (m : OperationMove) :
    OperationStore×List OperationEvent :=
  let db' := db.move hash m
  (db',db.intendedEvents hash m++boundEvents db db'++match m with
    | .sync call => deployedEvents db db' call
    | _ => [])

end system

end Oboard.Store
