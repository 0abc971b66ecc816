import Oboard.Store.AgentTasks
import Oboard.Framework.GoText
import Mathlib.Data.List.Infix
import Mathlib.Data.List.Sort
import Mathlib.Data.String.Basic

namespace Oboard.Store

open GoText

inductive SyncState where
  | pending
  | preparing
  | queued
  | running
  | synced
  | failed
  deriving DecidableEq

inductive SyncTrigger where
  | revision
  | operatorRetry
  | agentDrift
  | superseded
  deriving DecidableEq

inductive SyncStrategy where
  | task
  | semanticNoop
  deriving DecidableEq

structure ConfigurationSyncResource where
  resourceType : String
  id : String
  deriving DecidableEq

structure ConfigurationSyncProblem where
  code : String
  category : String := ""
  resources : List ConfigurationSyncResource := []
  retryPolicy : String := ""
  message : String := ""
  deriving DecidableEq

/-- Why an entry cannot be stored: it is empty or too long. -/
def ConfigurationSyncProblem.refusal (p : ConfigurationSyncProblem) : Option String :=
  if p.code="" ∨ 96<p.code.utf8ByteSize ∨ 32<p.category.utf8ByteSize ∨
      32<p.retryPolicy.utf8ByteSize ∨ 2000<p.message.utf8ByteSize ∨ 16<p.resources.length then
    some "invalid configuration sync problem"
  else if p.resources.any (fun r => r.resourceType="" || r.id="" ||
      64<r.resourceType.utf8ByteSize || 128<r.id.utf8ByteSize) then
    some "invalid configuration sync resource"
  else none

def encodeConfigurationSyncProblems (problems : List ConfigurationSyncProblem) :
    Except String (List ConfigurationSyncProblem) :=
  if 16<problems.length then .error "too many configuration sync problems"
  else match problems.findSome? (·.refusal) with
    | some e => .error e
    | none => .ok problems

/-- One row of configuration_sync_states, keyed by server. -/
structure ConfigurationSyncState where
  wantedRevision : Nat
  wantedDigest : String
  state : SyncState := .pending
  lastConfigVersion : Int := 0
  lastTaskID : Int := 0
  retryCount : Int := 0
  nextRetryAt : Option Time := none
  lastError : String := ""
  problems : List ConfigurationSyncProblem := []
  triggerReason : Option SyncTrigger := some .revision
  syncStrategy : Option SyncStrategy := none
  deriving DecidableEq

/-- The columns of server_delivery_flags that a synchronisation moves. -/
structure DeliveryFlags where
  revision : Nat
  appliedRevision : Nat
  processingRevision : Nat
  processingConfigVersion : Int

/-- The tables of the configuration synchronisation and the servers with an agent. -/
structure SyncStore where
  states : Table Int ConfigurationSyncState := ∅
  tasks : Table Int AgentTask := ∅
  flags : Table Int DeliveryFlags := ∅
  enrolled : List Int := []

def routingDigest (revision : Nat) : String := "routing:"++toString revision

def maxPreparationRetries : Int := 6

def stateBatchSize : Nat := 64

namespace ConfigurationSyncState

section

variable (row : ConfigurationSyncState)

/-- Columns of a row that a higher revision reopens. -/
def reopen (revision : Nat) : ConfigurationSyncState :=
  {row with
    wantedRevision := revision
    wantedDigest := routingDigest revision
    state := .pending
    retryCount := 0
    nextRetryAt := none
    lastError := ""
    problems := []
    triggerReason := some .revision}

def settle (state : SyncState) : ConfigurationSyncState :=
  {row with state := state,nextRetryAt := none,lastError := "",problems := []}

def inFlight : Bool := row.state=.queued || row.state=.running

/-- The drift report opens a recovery: none is under way and none has failed. -/
def opensDrift : Bool :=
  row.state≠.failed && row.state≠.preparing && row.state≠.queued && row.state≠.running &&
    !(row.state=.pending && row.triggerReason=some .agentDrift)

def drift (revision : Nat) : ConfigurationSyncState :=
  {row.settle .pending with
    wantedRevision := if row.wantedRevision<revision then revision else row.wantedRevision
    wantedDigest :=
      if row.wantedRevision<revision then routingDigest revision else row.wantedDigest
    triggerReason := some .agentDrift}

end

/-- The where clause of the list that the reconciler works off. -/
def selectable (now : Time) (row : ConfigurationSyncState) : Bool :=
  let due := row.nextRetryAt.all (fun at_ => formatRFC3339Nano at_≤formatRFC3339Nano now)
  (row.state=.pending && due) ||
    (row.state=.failed && row.lastConfigVersion=0 && row.retryCount < maxPreparationRetries && due)

def busyError (row : ConfigurationSyncState) : Bool :=
  decide ("SQLITE_BUSY".toList<:+:row.lastError.toList) ||
    decide ("database is locked".toList<:+:row.lastError.toList)

end ConfigurationSyncState

namespace SyncStore

section

variable (σ : SyncStore)

def updateRow (serverID : Int) (p : ConfigurationSyncState → Bool)
    (f : ConfigurationSyncState → ConfigurationSyncState) : SyncStore :=
  {σ with states := σ.states.modify serverID (fun row => if p row then f row else row)}

def reaches (serverID : Int) (p : ConfigurationSyncState → Bool) : Bool :=
  (σ.states.lookup serverID).any p

def insertOrReopen (serverID : Int) (revision : Nat)
    (f : ConfigurationSyncState → ConfigurationSyncState) : SyncStore :=
  match σ.states.lookup serverID with
  | none =>
    let row : ConfigurationSyncState :=
      {wantedRevision := revision,wantedDigest := routingDigest revision}
    {σ with states := σ.states.insert serverID row}
  | some _ => σ.updateRow serverID (fun row => row.wantedRevision<revision) f

def markConfigurationSyncPendingTx (serverID : Int) (revision : Nat) : SyncStore :=
  σ.insertOrReopen serverID revision (fun row => {row.reopen revision with syncStrategy := none})

def markConfigurationSyncPending (revision : Nat) (serverIDs : List Int) :
    Except String SyncStore :=
  if revision=0 then .error "configuration revision must be positive"
  else .ok ((if serverIDs=[] then σ.enrolled else serverIDs).foldl (fun σ serverID =>
      if serverID≤0 then σ else σ.markConfigurationSyncPendingTx serverID revision) σ)

def ensureConfigurationSyncRevision (serverID : Int) (revision : Nat) :
    Except String (SyncStore×Bool) :=
  if serverID≤0 ∨ revision=0 then
    .error "server id and configuration revision must be positive"
  else .ok (σ.insertOrReopen serverID revision (·.reopen revision),
    (σ.states.lookup serverID).all (·.wantedRevision<revision))

def markConfigurationSyncDrift (serverID : Int) (revision : Nat) : Except String (SyncStore×Bool) :=
  if serverID≤0 ∨ revision=0 then
    .error "server id and configuration revision must be positive"
  else .ok (σ.updateRow serverID (·.opensDrift) (·.drift revision),
    σ.reaches serverID (·.opensDrift))

end

def preparingFor (revision : Nat) (row : ConfigurationSyncState) : Bool :=
  row.wantedRevision=revision && row.state=.preparing

def firstMessage (text : String) (problems : List ConfigurationSyncProblem) : String :=
  match problems with
  | [] => text
  | p::_ => p.message

def errorText (text : String) : String := trimSpace (String.ofList (cutBytes 2000 text.toList))

section

variable (σ : SyncStore)

def markConfigurationSyncWaiting (serverID : Int) (revision : Nat) (retryAt : Time)
    (reason : String) (problems : List ConfigurationSyncProblem) : Except String SyncStore :=
  match encodeConfigurationSyncProblems problems with
  | .error e => .error e
  | .ok encoded => .ok (σ.updateRow serverID (preparingFor revision) (fun row =>
      {row with
        state := .pending
        nextRetryAt := some retryAt
        lastError := errorText (firstMessage reason problems)
        problems := encoded}))

def listConfigurationSyncStates (now : Time) : List (Int×ConfigurationSyncState) :=
  ((σ.states.rows.filter (fun r => r.2.selectable now)).insertionSort
    (fun a b => a.2.wantedRevision<b.2.wantedRevision ∨
      (a.2.wantedRevision=b.2.wantedRevision ∧ a.1≤b.1))).take stateBatchSize

def markConfigurationSyncNoop (serverID : Int) (revision : Nat) (digest : String) :
    Except String SyncStore :=
  if serverID≤0 ∨ revision=0 then
    .error "server id and configuration revision must be positive"
  else .ok (σ.updateRow serverID (fun row => row.wantedRevision=revision) (fun row =>
    {row.settle .synced with
      wantedDigest := trimSpace digest
      syncStrategy := some .semanticNoop}))

def updateConfigurationSyncWantedDigest (serverID : Int) (digest : String) :
    Except String SyncStore :=
  if serverID≤0 then .error "server id must be positive"
  else .ok (σ.updateRow serverID (fun row => row.state=.synced) (fun row =>
    {row with wantedDigest := trimSpace digest}))

def hasTask (serverID version : Int) (statuses : List TaskStatus) : Bool :=
  σ.tasks.rows.any (fun r => r.2.configures serverID version && statuses.contains r.2.status)

end

def unfinished (row : ConfigurationSyncState) : Bool := row.state=.preparing || row.state=.queued

section

variable (σ : SyncStore) (serverID : Int) (row : ConfigurationSyncState)

/-- First statement of the recovery: the task of the last version has failed. -/
def recoverFailed : ConfigurationSyncState :=
  if unfinished row && 0<row.lastConfigVersion &&
      σ.hasTask serverID row.lastConfigVersion [.failed] &&
      !σ.hasTask serverID row.lastConfigVersion [.pending,.running] then
    {row with state := .failed,nextRetryAt := none} else row

/-- Second statement: no task of the last version is left to wait for. -/
def recoverPending : ConfigurationSyncState :=
  if unfinished row && !σ.hasTask serverID row.lastConfigVersion [.pending,.running,.failed] then
    row.settle .pending else row

end

/-- Third statement: preparations that a locked database stopped. -/
def recoverBusy (row : ConfigurationSyncState) : ConfigurationSyncState :=
  if row.state=.failed && row.lastConfigVersion=0 && row.busyError then
    {row.settle .pending with retryCount := 0} else row

def recoverConfigurationSyncStates (σ : SyncStore) : SyncStore :=
  let failed := σ.states.mapRows σ.recoverFailed
  let reopened := failed.mapRows σ.recoverPending
  {σ with states := reopened.mapRows (fun _ => recoverBusy)}

def claimable (revision : Nat) (row : ConfigurationSyncState) : Bool :=
  row.wantedRevision=revision && (row.state=.pending || row.state=.failed)

def claimConfigurationSync (σ : SyncStore) (serverID : Int) (revision : Nat) : SyncStore×Bool :=
  (σ.updateRow serverID (claimable revision) (fun row => {row with state := .preparing}),
    σ.reaches serverID (claimable revision))

/-- The doubled delay, at most half a minute. -/
def retryBackoff (retryCount : Int) : Time :=
  min (second*2^(min (retryCount-1) 5).toNat) (30*second)

/-- The operator decides about problems once the automatic attempts are used up. -/
def manualProblems (problems : List ConfigurationSyncProblem) : List ConfigurationSyncProblem :=
  problems.map (fun p => if p.retryPolicy="automatic" then {p with retryPolicy := "manual"} else p)

def markConfigurationSyncPreparationFailure (σ : SyncStore) (serverID : Int) (revision : Nat)
    (resultError : String) (problems : List ConfigurationSyncProblem) (now : Time) :
    Except String SyncStore :=
  match encodeConfigurationSyncProblems problems,
      encodeConfigurationSyncProblems (manualProblems problems) with
  | .error e,_ => .error e
  | .ok _,.error e => .error e
  | .ok encoded,.ok manualEncoded => .ok (σ.updateRow serverID (preparingFor revision) (fun row =>
      let retryCount := row.retryCount+1
      {row with
        state := .failed
        retryCount := retryCount
        nextRetryAt := some (now+retryBackoff retryCount)
        lastError := errorText (firstMessage resultError problems)
        problems := if 0<row.lastConfigVersion ∨ maxPreparationRetries≤retryCount then manualEncoded
          else encoded}))

/-- A fresh deployment and a copied one need a claimed row, an adopted task does not. -/
def queueable (revision : Nat) (prepared : Bool) (previousTaskID : Int)
    (row : ConfigurationSyncState) : Bool :=
  row.wantedRevision=revision && (!(prepared || 0<previousTaskID) || row.state=.preparing)

section

variable (σ : SyncStore) (serverID : Int) (revision : Nat)

/-- The deployment carries the unapplied delivery policy. -/
def captureFlags (configVersion taskID : Int) : Table Int DeliveryFlags :=
  if (σ.tasks.lookup taskID).any (fun task => task.serverID=serverID &&
      task.configVersion=configVersion && task.taskType=.applyDeployment && task.forceRefresh) then
    σ.flags.modify serverID (fun f => if f.revision≤revision ∧ f.appliedRevision<f.revision then
      {f with processingRevision := f.revision,processingConfigVersion := configVersion} else f)
  else σ.flags

def markConfigurationSyncQueued (configVersion taskID : Int) (payloadDigest : String) (prepared : Bool)
    (previousTaskID : Int) : SyncStore :=
  let moved := σ.updateRow serverID (queueable revision prepared previousTaskID) (fun row =>
    {row.settle .queued with
      syncStrategy := some .task
      wantedDigest := trimSpace payloadDigest
      lastConfigVersion := configVersion
      lastTaskID := taskID})
  if prepared && σ.reaches serverID (queueable revision prepared previousTaskID) then
    {moved with flags := σ.captureFlags serverID revision configVersion taskID}
  else moved

def markConfigurationSyncUnchangedFailure (resultError : String) : SyncStore :=
  let text := errorText resultError
  σ.updateRow serverID (preparingFor revision) (fun row =>
    {row with
      state := .failed
      nextRetryAt := none
      problems := if text="" ∨ text=row.lastError then row.problems else []
      lastError := if text="" then row.lastError else text})

end

def awaits (configVersion : Int) (row : ConfigurationSyncState) : Bool :=
  row.lastConfigVersion=configVersion && row.inFlight

section

variable (σ : SyncStore) (serverID configVersion : Int)

def applyFlags : Table Int DeliveryFlags :=
  σ.flags.modify serverID (fun f => if f.processingConfigVersion=configVersion ∧
      σ.reaches serverID (fun row => awaits configVersion row &&
        f.processingRevision≤row.wantedRevision) then
    {f with appliedRevision := max f.appliedRevision f.processingRevision} else f)

def markConfigurationSyncResult (succeeded : Bool)
    (resultError : String) (now : Time) : SyncStore :=
  if succeeded then
    let flags := σ.applyFlags serverID configVersion
    let open_ := (flags.lookup serverID).any (fun f => f.appliedRevision<f.revision)
    {σ.updateRow serverID (awaits configVersion)
      (·.settle (if open_ then .pending else .synced)) with flags := flags}
  else σ.updateRow serverID (awaits configVersion) (fun row =>
    let retryCount := row.retryCount+1
    {row with
      state := .failed
      retryCount := retryCount
      nextRetryAt := some (now+retryBackoff retryCount)
      lastError := errorText resultError
      problems := []})

def markConfigurationSyncSuperseded : SyncStore :=
  if serverID≤0 ∨ configVersion≤0 then σ
  else σ.updateRow serverID (awaits configVersion) (fun row =>
    {row.settle .pending with triggerReason := some .superseded,retryCount := 0})

end

/-- An empty list retries every failed server, a list without positive ids none. -/
def retryFailedConfigurationSync (σ : SyncStore) (serverIDs : List Int) : SyncStore :=
  {σ with states := σ.states.mapRows (fun id row =>
    if row.state=.failed ∧ (serverIDs=[] ∨ (0 < id ∧ id∈serverIDs)) then
      {row.settle .pending with retryCount := 0,triggerReason := some .operatorRetry} else row)}

end SyncStore

end Oboard.Store
