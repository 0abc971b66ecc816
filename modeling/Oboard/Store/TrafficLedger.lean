import Oboard.Framework.Table
import Oboard.Framework.Word64
import Oboard.Framework.GoText
import Oboard.Framework.Runs

namespace Oboard.Store

open GoText Word64

inductive AcceptStatus where
  | accepted
  | duplicate
  | covered
  | checkpointGap
  | checkpointOverlap
  | epochConflict
  | rejected
  deriving DecidableEq

def AcceptStatus.text : AcceptStatus → String
  | .accepted => "accepted"
  | .duplicate => "duplicate"
  | .covered => "covered"
  | .checkpointGap => "checkpoint_gap"
  | .checkpointOverlap => "checkpoint_overlap"
  | .epochConflict => "epoch_conflict"
  | .rejected => "rejected"

def trafficStreamHealthy : String := "healthy"

inductive LeaseState where
  | active
  | released
  | expiredUnsettled
  deriving DecidableEq

inductive PeriodState where
  | active
  | quotaExceeded
  deriving DecidableEq

inductive TrafficError where
  | serverIDRequired
  | streamIdentityInvalid
  | constraintFailed
  | usedBytesNull
  | transitionChainTooDeep
  | columnNotInteger
  | noRows
  deriving DecidableEq

def TrafficError.message : TrafficError → String
  | .serverIDRequired => "server id is required"
  | .streamIdentityInvalid => "traffic stream identity is invalid"
  | .constraintFailed => "FOREIGN KEY constraint failed"
  | .usedBytesNull => "NOT NULL constraint failed: users.traffic_used_bytes"
  | .transitionChainTooDeep => "traffic period transition chain is too deep"
  | .columnNotInteger => "converting driver.Value type float64 to a int64"
  | .noRows => "sql: no rows in result set"

/-- One reported counter range. The four counters are 64-bit integers of the wire format. -/
structure TrafficReport where
  reportID : String
  userID : Int
  inboundID : Option Int
  pathID : Option Int
  periodKey : String
  startedAt : Time
  endedAt : Time
  counterSource : String
  streamID : String
  counterEpoch : String
  fromUploadBytes : Int
  toUploadBytes : Int
  fromDownloadBytes : Int
  toDownloadBytes : Int
  int64 : Fits fromUploadBytes ∧ Fits toUploadBytes ∧ Fits fromDownloadBytes ∧ Fits toDownloadBytes
  deriving DecidableEq

structure TrafficPeriod where
  userID : Int
  periodKey : String
  startedAt : Time
  endsAt : Time
  upload : Int
  download : Int
  limit : Int

def TrafficPeriod.zero : TrafficPeriod := ⟨0,"",0,0,0,0,0⟩

structure TrafficStreamObservation where
  source : String
  streamID : String
  counterEpoch : String
  periodKey : String
  userID : Int
  inboundID : Int
  pathID : Int
  status : String

structure TrafficAcceptedReport where
  reportID : String
  status : AcceptStatus
  streamID : String
  counterEpoch : String
  periodKey : String
  acceptedUpload : Int
  acceptedDownload : Int

structure TrafficStreamCheckpoint where
  source : String
  streamID : String
  counterEpoch : String
  periodKey : String
  acceptedUpload : Int
  acceptedDownload : Int
  status : String
  lastError : String

def TrafficStreamCheckpoint.zero : TrafficStreamCheckpoint := ⟨"","","","",0,0,"",""⟩

/-- Unique key of traffic_counter_streams. -/
@[ext] structure StreamKey where
  serverID : Int
  counterSource : String
  streamID : String
  counterEpoch : String
  periodKey : String
  deriving DecidableEq

structure CounterStream where
  userID : Int
  inboundID : Int
  pathID : Int
  acceptedUploadBytes : Int
  acceptedDownloadBytes : Int
  status : String
  lastError : String
  agentInstanceID : String

structure ReportRow where
  stream : StreamKey
  userID : Int
  inboundID : Option Int
  pathID : Option Int
  uploadBytes : Int
  downloadBytes : Int
  fromUploadBytes : Int
  toUploadBytes : Int
  fromDownloadBytes : Int
  toDownloadBytes : Int

def ReportRow.sameRange (a b : ReportRow) : Bool :=
  a.stream=b.stream && a.fromUploadBytes=b.fromUploadBytes && a.toUploadBytes=b.toUploadBytes &&
  a.fromDownloadBytes=b.fromDownloadBytes && a.toDownloadBytes=b.toDownloadBytes

structure PeriodKey where
  userID : Int
  periodKey : String
  deriving DecidableEq

structure PeriodRow where
  startedAt : Time
  endsAt : Time
  uploadBytes : Int
  downloadBytes : Int
  trafficLimitBytes : Int
  state : PeriodState
  deriving DecidableEq

structure LeaseKey where
  serverID : Int
  userID : Int
  periodKey : String
  deriving DecidableEq

structure LeaseRow where
  leaseBytes : Int
  consumedBytes : Int
  leaseRevision : Int
  state : LeaseState
  validUntil : Option Time

structure Transition where
  targetPeriodKey : String
  createdAt : String
  deriving DecidableEq

/-- The tables a ledger transaction reads or writes. Servers, inbounds and proxy paths
are only foreign-key targets; a user row is its traffic_used_bytes. -/
structure Ledger where
  servers : List Int
  inbounds : List Int
  proxyPaths : List Int
  users : Table Int Int
  streams : Table StreamKey CounterStream
  reports : Table String ReportRow
  periods : Table PeriodKey PeriodRow
  leases : Table LeaseKey LeaseRow
  transitions : Table PeriodKey Transition
  policyRevision : Int

structure TrafficLedgerCommit where
  serverID : Int
  agentInstanceID : String
  periods : Table String TrafficPeriod
  streams : List TrafficStreamObservation
  reports : List TrafficReport

structure TrafficLedgerResult where
  streamCheckpoints : Table String TrafficStreamCheckpoint
  acceptedReports : List TrafficAcceptedReport

def trafficLedgerPeriodKey (userID : Int) (periodKey : String) : String :=
  toString userID++"\x00"++trimSpace periodKey

def TrafficLedgerCommit.periodFor (commit : TrafficLedgerCommit) (userID : Int)
    (periodKey : String) : TrafficPeriod :=
  (commit.periods.lookup (trafficLedgerPeriodKey userID periodKey)).getD .zero

def trafficStreamKey (source streamID epoch period : String) : String :=
  source++"\x00"++streamID++"\x00"++epoch++"\x00"++period

def streamCheckpoint (k : StreamKey) (stream : CounterStream) : TrafficStreamCheckpoint :=
  ⟨k.counterSource,k.streamID,k.counterEpoch,k.periodKey,stream.acceptedUploadBytes,
    stream.acceptedDownloadBytes,stream.status,stream.lastError⟩

def periodState (used limit : Int) : PeriodState :=
  if 0<limit ∧ limit≤used then .quotaExceeded else .active

def validateTrafficCheckpoint (fromUp toUp fromDown toDown acceptedUp acceptedDown : Int) :
    AcceptStatus :=
  if toUp≤acceptedUp ∧ toDown≤acceptedDown then .covered
  else if fromUp=acceptedUp ∧ fromDown=acceptedDown ∧ fromUp≤toUp ∧ fromDown≤toDown then .accepted
  else if (fromUp<acceptedUp ∧ acceptedUp<toUp) ∨ (fromDown<acceptedDown ∧ acceptedDown<toDown) then
    .checkpointOverlap
  else if acceptedUp<fromUp ∨ acceptedDown<fromDown then .checkpointGap
  else if fromUp<acceptedUp ∨ fromDown<acceptedDown then .checkpointOverlap
  else .rejected

namespace Ledger

/-- The rows of traffic_period_transitions of one user that point to a period. -/
def sourcesOf (l : Ledger) (userID : Int) (target : String) : List (String×String) :=
  (l.transitions.entries.filter (fun e => e.1.userID=userID && e.2.targetPeriodKey=target)).map
    (fun e => (e.1.periodKey,e.2.createdAt))

-- Equal creation times keep the primary-key scan order, the smaller source key first.
def newer (a b : String×String) : Bool :=
  b.2<a.2 || (a.2=b.2 && a.1<b.1)

def newestSource : List (String×String) → Option (String×String)
  | [] => none
  | a::rest =>
    match newestSource rest with
    | none => some a
    | some b => if newer b a then some b else some a

def inheritTrafficStreamCheckpointTx (l : Ledger) (k : StreamKey) (stream : CounterStream) :
    Ledger×CounterStream :=
  if stream.acceptedUploadBytes≠0 ∨ stream.acceptedDownloadBytes≠0 then (l,stream)
  else
    match newestSource (l.sourcesOf stream.userID k.periodKey) with
    | none => (l,stream)
    | some (sourcePeriod,_) =>
      if trimSpace sourcePeriod="" ∨ sourcePeriod=k.periodKey then (l,stream)
      else
        match l.streams.lookup {k with periodKey := sourcePeriod} with
        | none => (l,stream)
        | some source =>
          if source.acceptedUploadBytes=0 ∧ source.acceptedDownloadBytes=0 then (l,stream)
          else
            let inherited := {stream with
              acceptedUploadBytes := source.acceptedUploadBytes
              acceptedDownloadBytes := source.acceptedDownloadBytes}
            ({l with streams := l.streams.insert k inherited},inherited)

/-- The row an observation leaves in traffic_counter_streams before inheritance. -/
def observedStream (l : Ledger) (k : StreamKey) (agentInstanceID : String)
    (observation : TrafficStreamObservation) : CounterStream :=
  match l.streams.lookup k with
  | none =>
    let status := trimSpace observation.status
    ⟨observation.userID,observation.inboundID,observation.pathID,0,0,
      if status="" then trafficStreamHealthy else status,"",agentInstanceID⟩
  | some row => {row with
      userID := observation.userID
      inboundID := if 0<observation.inboundID then observation.inboundID else row.inboundID
      pathID := if 0<observation.pathID then observation.pathID else row.pathID
      agentInstanceID := if agentInstanceID="" then row.agentInstanceID else agentInstanceID}

def observationKey (serverID : Int) (observation : TrafficStreamObservation) : StreamKey :=
  ⟨serverID,observation.source,observation.streamID,observation.counterEpoch,observation.periodKey⟩

section

variable (l : Ledger) (serverID : Int) (agentInstanceID : String)

def upsertTrafficStreamTxReturn (observation : TrafficStreamObservation) : Except TrafficError (Ledger×CounterStream) :=
  let k := observationKey serverID observation
  if trimSpace observation.streamID="" ∨ trimSpace observation.counterEpoch="" ∨
      trimSpace observation.periodKey="" ∨ trimSpace observation.source="" ∨
      observation.userID≤0 then .error .streamIdentityInvalid
  else if serverID∉l.servers ∨ observation.userID∉l.users then .error .constraintFailed
  else
    let stream := l.observedStream k agentInstanceID observation
    .ok (inheritTrafficStreamCheckpointTx {l with streams := l.streams.insert k stream} k stream)

def loadOrCreateTrafficStreamTx (report : TrafficReport) : Except TrafficError (Ledger×CounterStream) :=
  l.upsertTrafficStreamTxReturn serverID agentInstanceID
    ⟨report.counterSource,report.streamID,report.counterEpoch,report.periodKey,report.userID,
      report.inboundID.getD 0,report.pathID.getD 0,""⟩

end

def reportKey (serverID : Int) (report : TrafficReport) : StreamKey :=
  ⟨serverID,report.counterSource,report.streamID,report.counterEpoch,report.periodKey⟩

def reportRow (serverID : Int) (report : TrafficReport) : ReportRow :=
  ⟨reportKey serverID report,report.userID,report.inboundID,report.pathID,
    wrap (report.toUploadBytes-report.fromUploadBytes),
    wrap (report.toDownloadBytes-report.fromDownloadBytes),report.fromUploadBytes,
    report.toUploadBytes,report.fromDownloadBytes,report.toDownloadBytes⟩

def rangeStored (l : Ledger) (row : ReportRow) : Bool :=
  l.reports.entries.any (fun e => row.sameRange e.2 && e.2.stream.streamID≠"")

-- The caller reads a unique violation and a foreign-key violation alike.
def insertTrafficReport (l : Ledger) (reportID : String) (row : ReportRow) : Option Ledger :=
  if reportID∈l.reports ∨ (row.stream.streamID≠"" ∧ l.rangeStored row) ∨
      row.stream.serverID∉l.servers ∨ row.userID∉l.users ∨
      (∃i∈row.inboundID,i∉l.inbounds) ∨ (∃p∈row.pathID,p∉l.proxyPaths) then none
  else some {l with reports := l.reports.insert reportID row}

/-- Defaults for a batch window that names no period or carries no times. -/
def periodOrReport (period : TrafficPeriod) (report : TrafficReport) : TrafficPeriod :=
  let period := if period.periodKey="" then
    {period with periodKey := report.periodKey,userID := report.userID} else period
  {period with
    startedAt := if period.startedAt=0 then report.startedAt else period.startedAt
    endsAt := if period.endsAt=0 then report.endedAt else period.endsAt}

def upsertPeriod (l : Ledger) (period : TrafficPeriod) : Except TrafficError Ledger :=
  let k : PeriodKey := ⟨period.userID,period.periodKey⟩
  if period.userID∉l.users then .error .constraintFailed
  else
    let row := match l.periods.lookup k with
      | none => ⟨period.startedAt,period.endsAt,0,0,period.limit,
          periodState (wrap (period.upload+period.download)) period.limit⟩
      | some row => {row with
          startedAt := period.startedAt
          endsAt := period.endsAt
          trafficLimitBytes := period.limit}
    .ok {l with periods := l.periods.insert k row}

def addUsage (up down : Int) (row : PeriodRow) : PeriodRow :=
  {row with
    uploadBytes := sqlAdd row.uploadBytes up
    downloadBytes := sqlAdd row.downloadBytes down
    state := periodState (sqlAdd (sqlAdd (sqlAdd row.uploadBytes row.downloadBytes) up) down)
      row.trafficLimitBytes}

def consume (l : Ledger) (k : LeaseKey) (bytes : Int) : Ledger :=
  let row := match l.leases.lookup k with
    | none => ⟨0,bytes,1,.active,none⟩
    | some row => {row with consumedBytes := sqlAdd row.consumedBytes bytes}
  {l with leases := l.leases.insert k row}

def bill (l : Ledger) (serverID : Int) (report : TrafficReport) (stream : CounterStream) : Ledger :=
  let up := wrap (report.toUploadBytes-report.fromUploadBytes)
  let down := wrap (report.toDownloadBytes-report.fromDownloadBytes)
  let l := {l with periods := l.periods.modify ⟨report.userID,report.periodKey⟩ (addUsage up down)}
  let l := l.consume ⟨serverID,report.userID,report.periodKey⟩ (wrap (up+down))
  {l with streams := l.streams.insert (reportKey serverID report) {stream with
    acceptedUploadBytes := report.toUploadBytes
    acceptedDownloadBytes := report.toDownloadBytes
    status := trafficStreamHealthy
    lastError := ""}}

def malformed (report : TrafficReport) : Prop :=
  trimSpace report.reportID="" ∨ trimSpace report.streamID="" ∨ trimSpace report.counterEpoch="" ∨
  trimSpace report.periodKey="" ∨ trimSpace report.counterSource="" ∨ report.userID≤0 ∨
  report.toUploadBytes<report.fromUploadBytes ∨ report.toDownloadBytes<report.fromDownloadBytes

instance (report : TrafficReport) : Decidable (malformed report) :=
  inferInstanceAs (Decidable (_ ∨ _))

def answer (report : TrafficReport) (status : AcceptStatus) (up down : Int) :
    TrafficAcceptedReport :=
  ⟨report.reportID,status,report.streamID,report.counterEpoch,report.periodKey,up,down⟩

def commitTrafficReportTx (serverID : Int) (agentInstanceID : String) (report : TrafficReport)
    (period : TrafficPeriod) (l : Ledger) :
    Except TrafficError (Ledger×TrafficAcceptedReport×TrafficStreamCheckpoint) :=
  if malformed report then .ok (l,answer report .rejected 0 0,.zero)
  else do
    let (l,stream) ← l.loadOrCreateTrafficStreamTx serverID agentInstanceID report
    let k := reportKey serverID report
    let out (status : AcceptStatus) :=
      answer report status stream.acceptedUploadBytes stream.acceptedDownloadBytes
    let checkpoint := streamCheckpoint k stream
    if report.reportID∈l.reports then return (l,out .duplicate,checkpoint)
    if l.rangeStored (reportRow serverID report) then return (l,out .covered,checkpoint)
    let status := validateTrafficCheckpoint report.fromUploadBytes report.toUploadBytes
      report.fromDownloadBytes report.toDownloadBytes stream.acceptedUploadBytes
      stream.acceptedDownloadBytes
    if status≠.accepted then
      let failed := {stream with status := status.text,lastError := status.text}
      return ({l with streams := l.streams.insert k failed},out status,
        {checkpoint with status := status.text,lastError := status.text})
    let l ← l.upsertPeriod (periodOrReport period report)
    match l.insertTrafficReport report.reportID (reportRow serverID report) with
    | none => return (l,out .covered,checkpoint)
    | some l =>
      return (l.bill serverID report stream,
        answer report .accepted report.toUploadBytes report.toDownloadBytes,
        {checkpoint with
          acceptedUpload := report.toUploadBytes
          acceptedDownload := report.toDownloadBytes
          status := trafficStreamHealthy
          lastError := ""})

def upsertTrafficStreamTx (serverID : Int) (agentInstanceID : String) (l : Ledger)
    (observation : TrafficStreamObservation) :
    Except TrafficError (Ledger×TrafficStreamCheckpoint) := do
  let (l,stream) ← l.upsertTrafficStreamTxReturn serverID agentInstanceID observation
  return (l,streamCheckpoint (observationKey serverID observation) stream)

/-- An observation that already names a broken stream is answered with that status. -/
def observedCheckpoint (observation : TrafficStreamObservation)
    (checkpoint : TrafficStreamCheckpoint) : TrafficStreamCheckpoint :=
  if observation.status∈["state_corrupt","counter_regression",AcceptStatus.checkpointGap.text,
      AcceptStatus.checkpointOverlap.text,AcceptStatus.epochConflict.text] then
    {checkpoint with status := observation.status}
  else checkpoint

/-- The denormalised user total. Without a period row the subquery is null and the
column refuses it. -/
def refreshUsedBytes (l : Ledger) (touched : Sigma fun _ : Int => String) :
    Except TrafficError (Ledger×Unit) :=
  match l.periods.lookup ⟨touched.1,touched.2⟩ with
  | none => if touched.1∈l.users then .error .usedBytesNull else .ok (l,())
  | some row =>
    let used := sqlAdd row.uploadBytes row.downloadBytes
    .ok ({l with users := l.users.modify touched.1 (fun _ => used)},())

/-- Users with an accepted report in the batch, each with the period of its last one. -/
def touchedUsers (reports : List TrafficReport) (answers : List TrafficAcceptedReport) :
    Table Int String :=
  (reports.zip answers).foldl (fun touched e =>
    if e.2.status=.accepted then touched.insert e.1.userID e.1.periodKey else touched) ∅

def touchUsers (l : Ledger) (touched : Table Int String) : Except TrafficError Ledger := do
  let (l,_) ← Runs.collect refreshUsedBytes l touched.entries
  return if touched.entries=[] then l else {l with policyRevision := l.policyRevision+1}

def seenCheckpoints (commit : TrafficLedgerCommit) (observed : List TrafficStreamCheckpoint)
    (reported : List TrafficStreamCheckpoint) : Table String TrafficStreamCheckpoint :=
  let seen := (commit.streams.zip observed).foldl (fun seen e =>
    seen.insert (trafficStreamKey e.1.source e.1.streamID e.1.counterEpoch e.1.periodKey)
      (observedCheckpoint e.1 e.2)) ∅
  (commit.reports.zip reported).foldl (fun seen e =>
    seen.insert (trafficStreamKey e.1.counterSource e.1.streamID e.1.counterEpoch e.1.periodKey)
      e.2) seen

def commitReport (commit : TrafficLedgerCommit) (l : Ledger) (report : TrafficReport) :
    Except TrafficError (Ledger×TrafficAcceptedReport×TrafficStreamCheckpoint) :=
  commitTrafficReportTx commit.serverID commit.agentInstanceID report
    (commit.periodFor report.userID report.periodKey) l

/-- One immediate transaction. An error rolls all of it back, so it returns no ledger. -/
def commitTrafficLedger (l : Ledger) (commit : TrafficLedgerCommit) :
    Except TrafficError (Ledger×TrafficLedgerResult) :=
  if commit.serverID≤0 then .error .serverIDRequired
  else do
    let (l,observed) ← Runs.collect
      (upsertTrafficStreamTx commit.serverID commit.agentInstanceID) l commit.streams
    let (l,answers) ← Runs.collect (commitReport commit) l commit.reports
    let acceptedReports := answers.map Prod.fst
    let l ← l.touchUsers (touchedUsers commit.reports acceptedReports)
    return (l,⟨seenCheckpoints commit observed (answers.map Prod.snd),acceptedReports⟩)

end Ledger

end Oboard.Store
