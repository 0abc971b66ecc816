import Mathlib.Data.List.Sort
import Mathlib.Data.List.Dedup
import Mathlib.Data.String.Basic
import Oboard.Framework.GoText
import Oboard.Framework.Table

namespace Oboard.Store

open GoText

inductive ProbeState where
  /-- The empty text. -/
  | unset
  | normal
  | candidate
  | confirmed
  | normalTraffic
  deriving DecidableEq

structure ConnectionAuditReport where
  reportID : String
  serverID : Int
  userID : Int
  inboundID : Option Int := none
  deviceIDHash : String := ""
  sourceIP : String := ""
  sourceCountryCode : String := ""
  connectionCount : Int
  closedCount : Int := 0
  durationMaxMS : Int := 0
  uploadBytes : Int := 0
  downloadBytes : Int := 0
  payloadFirstAt : Time := 0
  durationLE1SCount : Int := 0
  durationLE5SCount : Int := 0
  probeState : ProbeState := .unset
  internalProbe : Bool := false
  activePeak : Int := 0
  activeAtEnd : Int := 0
  collectionGeneration : Nat := 0
  bucketCapacity : Int := 1
  droppedBucketCount : Int := 0
  collectionEndedAt : Time
  startedAt : Time
  endedAt : Time

structure ConnectionProbeEpisode where
  id : String
  userID : Int
  deviceIDHash : String
  state : ProbeState
  score : Int
  nodeCount : Nat
  connectionCount : Int
  uploadBytes : Int
  downloadBytes : Int
  startedAt : Time
  endedAt : Time
  updatedAt : Time

structure HourAggregate where
  connectionCount : Int
  reportCount : Nat
  activePeak : Int
  uploadBytes : Int
  downloadBytes : Int
  lastEndedAt : String
  collectionCount : Nat
  droppedBucketCount : Int
  capacityTotal : Int
  deriving DecidableEq

structure HourDimensions where
  sourceIPs : List String := []
  servers : List String := []
  countries : List String := []
  complete : Bool := true
  deriving DecidableEq

/-- An hourly row with the rows of its dimensions, which are always replaced together. -/
structure HourlyRow where
  totals : HourAggregate
  dimensions : HourDimensions
  deriving DecidableEq

abbrev HourKey := Int×Time

structure AuditStore where
  reports : List ConnectionAuditReport := []
  episodes : List ConnectionProbeEpisode := []
  hourly : Table HourKey HourlyRow := ∅
  dirty : Table HourKey Time := ∅

/-- What the functions below take from outside: the masking of addresses, the digest of an episode,
the case mapping, and the order in which a query without `order by` returns its rows. -/
structure AuditEnv where
  auditSubnet : String → String
  episodeID : Int → String → Time → String
  toUpper : String → String
  scan : List (String×Int×String) → List (String×Int×String)

def connectionAuditHour (at_ : Time) : Time := at_/hour*hour

section dirty

/-- Marks of non-positive users and of the zero time are left out. -/
def markConnectionAuditHoursDirtyTx (ts : Time) (marks : List (Int×Time))
    (dirty : Table HourKey Time) : Table HourKey Time :=
  marks.foldl (fun dirty mark =>
    if mark.1≤0 ∨ mark.2=0 then dirty
    else dirty.insert (mark.1,connectionAuditHour mark.2) ts) dirty

end dirty

section insertion

inductive DiagnosticScope where
  | user
  | node
  | other
  deriving DecidableEq

structure AuditDiagnostic where
  scope : DiagnosticScope
  id : Int
  until_ : Time

structure AuditCollectionConfig where
  standard : Bool := false
  diagnostics : List AuditDiagnostic := []

def auditDetailGlobalLimit : Int := 100000
def auditDetailUserLimit : Int := 2000

structure AuditDetailBudget where
  standard : Bool
  nodes : List Int
  users : List Int
  globalRemaining : Option Int := none
  userRemaining : Table Int Int := ∅

def newAuditDetailBudget (config : AuditCollectionConfig) (at_ : Time) : AuditDetailBudget :=
  let active := config.diagnostics.filter (fun d => at_<d.until_)
  { standard := config.standard
    nodes := (active.filter (·.scope=.node)).map (·.id)
    users := (active.filter (·.scope=.user)).map (·.id)}

/-- Counts are read at most once for the table and once for each user. -/
def AuditDetailBudget.allowed (b : AuditDetailBudget) (reports : List ConnectionAuditReport)
    (serverID userID : Int) : Bool×AuditDetailBudget :=
  if !b.standard && !b.nodes.contains serverID && !b.users.contains userID then (false,b)
  else
    let global := b.globalRemaining.getD
      (auditDetailGlobalLimit-min (reports.length:Int) auditDetailGlobalLimit)
    let b := {b with globalRemaining := some global}
    if global=0 then (false,b)
    else
      let own := (reports.filter (·.userID=userID)).length
      let remaining := (b.userRemaining.lookup userID).getD
        (auditDetailUserLimit-min (own:Int) auditDetailUserLimit)
      (0<remaining,{b with userRemaining := b.userRemaining.insert userID remaining})

def AuditDetailBudget.inserted (b : AuditDetailBudget) (userID : Int) : AuditDetailBudget :=
  {b with
    globalRemaining := b.globalRemaining.map (·-1)
    userRemaining := b.userRemaining.modify userID (·-1)}

structure ConnectionAuditAddResult where
  acceptedReportIDs : List String := []
  insertedReportIDs : List String := []
  insertedUserIDs : List Int := []
  discardedDetailIDs : List String := []

/-- The hours that an inserted report is counted in or reaches into. -/
def dirtyHoursOf (report : ConnectionAuditReport) : List (Int×Time) :=
  (if report.startedAt≠0 then [(report.userID,report.startedAt)] else [])++
  (if report.endedAt≠0 ∧
      connectionAuditHour report.endedAt≠connectionAuditHour report.startedAt then
    [(report.userID,report.endedAt)] else [])

/-- What the loop over the reports carries along. The budget is made for the first new report. -/
structure Insertion where
  reports : List ConnectionAuditReport
  budget : Option AuditDetailBudget := none
  result : ConnectionAuditAddResult := {}
  affectedUsers : List Int := []
  dirtyHours : List (Int×Time) := []

/-- No configuration stands for a stored one that cannot be decoded. -/
def insertReport (config : Option AuditCollectionConfig) (budgetAt : Time) (i : Insertion)
    (report : ConnectionAuditReport) : Except String Insertion :=
  if trimSpace report.reportID="" ∨ report.serverID≤0 ∨ report.userID≤0 then .ok i
  else
    let accepted := {i.result with
      acceptedReportIDs := i.result.acceptedReportIDs++[report.reportID]}
    if i.reports.any (·.reportID=report.reportID) then .ok {i with result := accepted}
    else match i.budget.or (config.map (newAuditDetailBudget · budgetAt)) with
      | none => .error "invalid character in stored collection configuration"
      | some budget =>
        let (allowed,budget) := budget.allowed i.reports report.serverID report.userID
        if !allowed then
          .ok {i with
            budget := some budget
            result := {accepted with
              discardedDetailIDs := accepted.discardedDetailIDs++[report.reportID]}}
        else .ok {
          reports := i.reports++[report]
          budget := some (budget.inserted report.userID)
          result := {accepted with
            insertedReportIDs := accepted.insertedReportIDs++[report.reportID]}
          affectedUsers := i.affectedUsers.insert report.userID
          dirtyHours := i.dirtyHours++dirtyHoursOf report}

def addConnectionAuditReportsResult (now budgetAt : Time) (config : Option AuditCollectionConfig)
    (s : AuditStore) (reports : List ConnectionAuditReport) :
    Except String (AuditStore×ConnectionAuditAddResult) := do
  let i ← reports.foldlM (insertReport config budgetAt) {reports := s.reports}
  .ok ({s with
    reports := i.reports
    dirty := markConnectionAuditHoursDirtyTx now i.dirtyHours s.dirty},
    {i.result with insertedUserIDs := i.affectedUsers.insertionSort (·≤·)})

end insertion

section probes

variable (env : AuditEnv)

def connectionAuditProbeWindow : Int := 20*second

def identityKey (report : ConnectionAuditReport) : String :=
  let device := trimSpace report.deviceIDHash
  let legacy :=
    if device≠"" then ""
    else if env.auditSubnet report.sourceIP="" then trimSpace report.sourceIP
    else env.auditSubnet report.sourceIP
  toString report.userID++"\x00"++device++"\x00"++legacy

def connectionAuditNode (report : ConnectionAuditReport) : Int×Int :=
  (report.serverID,report.inboundID.getD 0)

/-- The row is one of the user's and ended at the instant or later, by the stored texts. -/
def endedSince (userID : Int) (since : Time) (report : ConnectionAuditReport) : Bool :=
  report.userID=userID && formatRFC3339Nano since≤formatRFC3339Nano report.endedAt

section

variable (reports : List ConnectionAuditReport) (userID : Int) (since : Time)

def connectionAuditAssignedNodes (key : String) : Nat :=
  (((reports.filter (fun r => endedSince userID since r && !r.internalProbe &&
    identityKey env r=key)).map connectionAuditNode).dedup).length

def listRecentConnectionAudits (limit : Nat) : List ConnectionAuditReport :=
  ((reports.filter (endedSince userID since)).insertionSort (fun a b =>
    formatRFC3339Nano b.endedAt≤formatRFC3339Nano a.endedAt)).take limit

def listConnectionAuditReportsStartedSince (limit : Nat) : List ConnectionAuditReport :=
  (listRecentConnectionAudits reports userID since limit).filter (fun r => since≤r.startedAt)

end

/-- A quarter of the assigned nodes rounded up, between four and eight. -/
def connectionProbeCandidateThreshold (assigned : Nat) : Nat := min 8 (max 4 ((assigned+3)/4))

/-- Twice the median. -/
def medianAuditValuesTwice (values : List Int) : Int :=
  let sorted := values.insertionSort (·≤·)
  let middle := sorted.length/2
  if sorted.length=0 then 0
  else if sorted.length%2=1 then 2*sorted.getD middle 0
  else sorted.getD (middle-1) 0+sorted.getD middle 0

structure ProbeTimes where
  startedAt : Time
  latestStart : Time
  endedAt : Time
  activeAfterBudget : Bool := false

def ProbeTimes.add (t : ProbeTimes) (report : ConnectionAuditReport) : ProbeTimes :=
  let startedAt := min report.startedAt t.startedAt
  { startedAt := startedAt
    latestStart := max report.startedAt t.latestStart
    endedAt := max report.endedAt t.endedAt
    activeAfterBudget := t.activeAfterBudget || (0<report.activeAtEnd &&
      startedAt+connectionAuditProbeWindow<report.collectionEndedAt)}

/-- No episode stands for the empty state. The shares of short connections are compared as
fractions, which agrees with floating point for all counts below 2^50. -/
def classifyConnectionProbeEpisode (userID : Int) (reports : List ConnectionAuditReport)
    (threshold : Nat) (at_ : Time) : Option ConnectionProbeEpisode :=
  match reports with
  | [] => none
  | first::_ =>
    let nodes := (reports.map connectionAuditNode).dedup
    let sumOf (f : ConnectionAuditReport → Int) (node : Int×Int) : Int :=
      ((reports.filter (connectionAuditNode ·=node)).map f).sum
    let connections := nodes.map (sumOf (·.connectionCount))
    let upload := (reports.map (·.uploadBytes)).sum
    let download := (reports.map (·.downloadBytes)).sum
    let closed := (reports.map (·.closedCount)).sum
    let shortClosed := (reports.map (fun r => r.durationLE1SCount+r.durationLE5SCount)).sum
    let times := reports.foldl ProbeTimes.add ⟨first.startedAt,first.startedAt,first.endedAt,false⟩
    if nodes.length<threshold then none
    else
      let cancelled := reports.any (fun r =>
          20000<r.durationMaxMS && 256*1024<r.uploadBytes+r.downloadBytes) ||
        4*1024*1024<upload+download || times.activeAfterBudget || connections.any (5<·)
      let median := medianAuditValuesTwice
        (nodes.map (sumOf (fun r => r.uploadBytes+r.downloadBytes)))
      let score : Int := 25+ (if times.latestStart-times.startedAt≤10*second then 15 else 0)+
        (if 0<closed ∧ 9*closed≤10*shortClosed then 20 else 0)+
        (if median≤2*(64*1024) ∧ upload+download≤4*1024*1024 then 20 else 0)+
        (if connections.any (3<·) then 0 else 10)+
        (if times.startedAt+connectionAuditProbeWindow≤at_ ∧ !times.activeAfterBudget then 10 else 0)
      some {
        id := env.episodeID userID (identityKey env first) times.startedAt
        userID := userID
        deviceIDHash := first.deviceIDHash
        state := if cancelled then .normalTraffic else if 75≤ score then .confirmed else .candidate
        score := min 100 score
        nodeCount := nodes.length
        connectionCount := (reports.map (·.connectionCount)).sum
        uploadBytes := upload
        downloadBytes := download
        startedAt := times.startedAt
        endedAt := times.endedAt
        updatedAt := at_}

/-- Reports in order of their start are cut where one starts after the window of the first. -/
def probeGroupsFrom (first : ConnectionAuditReport) (group : List ConnectionAuditReport) :
    List ConnectionAuditReport → List (List ConnectionAuditReport)
  | [] => [group.reverse]
  | report::rest =>
    if report.startedAt≤first.startedAt+connectionAuditProbeWindow then
      probeGroupsFrom first (report::group) rest
    else group.reverse::probeGroupsFrom report [report] rest

def probeGroups (items : List ConnectionAuditReport) : List (List ConnectionAuditReport) :=
  match items.insertionSort (fun a b => a.startedAt≤b.startedAt) with
  | [] => []
  | first::rest => probeGroupsFrom first [first] rest

def probeVerdicts (stored live : List ConnectionAuditReport) (userID : Int) (at_ : Time) :
    List (ConnectionProbeEpisode×List ConnectionAuditReport) :=
  (live.map (identityKey env)).dedup.flatMap fun key =>
    let threshold := connectionProbeCandidateThreshold
      (connectionAuditAssignedNodes env stored userID (at_-24*hour) key)
    (probeGroups (live.filter (identityKey env ·=key))).filterMap fun group =>
      (classifyConnectionProbeEpisode env userID group threshold at_).map (·,group)

def clearProbeState (userID : Int) (cutoff : Time) (report : ConnectionAuditReport) :
    ConnectionAuditReport :=
  if endedSince userID cutoff report && !report.internalProbe then {report with probeState := .unset}
  else report

def assignProbeState (report : ConnectionAuditReport) (state : ProbeState×List String) :
    ConnectionAuditReport :=
  if state.2.contains report.reportID then {report with probeState := state.1} else report

/-- The update statements of a refresh on one row. -/
def refreshReport (userID : Int) (cutoff : Time) (states : List (ProbeState×List String))
    (report : ConnectionAuditReport) : ConnectionAuditReport :=
  states.foldl assignProbeState (clearProbeState userID cutoff report)

def reportIDsByState (verdicts : List (ConnectionProbeEpisode×List ConnectionAuditReport)) :
    List (ProbeState×List String) :=
  [.candidate,.confirmed,.normalTraffic].map fun state =>
    (state,(verdicts.filter (·.1.state=state)).flatMap (·.2.map (·.reportID)))

def insertEpisode (episodes : List ConnectionProbeEpisode) (episode : ConnectionProbeEpisode) :
    Except String (List ConnectionProbeEpisode) :=
  if episodes.any (·.id=episode.id) then
    .error "UNIQUE constraint failed: connection_probe_episodes.id"
  else .ok (episodes++[episode])

def probeCutoff (at_ : Time) : Time := at_-600*second-connectionAuditProbeWindow

def probeScanLimit : Nat := 50000

def probeReports (s : AuditStore) (userID : Int) (at_ : Time) : List ConnectionAuditReport :=
  (listConnectionAuditReportsStartedSince s.reports userID (probeCutoff at_) probeScanLimit).filter
    (!·.internalProbe)

def probeStates (s : AuditStore) (userID : Int) (at_ : Time) : List (ProbeState×List String) :=
  reportIDsByState (probeVerdicts env s.reports (probeReports s userID at_) userID at_)

def refreshConnectionProbeEpisodes (now : Time) (s : AuditStore) (userID : Int) (at_ : Time) :
    Except String AuditStore := do
  if userID≤0 then .ok s
  else
    let cutoff := probeCutoff at_
    let live := probeReports s userID at_
    let verdicts := probeVerdicts env s.reports live userID at_
    let kept := s.episodes.filter (fun e =>
      !(e.userID=userID && formatRFC3339Nano cutoff≤formatRFC3339Nano e.endedAt))
    let episodes ← (verdicts.map (·.1)).foldlM insertEpisode kept
    let marks := verdicts.flatMap (·.2.map (fun r => (userID,r.startedAt)))++
      live.map (fun r => (userID,r.startedAt))
    .ok {s with
      episodes := episodes
      reports := s.reports.map (refreshReport userID cutoff (reportIDsByState verdicts))
      dirty := markConnectionAuditHoursDirtyTx now marks s.dirty}

end probes

section recompute

variable (env : AuditEnv)

/-- The filters of the rollup: an observed connection, in full. -/
def ConnectionAuditReport.counts (report : ConnectionAuditReport) : Bool :=
  !report.internalProbe && report.probeState≠.confirmed && report.probeState≠.candidate &&
    report.droppedBucketCount=0

def ConnectionAuditReport.startedIn (start : Time) (report : ConnectionAuditReport) : Bool :=
  formatRFC3339Nano start≤formatRFC3339Nano report.endedAt &&
  formatRFC3339Nano start≤formatRFC3339Nano report.startedAt &&
  formatRFC3339Nano report.startedAt<formatRFC3339Nano (start+hour)

def hourReports (reports : List ConnectionAuditReport) (key : HourKey) :
    List ConnectionAuditReport :=
  reports.filter (fun r => r.userID=key.1 && r.startedIn key.2 && r.counts)

def ConnectionAuditReport.hasPayload (report : ConnectionAuditReport) : Bool :=
  0<report.uploadBytes+report.downloadBytes && report.payloadFirstAt≠0

def ConnectionAuditReport.collection (report : ConnectionAuditReport) : String :=
  toString report.serverID++"\x00"++toString report.collectionGeneration++"\x00"++
    formatRFC3339Nano report.collectionEndedAt

def hourAggregate (reports : List ConnectionAuditReport) : HourAggregate where
  connectionCount := (reports.map (·.connectionCount)).sum
  reportCount := reports.length
  activePeak := (reports.map (·.activePeak)).max?.getD 0
  uploadBytes := (reports.map (fun r => if r.hasPayload then r.uploadBytes else 0)).sum
  downloadBytes := (reports.map (fun r => if r.hasPayload then r.downloadBytes else 0)).sum
  lastEndedAt := (reports.map (fun r => formatRFC3339Nano r.endedAt)).max?.getD ""
  collectionCount := (reports.map (·.collection)).dedup.length
  droppedBucketCount := (reports.map (·.droppedBucketCount)).sum
  capacityTotal := (reports.map (fun r => max r.bucketCapacity 1)).sum

def connectionAuditHourlyDimensionCap : Nat := 256

def addDimension (set : List String×Bool) (value : String) : List String×Bool :=
  if trimSpace value="" ∨ value∈set.1 then set
  else if connectionAuditHourlyDimensionCap≤ set.1.length then (set.1,false)
  else (set.1++[value],set.2)

def connectionAuditHourDimensions (reports : List ConnectionAuditReport) : HourDimensions :=
  let rows := env.scan (reports.map (fun r => (r.sourceIP,r.serverID,r.sourceCountryCode))).dedup
  let collect (values : List String) := values.foldl addDimension ([],true)
  let sourceIPs := collect (rows.map (·.1))
  let servers := collect (rows.map (fun r => toString r.2.1))
  let countries := collect (rows.map (fun r => env.toUpper (trimSpace r.2.2)))
  ⟨sourceIPs.1,servers.1,countries.1,sourceIPs.2 && servers.2 && countries.2⟩

/-- Where a recomputation stands: its mark is known, then the totals, then the dimensions are read,
and the row is written last. -/
inductive RecomputePhase where
  | listed
  | summed (totals : HourAggregate)
  | read (totals : HourAggregate) (dimensions : HourDimensions)
  | done

structure Recompute where
  key : HourKey
  dirtyAt : Time
  phase : RecomputePhase := .listed

/-- The last part of a recomputation. A mark that is newer than the one it was listed with stays. -/
def writeConnectionAuditHour (s : AuditStore) (key : HourKey) (dirtyAt : Time) (row : HourlyRow) :
    AuditStore :=
  let covered (k : HourKey) (at_ : Time) : Bool :=
    k=key && (dirtyAt=0 || formatRFC3339Nano at_≤formatRFC3339Nano dirtyAt)
  {s with hourly := s.hourly.insert key row,dirty := s.dirty.deleteRows covered}

def recomputeConnectionAuditHour (s : AuditStore) (job : Recompute) : AuditStore×Recompute :=
  match job.phase with
  | .listed =>
    if job.key.1≤0 then (s,{job with phase := .done})
    else (s,{job with phase := .summed (hourAggregate (hourReports s.reports job.key))})
  | .summed totals =>
    let dimensions := connectionAuditHourDimensions env (hourReports s.reports job.key)
    (s,{job with phase := .read totals dimensions})
  | .read totals dimensions =>
    (writeConnectionAuditHour s job.key job.dirtyAt ⟨totals,dimensions⟩,{job with phase := .done})
  | .done => (s,job)

end recompute

end Oboard.Store
