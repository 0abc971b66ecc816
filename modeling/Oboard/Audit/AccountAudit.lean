import Oboard.Activity.RiskEvaluation

namespace Oboard.Audit

open Runs Activity

inductive Risk where
  | activity
  | exposure
  deriving DecidableEq

structure SnapshotRow where
  revision : Int
  asOf : Int
  snapshot : RiskSnapshot

/-- The debounce counters of one account and risk, with the values a missing row stands for. -/
structure EventState where
  lastMinute : Int := 0
  high : Nat := 0
  low : Nat := 0
  cycle : Int := 0
  active : Bool := false
  version : String := ""

inductive EventStatus where
  | pending
  | recovered
  deriving DecidableEq

structure EventRow where
  userID : Int
  risk : Risk
  cycle : Int
  status : EventStatus := .pending
  score : Int
  firstSeenAt : Int
  lastSeenAt : Int
  snapshot : RiskSnapshot

inductive ReviewStatus where
  | pending
  | observing
  | handled
  | closed
  | falsePositive
  | other (text : String)
  deriving DecidableEq

structure WorkflowRow where
  revision : Int := 1
  status : ReviewStatus := .pending
  mutedUntil : Int := 0
  notifiedSeverity : Nat := 0

inductive NotificationStatus where
  | pending
  | leased
  | delivered
  | cancelled
  deriving DecidableEq

structure NotificationRow where
  eventID : Int
  revision : Int
  snapshot : RiskSnapshot
  status : NotificationStatus := .pending
  leaseToken : Int := 0
  leaseUntil : Int := 0
  createdAt : Int

structure ActionRow where
  eventID : Int
  revision : Int
  actor : String
  reason : String
  status : ReviewStatus
  expiresAt : Int
  createdAt : Int
  deriving DecidableEq

/-- The audit tables. Accounts are stored users, so that no save fails for a missing one. -/
structure AuditDB where
  snapshots : Table Int SnapshotRow := ∅
  states : Table (Int×Risk) EventState := ∅
  events : Table Int EventRow := ∅
  workflow : Table Int WorkflowRow := ∅
  notifications : Table Int NotificationRow := ∅
  actions : Table Int ActionRow := ∅
  dirty : Table Int Int := ∅

inductive AuditError where
  | invalidSnapshot
  | invalidWindow
  | invalidScore
  | snapshotTooLarge
  | snapshotCapacity
  | staleSnapshot
  | eventCapacity
  | notificationCapacity
  | noRows
  | uniqueConstraint
  | invalidClaim
  | invalidCompletion
  | staleLease
  | invalidReview
  | expiryRequired
  | actionCapacity
  | eventActionCapacity
  | revisionConflict
  | invalidRetention
  | invalidCleanupLimit
  deriving DecidableEq

def nextID {ρ : Type} (t : Table Int ρ) : Int := (t.rows.map (·.1)).foldr max 0+1

section dirty

/-- Work is coalesced into one row, whose revision stays above the saved snapshot. -/
def markAccountAuditDirty (db : AuditDB) (userID : Int) : AuditDB :=
  let revision := match db.dirty.lookup userID with
    | some revision => revision+1
    | none => ((db.snapshots.lookup userID).elim 0 SnapshotRow.revision)+1
  {db with dirty := db.dirty.insert userID revision}

/-- A mark that came after the saved revision stays. -/
def clearDirty (db : AuditDB) (userID revision : Int) : AuditDB :=
  {db with dirty := db.dirty.deleteRows (fun id r => id=userID && r≤revision)}

end dirty

section notifications

def severity (score : Int) : Nat := if 90≤ score then 2 else if 70≤ score then 1 else 0

def ReviewStatus.silent (status : ReviewStatus) : Bool :=
  status=.closed || status=.handled || status=.falsePositive

/-- A mute that ran out starts the review again. -/
def WorkflowRow.wake (now : Int) (w : WorkflowRow) : WorkflowRow :=
  if 0<w.mutedUntil ∧ w.mutedUntil≤unix now then
    {w with status := .pending,mutedUntil := 0,notifiedSeverity := 0,revision := w.revision+1}
  else w

def queueAccountAuditNotification (db : AuditDB) (eventID score : Int) (s : RiskSnapshot) (now : Int) :
    Except AuditError AuditDB :=
  let workflow := (db.workflow.putNew (eventID,{})).modify eventID (WorkflowRow.wake now)
  match workflow.lookup eventID with
  | none => .error .noRows
  | some w =>
    if severity score≤w.notifiedSeverity ∨ unix now<w.mutedUntil ∨ w.status.silent=true then
      .ok {db with workflow := workflow}
    else if 4096≤db.notifications.rows.length then .error .notificationCapacity
    else if db.notifications.rows.any (fun n => n.2.eventID=eventID && n.2.revision=w.revision+1) then
      .error .uniqueConstraint
    else
      let row : NotificationRow := {
        eventID := eventID
        revision := w.revision+1
        snapshot := s
        createdAt := unix now}
      let w := {w with notifiedSeverity := severity score,revision := w.revision+1}
      .ok {db with
        workflow := workflow.insert eventID w
        notifications := db.notifications.insert (nextID db.notifications) row}

def NotificationRow.live (n : NotificationRow) : Bool := n.status=.pending || n.status=.leased

def NotificationRow.cancel (n : NotificationRow) : NotificationRow :=
  if n.live then {n with status := .cancelled,leaseToken := n.leaseToken+1} else n

end notifications

section save

def minuteOf (s : RiskSnapshot) : Int := unix s.windowEnd/60

def versionOf (s : RiskSnapshot) : String :=
  s.policy.version++"/"++s.versions.model++"/"++s.versions.baseline++"/"++s.versions.source

def trusted (q : Quality) : Bool :=
  [q.identityTrusted,q.sourceUsable,q.deduplicated,q.measurementValid,q.timeAligned,q.freshness,
    q.capabilitySupported].all (·.state=.satisfied)

def complete (q : Quality) : Bool :=
  trusted q && q.coverageComplete.state=.satisfied && q.sourceSetComplete.state=.satisfied

def riskScore (s : RiskSnapshot) : Risk → Option Score
  | .activity => s.activity
  | .exposure => s.exposure

def highNow (risk : Risk) (s : RiskSnapshot) : Bool :=
  trusted s.quality && (riskScore s risk).any (fun score => 70≤ score.lower)

def lowNow (risk : Risk) (s : RiskSnapshot) : Bool :=
  complete s.quality && (riskScore s risk).any (fun score => score.upper<40) &&
  (risk≠.exposure || s.quality.historyComplete.state=.satisfied)

/-- The counters after one more minute, which starts them anew after a gap or a new version. -/
def EventState.count (st : EventState) (risk : Risk) (s : RiskSnapshot) : EventState :=
  let st := if minuteOf s≠st.lastMinute+1 ∨ versionOf s≠st.version then {st with high := 0,low := 0}
    else st
  {st with
    high := if highNow risk s then min (st.high+1) 2 else 0
    low := if lowNow risk s then min (st.low+1) 10 else 0}

def occurrence (risk : Risk) (s : RiskSnapshot) : Option Int :=
  if highNow risk s ∧ s.features.evidenceCutoff≠zeroTime ∧ s.features.evidenceCutoff≤ s.asOf then
    some s.features.evidenceCutoff
  else none

def lowerScore (risk : Risk) (s : RiskSnapshot) : Option Int := (riskScore s risk).map Score.lower

def EventRow.ofCycle (e : EventRow) (userID : Int) (risk : Risk) (cycle : Int) : Bool :=
  e.userID=userID && e.risk=risk && e.cycle=cycle

variable (db : AuditDB) (st : EventState) (risk : Risk) (s : RiskSnapshot)

def eventIDs (userID cycle : Int) : List Int :=
  (db.events.rows.filter (fun e => e.2.ofCycle userID risk cycle)).map (·.1)

def openEvent : Except AuditError (AuditDB×EventState) :=
  if st.active=false ∧ 2≤ st.high then
    let cycle := st.cycle+1
    if 4096≤db.events.rows.length then .error .eventCapacity
    else if eventIDs db risk s.accountID cycle≠[] then .error .uniqueConstraint
    else
      let first := (occurrence risk s).getD s.asOf
      let row : EventRow := {
        userID := s.accountID
        risk := risk
        cycle := cycle
        score := (lowerScore risk s).getD 0
        firstSeenAt := first
        lastSeenAt := first
        snapshot := s}
      .ok ({db with events := db.events.insert (nextID db.events) row},
        {st with cycle := cycle,active := true})
  else .ok (db,st)

def EventRow.seen (e : EventRow) (risk : Risk) (s : RiskSnapshot) (status : EventStatus) : EventRow :=
  {e with
    status := status
    score := (lowerScore risk s).getD e.score
    lastSeenAt := (occurrence risk s).elim e.lastSeenAt (max e.lastSeenAt)
    snapshot := s}

/-- The minute is entered into the event of the running cycle, which ends after ten low ones. -/
def advanceEvent : AuditDB×EventState :=
  if st.active then
    let ids := eventIDs db risk s.accountID st.cycle
    let workflow := (ids.map (fun id => (id,({} : WorkflowRow)))).foldl Table.putNew db.workflow
    let recovered : Bool := 10≤ st.low
    let db := {db with
      workflow := workflow.mapRows (fun id w =>
        if ids.contains id then {w with revision := w.revision+1} else w)
      events := db.events.mapRows (fun _ e =>
        if e.ofCycle s.accountID risk st.cycle then
          e.seen risk s (if recovered then .recovered else .pending)
        else e)}
    (db,if recovered then {st with active := false,high := 0,low := 0} else st)
  else (db,st)

def notifyEvent : Except AuditError AuditDB :=
  if st.active=true ∧ highNow risk s=true then
    match eventIDs db risk s.accountID st.cycle with
    | [] => .error .noRows
    | id::_ => queueAccountAuditNotification db id ((lowerScore risk s).getD 0) s s.asOf
  else .ok db

def cancelNotifications : AuditDB :=
  if st.active then db
  else {db with
    notifications := db.notifications.mapRows (fun _ n =>
      if (eventIDs db risk s.accountID st.cycle).contains n.eventID then n.cancel else n)}

def stateOf (userID : Int) (risk : Risk) : EventState := (db.states.lookup (userID,risk)).getD {}

def saveRisk : Except AuditError AuditDB := do
  let st := stateOf db s.accountID risk
  if minuteOf s≤ st.lastMinute then .ok db
  else
    let (db,st) ← openEvent db (st.count risk s) risk s
    let (db,st) := advanceEvent db st risk s
    let db ← notifyEvent db st risk s
    let db := cancelNotifications db st risk s
    let st := {st with lastMinute := minuteOf s,version := versionOf s}
    .ok {db with states := db.states.insert (s.accountID,risk) st}

/-- A deleted event takes the rows that refer to it with it. -/
def deleteEvents (p : Int → EventRow → Bool) : AuditDB :=
  let gone := fun id => (db.events.lookup id).any (p id)
  {db with
    events := db.events.deleteRows p
    workflow := db.workflow.deleteRows (fun id _ => gone id)
    notifications := db.notifications.deleteRows (fun _ n => gone n.eventID)
    actions := db.actions.deleteRows (fun _ a => gone a.eventID)}

/-- Of the recovered events of an account only those among its 64 newest events stay. -/
def evictEvents (userID : Int) : AuditDB :=
  let mine := (db.events.rows.filter (fun e => e.2.userID=userID)).map (·.1)
  let newest := (mine.insertionSort (· ≥ ·)).take 64
  deleteEvents db (fun id e => e.userID=userID && e.status=.recovered && !newest.contains id)

def validScore (score : Score) : Bool :=
  0≤ score.lower && score.upper≤100 && score.lower≤ score.upper

variable (size : RiskSnapshot → Nat)

section

variable (revision : Int)

def checkSnapshot : Except AuditError Unit :=
  if s.accountID≤0 ∨ revision≤0 ∨ s.asOf=zeroTime ∨ s.windowEnd=zeroTime ∨
      s.automaticActionEligible=true then .error .invalidSnapshot
  else if s.asOf<s.windowEnd ∨ s.windowEnd≠truncate s.windowEnd minuteNanos ∨
      s.windowStart≠s.windowEnd-30*minuteNanos then .error .invalidWindow
  else if [s.activity,s.exposure,s.resource,s.attention].any (fun score => !score.all validScore) then
    .error .invalidScore
  else if 65536<size s then .error .snapshotTooLarge
  else .ok ()

def checkPrevious : Except AuditError Unit :=
  match db.snapshots.lookup s.accountID with
  | none => if 4096≤db.snapshots.rows.length then .error .snapshotCapacity else .ok ()
  | some old => if revision≤old.revision ∨ s.asOf<old.asOf then .error .staleSnapshot else .ok ()

def storeSnapshot : AuditDB :=
  let row : SnapshotRow := {revision := revision,asOf := s.asOf,snapshot := s}
  {db with snapshots := db.snapshots.insert s.accountID row}

def saveAccountAuditSnapshot : Except AuditError AuditDB := do
  checkSnapshot s size revision
  checkPrevious db s revision
  let db ← [Risk.activity,Risk.exposure].foldlM (fun db risk => saveRisk db risk s)
    (storeSnapshot db s revision)
  .ok (clearDirty (evictEvents db s.accountID) s.accountID revision)

end

end save

section delivery

structure AccountAuditNotification where
  id : Int
  eventID : Int
  userID : Int
  risk : Risk
  revision : Int
  leaseToken : Int
  snapshot : RiskSnapshot

variable (db : AuditDB)

def claimable (now : Int) (n : NotificationRow) : Bool :=
  (n.status=.pending || (n.status=.leased && n.leaseUntil≤unix now)) &&
  (db.workflow.lookup n.eventID).any (fun w => w.mutedUntil≤unix now && !w.status.silent) &&
  (db.events.lookup n.eventID).any (fun e => e.status≠.recovered)

def firstIDs {ρ : Type} (t : Table Int ρ) (p : ρ → Bool) (limit : Int) : List Int :=
  (((t.rows.filter (fun r => p r.2)).map (·.1)).insertionSort (· ≤ ·)).take limit.toNat

def NotificationRow.lease (n : NotificationRow) (now : Int) : NotificationRow :=
  {n with
    status := .leased
    leaseToken := n.leaseToken+1
    leaseUntil := unix (now+2*minuteNanos)}

def claimAccountAuditNotifications (now limit : Int) :
    Except AuditError (AuditDB×List AccountAuditNotification) :=
  if now=zeroTime ∨ limit<1 ∨ 100<limit then .error .invalidClaim
  else
    let ids := firstIDs db.notifications (claimable db now) limit
    let notifications := db.notifications.mapRows (fun id n =>
      if ids.contains id then n.lease now else n)
    let claimed := ids.filterMap (fun id =>
      (notifications.lookup id).bind (fun n => (db.events.lookup n.eventID).map (fun e =>
        ⟨id,n.eventID,e.userID,e.risk,n.revision,n.leaseToken,n.snapshot⟩)))
    .ok ({db with notifications := notifications},claimed)

def completeAccountAuditNotification (id leaseToken now : Int) (delivered : Bool) :
    Except AuditError AuditDB :=
  if id≤0 ∨ leaseToken≤0 ∨ now=zeroTime then .error .invalidCompletion
  else
    let status : NotificationStatus := if delivered then .delivered else .pending
    match db.notifications.lookup id with
    | none => .error .staleLease
    | some n =>
      if n.leaseToken=leaseToken ∧ n.status=.leased ∧ unix now<n.leaseUntil then
        let n := {n with status := status,leaseUntil := 0}
        .ok {db with notifications := db.notifications.insert id n}
      else if n.status=status ∧ n.leaseToken=leaseToken then .ok db
      else .error .staleLease

end delivery

section review

def validAuditStatus : ReviewStatus → Bool
  | .other _ => false
  | _ => true

structure Review where
  eventID : Int
  expectedRevision : Int
  status : ReviewStatus
  actor : String
  reason : String
  expiry : Int
  now : Int

variable (db : AuditDB) (r : Review)

def Review.check : Except AuditError Unit :=
  let actor := GoText.trimSpace r.actor
  let reason := GoText.trimSpace r.reason
  if r.eventID≤0 ∨ r.expectedRevision≤0 ∨ validAuditStatus r.status=false ∨ actor="" ∨
      256<actor.utf8ByteSize ∨ reason="" ∨ 2048<reason.utf8ByteSize ∨ r.now=zeroTime ∨
      (r.expiry≠zeroTime ∧ (r.expiry≤r.now ∨ r.now+30*24*60*minuteNanos<r.expiry)) then
    .error .invalidReview
  else if (r.status=.observing ∨ r.status=.falsePositive) ∧ r.expiry=zeroTime then
    .error .expiryRequired
  else .ok ()

def Review.until : Int := if r.expiry=zeroTime then 0 else unix r.expiry

/-- The action this review leaves behind, whoever asks again. -/
def Review.action : ActionRow where
  eventID := r.eventID
  revision := r.expectedRevision+1
  actor := GoText.trimSpace r.actor
  reason := GoText.trimSpace r.reason
  status := r.status
  expiresAt := r.until
  createdAt := unix r.now

/-- The same review was entered before and is still the last change. -/
def Review.replayed : Bool :=
  (db.workflow.lookup r.eventID).any (fun w => w.revision=r.expectedRevision+1) &&
  (db.actions.rows.filter (fun a => {a.2 with createdAt := unix r.now}=r.action)).length=1

def setAccountAuditEventStatus : Except AuditError AuditDB := do
  r.check
  if r.replayed db then .ok db
  else if 16384≤db.actions.rows.length then .error .actionCapacity
  else if 256≤(db.actions.rows.filter (fun a => a.2.eventID=r.eventID)).length then
    .error .eventActionCapacity
  else match db.workflow.lookup r.eventID with
    | none => .error .revisionConflict
    | some w =>
      if w.revision≠r.expectedRevision then .error .revisionConflict
      else if db.actions.rows.any (fun a => a.2.eventID=r.eventID && a.2.revision=r.expectedRevision+1)
        then .error .uniqueConstraint
      else
        let w := {w with revision := w.revision+1,status := r.status,mutedUntil := r.until}
        .ok {db with
          workflow := db.workflow.insert r.eventID w
          actions := db.actions.insert (nextID db.actions) r.action
          notifications := db.notifications.mapRows (fun _ n =>
            if n.eventID=r.eventID then n.cancel else n)}

end review

section cleanup

variable (db : AuditDB)

def cleanupAccountAuditHistory (before limit : Int) : Except AuditError AuditDB :=
  if before=zeroTime ∨ limit<1 ∨ 500<limit then .error .invalidRetention
  else
    let expired := firstIDs db.events (fun e => e.status=.recovered && e.lastSeenAt<before) limit
    let db := deleteEvents db (fun id e => e.status=.recovered && expired.contains id)
    .ok {db with
      snapshots := db.snapshots.deleteLimited (fun ids => ids.insertionSort (· ≤ ·)) limit.toNat
        (fun userID row => row.asOf<before && (db.dirty.lookup userID).isNone &&
          !(stateOf db userID .activity).active && !(stateOf db userID .exposure).active)}

def cleanupAccountAuditNotifications (before limit : Int) : Except AuditError AuditDB :=
  if limit<1 ∨ 500<limit then .error .invalidCleanupLimit
  else
    let old := firstIDs db.notifications (fun n => !n.live && n.createdAt<unix before) limit
    .ok {db with notifications := db.notifications.deleteRows (fun id n => !n.live && old.contains id)}

end cleanup

section moves

inductive AuditMove where
  | mark (userID : Int)
  | save (s : RiskSnapshot) (revision : Int)
  | review (r : Review)
  | claim (now limit : Int)
  | complete (id leaseToken now : Int) (delivered : Bool)
  | cleanHistory (before limit : Int)
  | cleanNotifications (before limit : Int)

variable (size : RiskSnapshot → Nat) (db : AuditDB)

def auditMove : AuditMove → Except AuditError (AuditDB×List RiskSnapshot)
  | .mark userID => .ok (markAccountAuditDirty db userID,[])
  | .save s revision => do
    let db ← saveAccountAuditSnapshot db s size revision
    .ok (db,[s])
  | .review r => do
    let db ← setAccountAuditEventStatus db r
    .ok (db,[])
  | .claim now limit => do
    let claimed ← claimAccountAuditNotifications db now limit
    .ok (claimed.1,[])
  | .complete id leaseToken now delivered => do
    let db ← completeAccountAuditNotification db id leaseToken now delivered
    .ok (db,[])
  | .cleanHistory before limit => do
    let db ← cleanupAccountAuditHistory db before limit
    .ok (db,[])
  | .cleanNotifications before limit => do
    let db ← cleanupAccountAuditNotifications db before limit
    .ok (db,[])

def auditStep (move : AuditMove) : AuditDB×List RiskSnapshot :=
  keepOnError (db,[]) (auditMove size db move)

end moves

end Oboard.Audit
