import Oboard.Store.AuthorizationRevoke
import Oboard.Store.RuntimeUserStates
import Oboard.Store.ConfigurationSync

namespace Oboard.Store

open GoText Runs

inductive ServerStatus where
  | unknown
  | online
  | offline
  | degraded
  deriving DecidableEq

/-- The columns of servers that enrolment and retirement read. The empty text stands for null. -/
structure EnrolledServer where
  agentID : String := ""
  enrollmentHash : String := ""
  enrollmentExpiresAt : Option Time := none
  status : ServerStatus := .unknown

inductive DeviceCredentialStatus where
  | active
  | revoked
  deriving DecidableEq

/-- One row of proxy_credentials, keyed by its id. -/
structure DeviceCredential where
  userID : Int
  deviceIDHash : String
  status : DeviceCredentialStatus := .active
  materialEncrypted : String := ""
  revokedAt : Option Time := none

inductive RetirementState where
  | review
  | transition
  | credentialRevoking
  | awaitingNodeConfirmation
  | complete
  deriving DecidableEq

structure DeviceRetirementBatch where
  state : RetirementState := .review
  deadline : Time
  actor : String
  reason : String
  createdAt : Time
  revokedAt : Option Time := none
  deploymentVersion : Int := 0

inductive RetirementDecision where
  | pending
  | accountAuthorized
  | retainRestriction
  deriving DecidableEq

structure RetirementAccount where
  decision : RetirementDecision := .pending
  reason : String := ""

structure RetirementTarget where
  authorizationRevision : Int := 0
  usersRevision : Int := 0

structure RetirementReview where
  reasonCode : String
  createdAt : Time

/-- The columns of configuration_sync_states that finalize reads. -/
structure RetirementSync where
  state : SyncState
  lastConfigVersion : Int

/-- Tables that other parts of the store write between two retirement calls. -/
structure RetirementContext where
  credentials : Table String DeviceCredential := ∅
  deviceUsers : List Int := []
  initialGrace : Option Time := none
  reviews : Table Int RetirementReview := ∅
  syncStates : Table Int RetirementSync := ∅
  tasks : List AgentTask := []
  routingRevision : Nat := 0
  configurationRevision : Nat := 0

structure RetirementStore extends RetirementContext where
  servers : Table Int EnrolledServer := ∅
  serverSequence : Int := 0
  authorization : AuthorizationLedger := {}
  users : RuntimeUserLedger := {}
  batches : Table Int DeviceRetirementBatch := ∅
  accounts : Table (Int×Int) RetirementAccount := ∅
  scopes : Table (Int×String) Int := ∅
  nodes : Table (Int×Int) Unit := ∅
  targets : Table (Int×Int) RetirementTarget := ∅

inductive Lane where
  | authorization
  | users
  deriving DecidableEq

structure LaneState where
  desiredRevision : Int := 0
  desiredDigest : String := ""
  confirmedRevision : Int := 0
  confirmedDigest : String := ""
  confirmedAt : Option Time := none

def AuthorizationState.lane (st : AuthorizationState) : LaneState :=
  ⟨st.desiredRevision,st.desiredDigest,st.confirmedRevision,st.confirmedDigest,st.confirmedAt⟩

def RuntimeUserState.lane (st : RuntimeUserState) : LaneState :=
  ⟨st.desiredRevision,st.desiredDigest,st.confirmedRevision,st.confirmedDigest,st.confirmedAt⟩

def RetirementTarget.revision (t : RetirementTarget) : Lane → Int
  | .authorization => t.authorizationRevision
  | .users => t.usersRevision

namespace RetirementStore

section

variable (db : RetirementStore)

def hasLane (lane : Lane) (serverID : Int) : Bool :=
  match lane with
  | .authorization => (db.authorization.states.lookup serverID).isSome
  | .users => (db.users.states.lookup serverID).isSome

/-- The lane of a server. A missing row reads as the zero state. -/
def lane (lane : Lane) (serverID : Int) : LaneState :=
  match lane with
  | .authorization => (db.authorization.state serverID).lane
  | .users => (db.users.state serverID).lane

def enrolled (serverID : Int) : Bool :=
  match db.servers.lookup serverID with
  | none => false
  | some server => server.agentID≠""

/-- All enrolled servers are added to a batch that may have some of them. -/
def enrolNodes (id : Int) : Table (Int×Int) Unit :=
  ((db.servers.rows.filter (fun row => row.2.agentID≠"")).map (fun row => ((id,row.1),()))).foldl
    Table.putNew db.nodes

end

def nodeServers (nodes : Table (Int×Int) Unit) (id : Int) : List Int :=
  (nodes.rows.filter (fun row => row.1.1=id)).map (·.1.2)

end RetirementStore

def retirementLimit : Int := 14*24*hour

section

variable (db : RetirementStore)

def startDeviceRetirement (actor reason : String) (deadline at_ : Time) :
    Except String (RetirementStore×Int) :=
  if trimSpace actor="" ∨ trimSpace reason="" ∨ 500<reason.utf8ByteSize ∨ deadline≤at_ ∨
      at_+retirementLimit<deadline then
    .error "actor, reason and a future deadline within 14 days are required"
  else if db.batches.rows.any (fun row => row.2.state≠.complete) then
    .error "a retirement batch already exists"
  else if db.batches.rows≠[] then
    .error "retirement has already completed; its deadline cannot be renewed"
  else
    let deadline := match db.initialGrace with
      | some end_ => if end_<deadline then end_ else deadline
      | none => deadline
    let id := 1
    let users := db.deviceUsers++
      (db.credentials.rows.filter (fun row => row.2.deviceIDHash≠"")).map (·.2.userID)
    .ok ({db with
      batches := db.batches.insert id ⟨.review,deadline,actor,reason,at_,none,0⟩
      accounts := (users.map (fun user => ((id,user),{}))).foldl Table.putNew db.accounts
      nodes := db.enrolNodes id},id)

def RetirementStore.batchState (id : Int) : Option RetirementState :=
  (db.batches.lookup id).map (·.state)

/-- The scopes that an authorized account keeps: its active device credentials. -/
def reviewedScopes (id userID : Int) : List ((Int×String)×Int) :=
  (db.credentials.rows.filter (fun row => row.2.userID=userID && row.2.deviceIDHash≠"" &&
    row.2.status=.active)).map (fun row => ((id,row.1),userID))

def reviewDeviceRetirement (id userID : Int) (decision : RetirementDecision)
    (reason : String) : Except String RetirementStore :=
  if decision=.pending ∨ trimSpace reason="" ∨ 500<reason.utf8ByteSize then
    .error "explicit decision and reason are required"
  else if db.batchState id≠some .review ∨ (db.accounts.lookup (id,userID)).isNone then
    .error "account is not awaiting review"
  else
    let scopes := db.scopes.deleteRows (fun key user => key.1=id && user=userID)
    let kept := if decision=.accountAuthorized then reviewedScopes db id userID else []
    if kept.any (fun row => (scopes.lookup row.1).isSome) then
      .error "UNIQUE constraint failed: device_retirement_scopes"
    else .ok {db with
      accounts := db.accounts.modify (id,userID) (fun _ => ⟨decision,reason⟩)
      scopes := kept.foldl Table.putNew scopes}

def RetirementStore.decided (id : Int) (decision : RetirementDecision) : List Int :=
  (db.accounts.rows.filter (fun row => row.1.1=id && row.2.decision=decision)).map (·.1.2)

end

/-- The upsert of a retained restriction keeps the creation time of an earlier review. -/
def retainReview (at_ : Time) (reviews : Table Int RetirementReview) (userID : Int) :
    Table Int RetirementReview :=
  match reviews.lookup userID with
  | none => reviews.insert userID ⟨"administrator_retained_restriction",at_⟩
  | some review =>
    reviews.insert userID {review with reasonCode := "administrator_retained_restriction"}

def beginDeviceRetirementTransition (db : RetirementStore) (id : Int) (at_ : Time) :
    Except String RetirementStore :=
  match db.batches.lookup id with
  | none => .error "sql: no rows in result set"
  | some batch =>
    if batch.state≠.review then .error "sql: no rows in result set"
    else if batch.deadline≤at_ then .error "transition deadline has expired"
    else if db.decided id .pending≠[] then .error "all accounts require explicit review"
    else
      let authorized := db.decided id .accountAuthorized
      let reviews := db.reviews.deleteRows (fun user _ => user∈authorized)
      .ok {db with
        reviews := (db.decided id .retainRestriction).foldl (retainReview at_) reviews
        batches := db.batches.insert id {batch with state := .transition}
        routingRevision := db.routingRevision+1
        configurationRevision := db.configurationRevision+1}

def revokeCredential (stamp : Time) (credential : DeviceCredential) : DeviceCredential :=
  {credential with status := .revoked,materialEncrypted := "",revokedAt := some stamp}

/-- A stored lane has to confirm a revision above the desired one, a missing lane any. -/
def revokeTarget (db : RetirementStore) (serverID : Int) : RetirementTarget where
  authorizationRevision := match db.authorization.states.lookup serverID with
    | none => 0
    | some row => row.desiredRevision+1
  usersRevision := match db.users.states.lookup serverID with
    | none => 0
    | some row => row.desiredRevision+1

/-- The confirmed sequence and the boot id stay. -/
def resetAuthorization (row : AuthorizationState) : AuthorizationState :=
  {row with
    desiredDigest := ""
    evaluatedRoutingRevision := 0
    confirmedRevision := 0
    confirmedDigest := ""
    confirmedAt := none}

def resetUsers (row : RuntimeUserState) : RuntimeUserState :=
  {row with
    desiredDigest := ""
    evaluatedRoutingRevision := 0
    confirmedRevision := 0
    confirmedDigest := ""
    confirmedAt := none}

def resetAuthorizationLanes (l : AuthorizationLedger) (servers : List Int) : AuthorizationLedger :=
  {l with states := l.states.mapRows (fun id row => if id∈servers then resetAuthorization row else row)}

def resetUserLanes (l : RuntimeUserLedger) (servers : List Int) : RuntimeUserLedger :=
  ⟨l.states.mapRows (fun id row => if id∈servers then resetUsers row else row)⟩

section

variable (db : RetirementStore)

def revokeCredentials (id : Int) (stamp : Time) : Table String DeviceCredential :=
  db.credentials.mapRows (fun _ credential =>
    if credential.deviceIDHash≠"" ∧ (db.accounts.lookup (id,credential.userID)).isSome then
      revokeCredential stamp credential else credential)

/-- The writes of a revoke: the targets are read before the lanes start over. -/
def RetirementStore.revokeBatch (id : Int) (batch : DeviceRetirementBatch)
    (stamp : Time) : RetirementStore :=
  let nodes := db.enrolNodes id
  let servers := nodeServers nodes id
  {db with
    nodes := nodes
    credentials := revokeCredentials db id stamp
    targets := (servers.map (fun s => ((id,s),revokeTarget db s))).foldl Table.putNew db.targets
    authorization := resetAuthorizationLanes db.authorization servers
    users := resetUserLanes db.users servers
    routingRevision := db.routingRevision+1
    configurationRevision := db.configurationRevision+1
    batches := db.batches.insert id {batch with
      state := .credentialRevoking,revokedAt := some stamp}}

def revokeDeviceRetirement (id : Int) (at_ : Time) : Except String RetirementStore :=
  match db.batches.lookup id with
  | none => .error "sql: no rows in result set"
  | some batch =>
    match batch.state with
    | .credentialRevoking | .awaitingNodeConfirmation | .complete => .ok db
    | .review => .error "batch is not in transition"
    | .transition =>
      if (RetirementStore.nodeServers (db.enrolNodes id) id).any
          (fun s => (db.targets.lookup (id,s)).isSome) then
        .error "UNIQUE constraint failed: device_retirement_targets"
      else .ok (db.revokeBatch id batch at_)

/-- A node that joined after the revoke has to confirm what is desired of it now. -/
def bindTarget (serverID : Int) : RetirementTarget where
  authorizationRevision := (db.authorization.state serverID).desiredRevision
  usersRevision := (db.users.state serverID).desiredRevision

def bindDeviceRetirementDeployment (id version : Int) : Except String RetirementStore :=
  if version≤0 then .error "positive deployment version required"
  else match db.batches.lookup id with
    | none => .error "batch is not awaiting deployment"
    | some batch =>
      if (batch.state=.credentialRevoking ∨ batch.state=.awaitingNodeConfirmation) ∧
          batch.deploymentVersion<version then
        let nodes := db.enrolNodes id
        let servers := RetirementStore.nodeServers nodes id
        .ok {db with
          batches := db.batches.insert id {batch with
            deploymentVersion := version,state := .awaitingNodeConfirmation}
          nodes := nodes
          targets := (servers.map (fun s => ((id,s),bindTarget db s))).foldl Table.putNew db.targets}
      else .error "batch is not awaiting deployment"

end

/-- A confirmation that is missing or precedes the revoke. -/
def confirmedBefore (confirmedAt revoked : Option Time) : Bool :=
  match revoked,confirmedAt with
  | none,_ => false
  | some _,none => true
  | some r,some c => c<r

section

variable (db : RetirementStore)

def lanePending (lane : Lane) (serverID target : Int) (revoked : Option Time) : Bool :=
  let st := db.lane lane serverID
  !db.hasLane lane serverID || st.confirmedRevision≤0 || st.confirmedRevision<target ||
    st.confirmedRevision<st.desiredRevision || st.confirmedDigest≠st.desiredDigest ||
    confirmedBefore st.confirmedAt revoked

/-- The server does not run a signed deployment of the version or a later one. -/
def deploymentPending (serverID version : Int) : Bool :=
  match db.syncStates.lookup serverID with
  | none => true
  | some sync => sync.state≠.synced || sync.lastConfigVersion<version ||
    !db.tasks.any (fun task => task.serverID=serverID && task.taskType=.applyDeployment &&
      task.status=.succeeded && task.configVersion=sync.lastConfigVersion)

def nodePending (id serverID version : Int) (revoked : Option Time) : Bool :=
  match db.targets.lookup (id,serverID),db.servers.lookup serverID with
  | some target,some server => server.status≠.online || deploymentPending db serverID version ||
    lanePending db .authorization serverID target.authorizationRevision revoked ||
    lanePending db .users serverID target.usersRevision revoked
  | _,_ => true

def finalizeDeviceRetirement (id : Int) : Except String RetirementStore :=
  match db.batches.lookup id with
  | none => .error "sql: no rows in result set"
  | some batch =>
    if batch.state=.complete then .ok db
    else if batch.state≠.awaitingNodeConfirmation ∨ batch.deploymentVersion≤0 then
      .error "node confirmation has not started"
    else if (RetirementStore.nodeServers db.nodes id).any
        (fun s => nodePending db id s batch.deploymentVersion batch.revokedAt) then
      .error "node revocation confirmation is incomplete"
    else if db.servers.rows.any
        (fun row => row.2.agentID≠"" && (db.nodes.lookup (id,row.1)).isNone) then
      .error "fleet changed after revocation; a new signed deployment is required"
    else .ok {db with batches := db.batches.insert id {batch with state := .complete}}

/-- A reused id keeps nothing of the server that had it. -/
def RetirementStore.releaseServer (serverID : Int) : RetirementStore :=
  {db with
    targets := db.targets.deleteRows (fun key _ => key.2=serverID)
    nodes := db.nodes.deleteRows (fun key _ => key.2=serverID)}

def RetirementStore.agentTaken (serverID : Int) (agentID : String) : Bool :=
  agentID≠"" && db.servers.rows.any (fun row => row.1≠serverID && row.2.agentID=agentID)

/-- The id is a free one, a recycled one is released first. -/
def createServer (id : Int) (server : EnrolledServer) : RetirementStore :=
  if id≤0 ∨ (db.servers.lookup id).isSome ∨ db.agentTaken id server.agentID then db
  else
    let tx := if id≤db.serverSequence then db.releaseServer id else db
    {tx with
      servers := tx.servers.insert id server
      serverSequence := if tx.serverSequence< id then id else tx.serverSequence}

/-- Empty texts keep the stored agent id and enrolment hash. -/
def saveServer (id : Int) (agentID enrollmentHash : String)
    (status : ServerStatus) : RetirementStore :=
  if db.agentTaken id agentID then db
  else {db with servers := db.servers.modify id (fun server =>
    {server with
      agentID := if agentID="" then server.agentID else agentID
      enrollmentHash := if enrollmentHash="" then server.enrollmentHash else enrollmentHash
      status := status})}

end

def clearDeliveredAuthorization (row : AuthorizationState) : AuthorizationState :=
  {row with
    deliveredRevision := 0
    deliveredSequence := 0
    deliveredMessageID := ""
    deliveredAt := none
    confirmedRevision := 0
    confirmedSequence := 0
    confirmedDigest := ""
    confirmedBootID := ""
    confirmedAt := none}

def clearDeliveredUsers (row : RuntimeUserState) : RuntimeUserState :=
  {row with
    deliveredRevision := 0
    deliveredMessageID := ""
    deliveredAt := none
    confirmedRevision := 0
    confirmedDigest := ""
    confirmedBootID := ""
    confirmedAt := none}

def EnrolledServer.expired (server : EnrolledServer) (ts : Time) : Bool :=
  match server.enrollmentExpiresAt with
  | none => false
  | some e => e<ts

/-- An expired enrolment hash is cleared before it can be claimed. -/
def clearExpired (servers : Table Int EnrolledServer) (enrollmentHash : String) (ts : Time) :
    Table Int EnrolledServer :=
  servers.mapRows (fun _ server =>
    if server.enrollmentHash=enrollmentHash ∧ server.expired ts then
      {server with enrollmentHash := "",enrollmentExpiresAt := none} else server)

def EnrolledServer.claim (server : EnrolledServer) (agentID : String) : EnrolledServer :=
  {server with
    agentID := agentID
    enrollmentHash := ""
    enrollmentExpiresAt := none
    status := .online}

/-- A claim needs one unexpired server with the hash. Its new agent has nothing installed. -/
def claimServerEnrollment (db : RetirementStore) (enrollmentHash agentID agentTokenHash : String)
    (ts : Time) : Except String RetirementStore :=
  if trimSpace enrollmentHash="" ∨ trimSpace agentID="" ∨ trimSpace agentTokenHash="" then
    .error "sql: no rows in result set"
  else
    let cleared := clearExpired db.servers enrollmentHash ts
    match cleared.rows.filter (fun row => row.2.enrollmentHash=enrollmentHash) with
    | [(id,server)] =>
      if db.agentTaken id agentID then .error "UNIQUE constraint failed: servers.agent_id"
      else .ok {db with
        servers := cleared.insert id (server.claim agentID)
        authorization := db.authorization.updateState id clearDeliveredAuthorization
        users := db.users.updateState id clearDeliveredUsers}
    | _ => .error "sql: no rows in result set"

/-- The rows that reference the server go with it. -/
def deleteServer (db : RetirementStore) (serverID : Int) : RetirementStore :=
  {db.releaseServer serverID with
    servers := db.servers.erase serverID
    authorization := ⟨db.authorization.states.erase serverID,
      db.authorization.denials.deleteRows (fun key _ => key.1=serverID)⟩
    users := ⟨db.users.states.erase serverID⟩
    syncStates := db.syncStates.erase serverID
    tasks := db.tasks.filter (fun task => task.serverID≠serverID)}

/-- What a call of a lane is about: its server, the revision a node reports, and whether it
evaluates the desired state. -/
structure LaneCall where
  serverID : Int
  reported : Option Int := none
  evaluates : Bool := false

def AuthorizationCall.laneCall : AuthorizationCall → Option LaneCall
  | .evaluate serverID _ _ _ _ => some ⟨serverID,none,true⟩
  | .evaluateWithSequence serverID _ _ _ _ _ => some ⟨serverID,none,true⟩
  | .issue serverID _ _ => some ⟨serverID,none,false⟩
  | .deliver serverID _ _ _ _ => some ⟨serverID,none,false⟩
  | .confirm serverID revision _ _ _ _ => some ⟨serverID,some revision,false⟩
  | .restate serverID revision _ _ _ _ => some ⟨serverID,some revision,false⟩
  | .resync serverID => some ⟨serverID,none,false⟩
  | .markPending serverID _ _ _ => some ⟨serverID,none,false⟩
  | .prune _ => none

def RuntimeUserCall.laneCall : RuntimeUserCall → LaneCall
  | .evaluate serverID _ _ => ⟨serverID,none,true⟩
  | .deliver serverID _ _ _ => ⟨serverID,none,false⟩
  | .confirm serverID revision _ _ _ => ⟨serverID,some revision,false⟩
  | .restate serverID revision _ _ _ => ⟨serverID,some revision,false⟩
  | .resync serverID => ⟨serverID,none,false⟩
  | .markPending serverID _ _ _ => ⟨serverID,none,false⟩

inductive RetirementMove where
  | start (actor reason : String) (deadline at_ : Time)
  | review (id userID : Int) (decision : RetirementDecision) (reason : String)
  | beginTransition (id : Int) (at_ : Time)
  | revoke (id : Int) (at_ : Time)
  | bindDeployment (id version : Int)
  | finalize (id : Int)
  | createServer (id : Int) (server : EnrolledServer)
  | saveServer (id : Int) (agentID enrollmentHash : String) (status : ServerStatus)
  | claimEnrollment (enrollmentHash agentID agentTokenHash : String) (ts : Time)
  | deleteServer (serverID : Int)
  | authorization (call : AuthorizationCall)
  | users (call : RuntimeUserCall)
  | context (tables : RetirementContext)

inductive RetirementEvent where
  | revoked (id : Int)
  | evaluated (lane : Lane) (serverID revision : Int)
  | removed (serverID : Int)
  deriving DecidableEq

/-- Rows of a lane reference their server, so that a call for an unknown server fails. -/
def RetirementStore.admits (db : RetirementStore) : Option LaneCall → Bool
  | none => true
  | some call => (db.servers.lookup call.serverID).isSome

def RetirementStore.evaluations (db : RetirementStore) (lane : Lane) :
    Option LaneCall → List RetirementEvent
  | none => []
  | some call => if call.evaluates ∧ 0<call.serverID then
      [.evaluated lane call.serverID (db.lane lane call.serverID).desiredRevision] else []

def retirementStep (db : RetirementStore) : RetirementMove → RetirementStore×List RetirementEvent
  | .start actor reason deadline at_ =>
    (keepOnError db ((startDeviceRetirement db actor reason deadline at_).map Prod.fst),[])
  | .review id userID decision reason =>
    (keepOnError db (reviewDeviceRetirement db id userID decision reason),[])
  | .beginTransition id at_ => (keepOnError db (beginDeviceRetirementTransition db id at_),[])
  | .revoke id at_ =>
    match revokeDeviceRetirement db id at_ with
    | .error _ => (db,[])
    | .ok next => (next,if db.batchState id=some .transition then [.revoked id] else [])
  | .bindDeployment id version => (keepOnError db (bindDeviceRetirementDeployment db id version),[])
  | .finalize id => (keepOnError db (finalizeDeviceRetirement db id),[])
  | .createServer id server => (createServer db id server,[])
  | .saveServer id agentID enrollmentHash status => (saveServer db id agentID enrollmentHash status,[])
  | .claimEnrollment enrollmentHash agentID agentTokenHash ts =>
    (keepOnError db (claimServerEnrollment db enrollmentHash agentID agentTokenHash ts),[])
  | .deleteServer serverID => (deleteServer db serverID,[.removed serverID])
  | .authorization call =>
    if db.admits call.laneCall then
      let next := {db with authorization := (authorizationStep db.authorization call).1}
      (next,next.evaluations .authorization call.laneCall)
    else (db,[])
  | .users call =>
    if db.admits (some call.laneCall) then
      let next := {db with users := runtimeUserStep db.users call}
      (next,next.evaluations .users (some call.laneCall))
    else (db,[])
  | .context tables => ({db with toRetirementContext := tables},[])

end Oboard.Store
