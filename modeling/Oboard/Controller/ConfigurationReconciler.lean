import Oboard.Store.ConfigurationIntents

namespace Oboard.Controller

open Store GoText

structure Projection where
  /-- The server is stored and its projection can be computed. -/
  computed : Bool
  /-- The payload of the last task can be read. -/
  readable : Bool
  equal : Bool

inductive PrepareErrorKind where
  | missingDNSCredential
  | invalidDesiredState
  | other

structure PrepareError where
  kind : PrepareErrorKind
  text : String

inductive Generated where
  | ready
  | certificate
  | failed (e : PrepareError)

/-- Everything outside the synchronisation tables that one deployment depends on. -/
structure Deployment where
  /-- An error before the scope is expanded. -/
  unready : Option PrepareError := none
  grouped : List Int
  /-- An error before a version is allocated. -/
  refused : Option PrepareError := none
  servers : List Int
  generate : Int → Generated
  /-- The clock in milliseconds. -/
  candidate : Int
  deleting : List Int := []

/-- Duplicate direct paths and what is left of the topology without them. -/
structure DuplicateDirectPaths where
  affected : List Int
  problems : Int → List ConfigurationSyncProblem
  grouped : List Int
  deployment : Deployment

/-- Everything outside the synchronisation tables that one pass depends on. -/
structure PassEnv where
  stamp : String
  now : Time
  compare : Int → Projection
  grouped : List Int
  expectedDigest : Int → String
  taskDigest : Int → String
  failureMessage : Int → String
  /-- The evidence of a copied deployment can be attached to the operations. -/
  binds : Int → Bool
  retryCandidate : Int → Int
  deleting : List Int := []
  deployment : Deployment
  duplicates : Option DuplicateDirectPaths := none

structure ConfigurationStore extends IntentStore where
  version : Option Int := none

abbrev ClaimedState := Int×ConfigurationSyncState

section tasks

variable (σ : SyncStore)

/-- Tasks that an agent runs behind its applied version. -/
def versionGuardedTaskType (taskType : AgentTaskType) : Bool := taskType≠.other

def latestTaskByServerType (serverID : Int) (taskType : AgentTaskType) : Option (Int×AgentTask) :=
  Table.newest (σ.tasks.rows.filter (fun row => row.2.serverID=serverID && row.2.taskType=taskType))

def supersedePendingTasksByServerType (serverID : Int) (taskType : AgentTaskType) : SyncStore :=
  {σ with tasks := σ.tasks.mapRows (fun _ task =>
    if task.serverID=serverID && task.taskType=taskType && task.status=.pending then
      {task with status := .failed} else task)}

def guardedVersions (p : AgentTask → Bool) : List Int :=
  (σ.tasks.rows.filter (fun row => versionGuardedTaskType row.2.taskType && p row.2)).map
    (fun row => row.2.configVersion)

def maxGuardedConfigVersion (serverID : Int) : Int :=
  if serverID≤0 then 0
  else (guardedVersions σ (fun task => task.serverID=serverID)).max?.getD 0

def nextTaskID : Int := ((σ.tasks.rows.map Prod.fst).max?.getD 0)+1

/-- A configuration task that the reconciler queues, which an agent that is offline may wait for. -/
def createAgentTask (deleting : List Int) (serverID : Int) (version : Int) (forceRefresh : Bool) :
    Except PrepareError (SyncStore×Int) :=
  if version ≤ maxGuardedConfigVersion σ serverID then
    .error ⟨.other,"refusing to queue apply_deployment for server "++toString serverID++
      " at config_version "++toString version++": not newer than the last queued version "++
      toString (maxGuardedConfigVersion σ serverID)⟩
  else if serverID∈deleting then .error ⟨.other,"server is being deleted"⟩
  else
    let task : AgentTask := ⟨serverID,.applyDeployment,version,.pending,forceRefresh⟩
    .ok ({σ with tasks := σ.tasks.insert (nextTaskID σ) task},nextTaskID σ)

end tasks

/-- A version above every version handed out before and every positive version queued. -/
def nextConfigVersion (setting : Option Int) (σ : SyncStore) (candidate : Int) :
    Except PrepareError Int :=
  let queued := (guardedVersions σ (fun task => 0 < task.configVersion)).max?
  let lowest := max candidate ((queued.map (·+1)).getD candidate)
  let version := match setting with
    | none => lowest
    | some last => max (last+1) lowest
  if version≤0 then
    .error ⟨.other,"invalid allocated config version \""++toString version++"\""⟩
  else .ok version

section errors

def configurationLocalProblem (serverID : Int) (code category retry message : String) :
    ConfigurationSyncProblem :=
  ⟨code,category,[⟨"server",toString serverID⟩],retry,message⟩

def configurationSyncTransientBusy (e : PrepareError) : Bool :=
  decide ("SQLITE_BUSY".toList<:+:e.text.toList) ||
    decide ("database is locked".toList<:+:e.text.toList)

def configurationSyncBusyWaitReason : String := "主控数据库正忙，稍后自动重试"

def configurationSyncBusyRetryDelay : Time := 2*second

def certificateConfigurationRetryDelay : Time := second

def configurationPrepareProblem (serverID : Int) (e : PrepareError) : ConfigurationSyncProblem :=
  match e.kind with
  | .missingDNSCredential => configurationLocalProblem serverID "missing_dns_credential"
      "configuration" "after_change" "启用 DNS 自动解析时需要选择 DNS 凭据"
  | .invalidDesiredState => configurationLocalProblem serverID "invalid_desired_state"
      "configuration" "after_change" "配置校验未通过，请检查服务器配置后重试"
  | .other => configurationLocalProblem serverID "preparation_failed" "preparation" "automatic"
      "配置准备失败，请查看主控日志或稍后重试"

/-- Errors of a mark are logged and leave the row as it is. -/
def logged (σ : SyncStore) (r : Except String SyncStore) : SyncStore :=
  match r with
  | .ok σ => σ
  | .error _ => σ

section

variable (now : Time) (σ : SyncStore) (state : ClaimedState)

def recordConfigurationPrepareError (e : PrepareError) : SyncStore :=
  if configurationSyncTransientBusy e then
    logged σ (σ.markConfigurationSyncWaiting state.1 state.2.wantedRevision
      (now+configurationSyncBusyRetryDelay) configurationSyncBusyWaitReason
      [configurationLocalProblem state.1 "database_busy" "waiting" "automatic"
        configurationSyncBusyWaitReason])
  else
    let problem := configurationPrepareProblem state.1 e
    logged σ (σ.markConfigurationSyncPreparationFailure state.1 state.2.wantedRevision
      problem.message [problem] now)

def waitForCertificate : SyncStore :=
  logged σ (σ.markConfigurationSyncWaiting state.1 state.2.wantedRevision
    (now+certificateConfigurationRetryDelay) "等待证书签发完成"
    [configurationLocalProblem state.1 "certificate_pending" "waiting" "automatic" "等待证书签发完成"])

end

end errors

section plan

inductive Verdict where
  | changed
  | noop
  | keepFailed
  | retrySame
  | inFlight
  deriving DecidableEq

structure ConfigurationProjectionPlan where
  changed : List Int
  noop : List ClaimedState
  keepFailed : List ClaimedState
  retrySame : List ClaimedState
  inFlight : List ClaimedState

/-- The rejection of an agent that does not yet know superseded tasks. -/
def isVersionConflictError (message : String) : Bool :=
  "is older than last applied version".toList<:+:message.toList

/-- A saved delivery policy that the last deployment does not carry, or no longer on its way. -/
def policyUndelivered (σ : SyncStore) (state : ClaimedState) (latest : AgentTask) : Bool :=
  let policy := (σ.flags.lookup state.1).getD ⟨0,0,0,0⟩
  policy.appliedRevision<policy.revision && (policy.processingRevision≠policy.revision ||
    policy.processingConfigVersion≠latest.configVersion || latest.status=.succeeded ||
    state.2.triggerReason=some .operatorRetry || state.2.triggerReason=some .superseded)

def verdict (compare : Int → Projection) (σ : SyncStore) (state : ClaimedState) : Verdict :=
  let projection := compare state.1
  if !projection.computed then .changed
  else match latestTaskByServerType σ state.1 .applyDeployment with
    | none => .changed
    | some (_,latest) =>
      if !projection.readable || state.2.triggerReason=some .agentDrift ||
          policyUndelivered σ state latest || !projection.equal then .changed
      else match latest.status with
        | .pending | .running => .inFlight
        | .succeeded => .noop
        | .failed | .rollbackFailed =>
          if state.2.triggerReason=some .operatorRetry then .retrySame
          else if isVersionConflictError state.2.lastError then .changed
          else .keepFailed

/-- Members of the transparent forwarding group change together. -/
def expandGroup (grouped changed : List Int) : List Int :=
  if grouped.any (fun id => changed.contains id) then changed++grouped else changed

def filterSyncStatesNotIn (states : List ClaimedState) (changed : List Int) : List ClaimedState :=
  states.filter (fun state => !changed.contains state.1)

def automaticProjectionChanges (compare : Int → Projection) (grouped : List Int) (σ : SyncStore)
    (claimed : List ClaimedState) : ConfigurationProjectionPlan :=
  let placed := fun v => claimed.filter (fun state => verdict compare σ state=v)
  let changed := expandGroup grouped ((placed .changed).map Prod.fst)
  let others := fun v => filterSyncStatesNotIn (placed v) changed
  ⟨changed,others .noop,others .keepFailed,others .retrySame,others .inFlight⟩

end plan

section deployment

/-- The servers of the scope whose configuration is ready, unless one cannot be generated. -/
def prepare (d : Deployment) (scope : List Int) : Except PrepareError (List Int) :=
  let rec walk : List Int → Except PrepareError (List Int×List Int)
    | [] => .ok ([],[])
    | id::rest => match d.generate id with
      | .failed e => .error e
      | .ready => (walk rest).map (fun r => (id::r.1,r.2))
      | .certificate => (walk rest).map (fun r => (r.1,id::r.2))
  (walk (d.servers.filter (fun id => scope.contains id))).map (fun r =>
    -- one member that waits for a certificate holds back the whole group
    if r.2.any (fun id => d.grouped.contains id) then
      r.1.filter (fun id => !d.grouped.contains id) else r.1)

/-- Tasks queued before an error stay queued. -/
def queueAll (d : Deployment) (version : Int) :
    SyncStore → List Int → SyncStore×Except PrepareError (List (Int×Int))
  | σ,[] => (σ,.ok [])
  | σ,id::rest =>
    let policy := (σ.flags.lookup id).getD ⟨0,0,0,0⟩
    match createAgentTask σ d.deleting id version (policy.appliedRevision<policy.revision) with
    | .error e => (σ,.error e)
    | .ok (σ,taskID) =>
      let (σ,r) := queueAll d version σ rest
      (σ,r.map ((id,taskID)::·))

structure Deployed where
  store : ConfigurationStore
  scope : List Int
  result : Except PrepareError (Int×List (Int×Int))

def deployConfigurationScoped (d : Deployment) (σ : ConfigurationStore) (scope : List Int) :
    Deployed :=
  match d.unready with
  | some e => ⟨σ,scope,.error e⟩
  | none =>
    let scope := expandGroup d.grouped scope
    match d.refused with
    | some e => ⟨σ,scope,.error e⟩
    | none => match nextConfigVersion σ.version σ.sync d.candidate with
      | .error e => ⟨σ,scope,.error e⟩
      | .ok version =>
        let σ := {σ with version := some version}
        match prepare d scope with
        | .error e => ⟨σ,scope,.error e⟩
        | .ok prepared =>
          let (sync,tasks) := queueAll d version σ.sync prepared
          ⟨{σ with sync := sync},scope,tasks.map (version,·)⟩

end deployment

section pass

variable (env : PassEnv)

def claimAll : SyncStore → List ClaimedState → SyncStore×List ClaimedState
  | σ,[] => (σ,[])
  | σ,state::rest =>
    let (σ,ok) := σ.claimConfigurationSync state.1 state.2.wantedRevision
    let (σ,claimed) := claimAll σ rest
    (σ,if ok then state::claimed else claimed)

section

variable (σ : SyncStore) (state : ClaimedState)

def markNoop : SyncStore :=
  logged σ (σ.markConfigurationSyncNoop state.1 state.2.wantedRevision (env.expectedDigest state.1))

def keepFailure : SyncStore :=
  σ.markConfigurationSyncUnchangedFailure state.1 state.2.wantedRevision
    (env.failureMessage state.1)

def attach (taskID : Int) (task : AgentTask) : SyncStore :=
  σ.markConfigurationSyncQueued state.1 state.2.wantedRevision task.configVersion taskID
    (env.taskDigest taskID) false 0

def markConfigurationSyncInFlight : SyncStore :=
  match latestTaskByServerType σ state.1 .applyDeployment with
  | none => σ
  | some (taskID,task) => attach env σ state taskID task

end

section

variable (σ : ConfigurationStore) (state : ClaimedState)

def requeueUnchangedDeployment : ConfigurationStore×Option PrepareError :=
  match latestTaskByServerType σ.sync state.1 .applyDeployment with
  | none => (σ,some ⟨.other,"sql: no rows in result set"⟩)
  | some (lastID,last) =>
    if last.status.isOpen then ({σ with sync := attach env σ.sync state lastID last},none)
    else match nextConfigVersion σ.version σ.sync (env.retryCandidate state.1) with
      | .error e => (σ,some e)
      | .ok version =>
        let σ := {σ with version := some version}
        match createAgentTask σ.sync env.deleting state.1 version last.forceRefresh with
        | .error e => (σ,some e)
        | .ok (sync,taskID) =>
          if sync.reaches state.1 (SyncStore.queueable state.2.wantedRevision false lastID) &&
              !env.binds state.1 then ({σ with sync := sync},
            some ⟨.other,"configuration changed while binding retry evidence"⟩)
          else
            let sync := sync.markConfigurationSyncQueued state.1 state.2.wantedRevision version
              taskID (env.taskDigest taskID) false lastID
            ({σ with sync := sync},none)

def retryUnchanged : ConfigurationStore :=
  match requeueUnchangedDeployment env σ state with
  | (σ,none) => σ
  | (σ,some e) => {σ with sync := recordConfigurationPrepareError env.now σ.sync state e}

end

def markDeployed (prepared : Bool) (version : Int) (tasks : List (Int×Int)) (σ : SyncStore)
    (state : ClaimedState) : SyncStore :=
  match tasks.lookup state.1 with
  | none => waitForCertificate env.now σ state
  | some taskID => σ.markConfigurationSyncQueued state.1 state.2.wantedRevision version taskID
      (env.taskDigest taskID) prepared 0

def settleDeployment (prepared : Bool) (claimed : List ClaimedState) (d : Deployed) :
    ConfigurationStore :=
  let concerned := claimed.filter (fun state => d.scope.contains state.1)
  let step := match d.result with
    | .error e => fun σ state => recordConfigurationPrepareError env.now σ state e
    | .ok (version,tasks) => markDeployed env prepared version tasks
  {d.store with sync := concerned.foldl step d.store.sync}

def relatedProblem (message : String) (serverID : Int) : ConfigurationSyncProblem :=
  configurationLocalProblem serverID "related_configuration_invalid" "configuration" "after_change"
    message

def failPreparation (problems : List ConfigurationSyncProblem) (σ : SyncStore)
    (state : ClaimedState) : SyncStore :=
  logged σ (σ.markConfigurationSyncPreparationFailure state.1 state.2.wantedRevision "" problems
    env.now)

/-- A group with an affected member waits as a whole. -/
def DuplicateDirectPaths.blocks (dup : DuplicateDirectPaths) (serverID : Int) : Bool :=
  dup.grouped.any (fun id => dup.affected.contains id) && dup.grouped.contains serverID

def failAffected (dup : DuplicateDirectPaths) (σ : SyncStore) (state : ClaimedState) : SyncStore :=
  let problems := dup.problems state.1
  failPreparation env (if problems=[] then
    [relatedProblem "关联的代理拓扑存在配置问题" state.1] else problems) σ state

def failBlocked (σ : SyncStore) (state : ClaimedState) : SyncStore :=
  failPreparation env [relatedProblem "关联的透明转发成员存在配置问题；修复该成员后会成组重试" state.1] σ state

def reconcileConfigurationAroundDuplicateDirectPaths (dup : DuplicateDirectPaths)
    (σ : ConfigurationStore) (claimed : List ClaimedState) : ConfigurationStore :=
  let (affected,others) := claimed.partition (fun state => dup.affected.contains state.1)
  let (blocked,valid) := others.partition (fun state => dup.blocks state.1)
  let sync := blocked.foldl (failBlocked env) (affected.foldl (failAffected env dup) σ.sync)
  if valid=[] then {σ with sync := sync}
  else settleDeployment env false claimed
    (deployConfigurationScoped dup.deployment {σ with sync := sync} (valid.map Prod.fst))

/-- The pass up to the plan. -/
structure Claims where
  store : ConfigurationStore
  claimed : List ClaimedState

def claims (σ : ConfigurationStore) : Claims :=
  let drained := (σ.drainConfigurationSyncIntents env.stamp).1
  let (sync,claimed) :=
    claimAll drained.sync (drained.sync.listConfigurationSyncStates env.now)
  ⟨{σ with toIntentStore := {drained with sync := sync}},claimed⟩

def planOf (c : Claims) : ConfigurationProjectionPlan :=
  automaticProjectionChanges env.compare env.grouped c.store.sync c.claimed

def settleUnchanged (plan : ConfigurationProjectionPlan) (σ : ConfigurationStore) :
    ConfigurationStore :=
  let sync := plan.noop.foldl (markNoop env) σ.sync
  let sync := plan.keepFailed.foldl (keepFailure env) sync
  let sync := plan.inFlight.foldl (markConfigurationSyncInFlight env) sync
  plan.retrySame.foldl (retryUnchanged env) {σ with sync := sync}

def supersedeStale (changed : List Int) (σ : SyncStore) : SyncStore :=
  changed.foldl (fun σ id => supersedePendingTasksByServerType σ id .applyDeployment) σ

def deployChanged (changed : List Int) (claimed : List ClaimedState) (σ : ConfigurationStore) :
    ConfigurationStore :=
  let d := deployConfigurationScoped env.deployment
    {σ with sync := supersedeStale changed σ.sync} changed
  match d.result,env.duplicates with
  | .error _,some dup => reconcileConfigurationAroundDuplicateDirectPaths env dup d.store claimed
  | _,_ => settleDeployment env true claimed d

def reconcileConfiguration (σ : ConfigurationStore) : ConfigurationStore :=
  let c := claims env σ
  if c.claimed=[] then c.store
  else
    let plan := planOf env c
    let σ := settleUnchanged env plan c.store
    if plan.changed=[] then σ else deployChanged env plan.changed c.claimed σ

end pass

end Oboard.Controller
