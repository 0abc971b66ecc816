import Oboard.Store.AccessActivation
import Oboard.Store.AgentTasks
import Oboard.Framework.Runs

namespace Oboard.Controller

open GoText Oboard.Core Store Runs

/-- Where a call of queueAccessChangePhase stands between two of its transactions. -/
inductive QueueStage where
  | start
  | look (todo prepared : List Int)
  | create (prepared : List Int)
  | record (taskID : Int) (prepared : List Int)

inductive QueueFinding where
  | unchanged
  | changed
  | failed (message : String)

inductive QueueResult where
  | more (stage : QueueStage)
  | done
  | failed (message : String)

inductive WorkerStage where
  | start
  | read (phase : AccessChangePhase) (tasks : List (Int×Int))
  | activate (exceptionIDs : List Int)
  | switch
  | reconcile
  | queue (stage : QueueStage)
  | advance
  | detach
  | finalize
  | fail (message : String)

/-- A pass over the open changes, with the rows as they were when it began. -/
structure WorkerRound where
  id : Int
  change : AccessChange
  stage : WorkerStage
  rest : List (Int×AccessChange)

inductive JobStage where
  | reset
  | resume
  | queue (stage : QueueStage)
  | fail (message : String)

structure QueueJob where
  id : Int
  phase : AccessChangePhase
  retry : Bool
  stage : JobStage

structure AccessSystem where
  store : AccessStore
  tasks : Table Int TaskStatus := ∅
  nextTaskID : Int := 1
  worker : Option WorkerRound := none
  jobs : Table Int QueueJob := ∅

/-- What an observer of the changes sees. An effect comes with the users whose pending bindings
it activates, a cancelled change with the users it was to do that for, a finalized one with those
of its finalize tasks that have not succeeded. -/
inductive AccessEvent where
  | cancelled (id : Int) (users : List Int)
  | effect (id : Int) (users : List Int)
  | activated (id : Int)
  | finalized (id : Int) (unfinished : List Int)
  deriving DecidableEq

/-- How the parts of a step that the model leaves open turn out. -/
inductive Outcome where
  | ok
  | busy
  | failed (message : String)
  deriving DecidableEq

structure WorkerInput where
  now : Time
  finding : QueueFinding := .unchanged
  outcome : Outcome := .ok

namespace AccessSystem

section

variable (σ : AccessSystem)

def setWorker (w : Option WorkerRound) : AccessSystem := {σ with worker := w}

def setStore (s : AccessStore) : AccessSystem := {σ with store := s}

/-- The users whose pending bindings a stored change is to activate. -/
def boundUsers (id : Int) : List Int := ((σ.store.changes.lookup id).map (·.boundUsers)).getD []

/-- A missing task row counts as done. -/
def unfinished (taskID : Int) : Bool :=
  taskID≠0 && (σ.tasks.lookup taskID).any (·≠.succeeded)

def unfinishedTasks (id : Int) : List Int :=
  ((listAccessChangeTargets σ.store id).map (·.2.finalizeTaskID)).filter σ.unfinished

/-- One transaction of queueAccessChangePhase. -/
def queueStep (id : Int) (phase : AccessChangePhase) (finding : QueueFinding) :
    QueueStage → AccessSystem×QueueResult
  | .start =>
    match finding with
    | .failed message => (σ,.failed message)
    | _ => (σ,.more (.look ((listAccessChangeTargets σ.store id).map (·.1)) []))
  | .look [] prepared => (σ,.more (.create prepared))
  | .look (serverID::todo) prepared =>
    match finding with
    | .failed message => (σ,.failed message)
    | .unchanged =>
      (σ.setStore (setAccessChangeTargetTask σ.store id serverID 0 phase .prepared),
        .more (.look todo prepared))
    | .changed => (σ,.more (.look todo (prepared++[serverID])))
  | .create [] | .record _ [] => (σ,.done)
  | .create (serverID::rest) =>
    match finding with
    | .failed message => (σ,.failed message)
    | _ => ({σ with
        tasks := σ.tasks.insert σ.nextTaskID .pending
        nextTaskID := σ.nextTaskID+1},.more (.record σ.nextTaskID (serverID::rest)))
  | .record taskID (serverID::rest) =>
    match finding with
    | .failed message => (σ,.failed message)
    | _ => (σ.setStore (setAccessChangeTargetTask σ.store id serverID taskID phase .preparing),
        .more (.create rest))

end

end AccessSystem

namespace WorkerRound

def next (w : WorkerRound) : Option WorkerRound :=
  match w.rest with
  | [] => none
  | r::rest => some ⟨r.1,r.2,.start,rest⟩

def goto (w : WorkerRound) (stage : WorkerStage) : Option WorkerRound := some {w with stage := stage}

def open_ (w : WorkerRound) : List (Int×AccessChange) := (w.id,w.change)::w.rest

end WorkerRound

namespace AccessSystem

def startRound (σ : AccessSystem) : Option WorkerRound :=
  match listAccessChangesByStatus σ.store [.preparing,.activating,.finalizing] with
  | [] => none
  | r::rest => some ⟨r.1,r.2,.start,rest⟩

def notYet (v : AccessChange) (now : Time) : Bool := v.activateAt.any (now<·)

def phaseTasks (σ : AccessSystem) (id : Int) (phase : AccessChangePhase) : List (Int×Int) :=
  ((listAccessChangeTargets σ.store id).map (fun r => (r.1,r.2.taskID phase))).filter (·.2≠0)

def startChange (σ : AccessSystem) (w : WorkerRound) (now : Time) : Option WorkerRound :=
  match w.change.status with
  | .preparing => w.goto (.read .prepare (σ.phaseTasks w.id .prepare))
  | .activating => if notYet w.change now then w.next else w.goto (.activate w.change.exceptionIDs)
  | .finalizing => w.goto (.read .finalize (σ.phaseTasks w.id .finalize))
  | _ => w.next

/-- The transition that the store refuses leaves everything as it was. -/
def tryUpdate (s : AccessStore) (id : Int) (source : List AccessChangeStatus)
    (target : AccessChangeStatus) (errorText : String) (ts : Time) : AccessStore :=
  keepOnError s (updateAccessChangeStatus s id source target errorText ts)

def markAccessChangeFailed (s : AccessStore) (id : Int) (message : String) (ts : Time) :
    AccessStore :=
  tryUpdate s id [.preparing,.activating,.finalizing] .failed message ts

section

variable (σ : AccessSystem) (w : WorkerRound)

def readTask (phase : AccessChangePhase) (task : Int×Int)
    (tasks : List (Int×Int)) : Option WorkerRound :=
  match σ.tasks.lookup task.2 with
  | none | some .succeeded => w.goto (.read phase tasks)
  | some .failed =>
    w.goto (.fail ("server "++toString task.1++" task "++toString task.2++" failed"))
  | some _ => w.next

def phaseDone (phase : AccessChangePhase) (now : Time) : AccessSystem :=
  match phase with
  | .prepare =>
    if notYet w.change now then
      (σ.setStore (tryUpdate σ.store w.id [.preparing] .activating "" now)).setWorker w.next
    else σ.setWorker (w.goto (.activate w.change.exceptionIDs))
  | .finalize =>
    if w.change.changeType=.planDelete ∧ w.change.sourcePlanID≠0 then σ.setWorker (w.goto .detach)
    else σ.setWorker (w.goto .finalize)

/-- One transaction of activateAccessChange. -/
def activateStep (now : Time) (exceptionIDs : List Int) : AccessSystem×List AccessEvent :=
  match w.change.changeType with
  | .planPublish | .planRestore =>
    match σ.store.plans.lookup w.change.sourcePlanID with
    | none => (σ.setWorker (w.goto (.fail "activate: sql: no rows in result set")),[])
    | some plan =>
      if plan.currentRevisionID=w.change.candidateRevisionID then
        (σ.setWorker (w.goto (.queue .start)),[.activated w.id])
      else (σ.setWorker (w.goto .switch),[])
  | .planDisable =>
    ((σ.setStore (setSubscriptionPlanEnabled σ.store w.change.sourcePlanID false)).setWorker
      (w.goto .reconcile),[.effect w.id []])
  | .planDelete =>
    ((σ.setStore {σ.store with planBindings :=
      σ.store.planBindings.clearUserPlanBindingsForPlan w.change.sourcePlanID}).setWorker
      (w.goto .reconcile),[.effect w.id []])
  | .userBindings =>
    if w.change.userIDs=[] then (σ.setWorker (w.goto .reconcile),[])
    else ((σ.setStore {σ.store with planBindings :=
      σ.store.planBindings.setUserPlanBindingsActiveForUsers w.change.userIDs now}).setWorker
      (w.goto .reconcile),[.effect w.id w.change.userIDs])
  | .exceptions =>
    match exceptionIDs with
    | [] => (σ.setWorker (w.goto .reconcile),[])
    | id::rest =>
      if w.change.targetStatus=.unset then (σ.setWorker (w.goto (.activate rest)),[])
      else ((σ.setStore (setUserNodeExceptionStatus σ.store id w.change.targetStatus)).setWorker
        (w.goto (.activate rest)),[.effect w.id []])

def switchStep : AccessSystem×List AccessEvent :=
  match activatePlanVersionGuarded σ.store w.change.sourcePlanID
      w.change.expectedActiveRevisionID w.change.candidateRevisionID w.id with
  | .error message => (σ.setWorker (w.goto (.fail ("activate: "++message))),[])
  | .ok s => ((σ.setStore s).setWorker (w.goto .reconcile),[.effect w.id []])

end

def afterQueue (w : WorkerRound) : QueueResult → Option WorkerRound
  | .more stage => w.goto (.queue stage)
  | .done => w.goto .advance
  | .failed message => w.goto (.fail ("finalize queue: "++message))

section

variable (σ : AccessSystem)

def advanceStep (w : WorkerRound) (now : Time) : AccessSystem :=
  match updateAccessChangeStatus σ.store w.id [.preparing,.activating] .finalizing "" now with
  | .error message => σ.setWorker (w.goto (.fail message))
  | .ok s => (σ.setStore s).setWorker w.next

def finalizeStep (w : WorkerRound) (now : Time) : AccessSystem×List AccessEvent :=
  match updateAccessChangeStatus σ.store w.id [.finalizing] .finalized "" now with
  | .error _ => (σ.setWorker w.next,[])
  | .ok s => ((σ.setStore s).setWorker w.next,[.finalized w.id (σ.unfinishedTasks w.id)])

/-- A busy database ends the change's turn, another failure is recorded in the change. -/
def giveUp (w : WorkerRound) (label : String) : Outcome → AccessSystem
  | .failed message => σ.setWorker (w.goto (.fail (label++message)))
  | _ => σ.setWorker w.next

def changeStep (w : WorkerRound) (input : WorkerInput) : AccessSystem×List AccessEvent :=
  match w.stage with
  | .start => (σ.setWorker (σ.startChange w input.now),[])
  | .read phase [] => (σ.phaseDone w phase input.now,[])
  | .read phase (task::tasks) => (σ.setWorker (σ.readTask w phase task tasks),[])
  | .activate exceptionIDs =>
    if input.outcome=.ok then σ.activateStep w input.now exceptionIDs
    else (σ.giveUp w "activate: " input.outcome,[])
  | .switch =>
    if input.outcome=.ok then σ.switchStep w else (σ.giveUp w "activate: " input.outcome,[])
  | .reconcile =>
    if input.outcome=.ok then (σ.setWorker (w.goto (.queue .start)),[.activated w.id])
    else (σ.giveUp w "activate: " input.outcome,[])
  | .queue stage =>
    let turn := σ.queueStep w.id .finalize input.finding stage
    (turn.1.setWorker (afterQueue w turn.2),[])
  | .advance => (σ.advanceStep w input.now,[])
  | .detach =>
    match input.outcome with
    | .ok => ((σ.setStore (deleteSubscriptionPlanTx σ.store w.change.sourcePlanID w.id)).setWorker
        (w.goto .finalize),[])
    | .busy => (σ.setWorker (w.goto (.fail "database is locked")),[])
    | .failed message => (σ.setWorker (w.goto (.fail message)),[])
  | .finalize => σ.finalizeStep w input.now
  | .fail message =>
    ((σ.setStore (markAccessChangeFailed σ.store w.id message input.now)).setWorker w.next,[])

def workerStep (input : WorkerInput) : AccessSystem×List AccessEvent :=
  match σ.worker with
  | none => (σ.setWorker σ.startRound,[])
  | some w => σ.changeStep w input

def setJob (jobID : Int) (job : QueueJob) (stage : JobStage) : AccessSystem :=
  {σ with jobs := σ.jobs.insert jobID {job with stage := stage}}

def endJob (jobID : Int) : AccessSystem := {σ with jobs := σ.jobs.erase jobID}

/-- Reads the change to retry. An activated one repeats only its finalize phase. -/
def retryAccessChange (jobID id : Int) : AccessSystem :=
  match σ.store.changes.lookup id,σ.jobs.lookup jobID with
  | some v,none =>
    if v.status=.failed then
      σ.setJob jobID ⟨id,if v.activatedAt.isSome then .finalize else .prepare,true,.reset⟩ .reset
    else σ
  | _,_ => σ

def createAccessChange (jobID : Int) (v : AccessChange) (serverIDs : List Int)
    (bindings : List UserPlanBinding) (expected : Option (Table Int Int)) (ts : Time) :
    AccessSystem :=
  let draft := {v with
    status := .preparing,error := "",activatedAt := none,finalizedAt := none,failedAt := none}
  match createAccessChangeWithPendingBindings σ.store draft serverIDs bindings expected ts,
      σ.jobs.lookup jobID with
  | .ok (s,id),none => (σ.setStore s).setJob jobID ⟨id,.prepare,false,.queue .start⟩ (.queue .start)
  | _,_ => σ

def afterJobQueue (jobID : Int) (job : QueueJob) : QueueResult → AccessSystem
  | .more stage => σ.setJob jobID job (.queue stage)
  | .done => σ.endJob jobID
  | .failed message =>
    σ.setJob jobID job (.fail (if job.retry then "retry: "++message else message))

def jobStep (jobID : Int) (job : QueueJob) (finding : QueueFinding) (ts : Time) : AccessSystem :=
  match job.stage with
  | .reset =>
    match updateAccessChangeStatus σ.store job.id [.failed] .preparing "" ts with
    | .error _ => σ.endJob jobID
    | .ok s => (σ.setStore s).setJob jobID job
        (if job.phase=.finalize then .resume else .queue .start)
  | .resume =>
    (σ.setStore (tryUpdate σ.store job.id [.preparing] .finalizing "" ts)).setJob jobID job
      (.queue .start)
  | .queue stage =>
    let turn := σ.queueStep job.id job.phase finding stage
    turn.1.afterJobQueue jobID job turn.2
  | .fail message =>
    (σ.setStore (if job.retry then markAccessChangeFailed σ.store job.id message ts
      else tryUpdate σ.store job.id [.preparing] .failed message ts)).endJob jobID

/-- The result of a task. A finished task keeps its status. -/
def reportTask (taskID : Int) (status : TaskStatus) : AccessSystem :=
  {σ with tasks := σ.tasks.modify taskID (fun old => if old.isOpen then status else old)}

end

end AccessSystem

/-- One transaction of the worker, of a request or of an agent. The tables of plans, bindings and
exceptions also have other writers. -/
inductive AccessAction where
  | worker (input : WorkerInput)
  | create (jobID : Int) (v : AccessChange) (serverIDs : List Int)
      (bindings : List UserPlanBinding) (expected : Option (Table Int Int)) (ts : Time)
  | retry (jobID id : Int)
  | job (jobID : Int) (finding : QueueFinding) (ts : Time)
  | cancel (id : Int)
  | report (taskID : Int) (status : TaskStatus)
  | deletePlan (planID : Int)
  | otherWriters (planBindings : PlanBindings) (plans : Table Int PlanRow)
      (planRevisions : Table Int Int) (exceptions : Table Int UserNodeExceptionStatus)
  | restart

open AccessSystem in
def accessStep (σ : AccessSystem) : AccessAction → AccessSystem×List AccessEvent
  | .worker input => σ.workerStep input
  | .create jobID v serverIDs bindings expected ts =>
    (σ.createAccessChange jobID v serverIDs bindings expected ts,[])
  | .retry jobID id => (σ.retryAccessChange jobID id,[])
  | .job jobID finding ts =>
    match σ.jobs.lookup jobID with
    | none => (σ,[])
    | some job => (σ.jobStep jobID job finding ts,[])
  | .cancel id =>
    match markAccessChangeCancelled σ.store id with
    | .error _ => (σ,[])
    | .ok s => (σ.setStore s,[.cancelled id (σ.boundUsers id)])
  | .report taskID status => (σ.reportTask taskID status,[])
  | .deletePlan planID => (σ.setStore (deleteSubscriptionPlanTx σ.store planID 0),[])
  | .otherWriters planBindings plans planRevisions exceptions =>
    (σ.setStore {σ.store with
      planBindings := planBindings
      plans := plans
      planRevisions := planRevisions
      exceptions := exceptions},[])
  | .restart => ({σ with worker := none,jobs := ∅},[])

end Oboard.Controller
