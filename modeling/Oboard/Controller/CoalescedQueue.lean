import Oboard.Framework.Runs
import Oboard.Framework.Table

namespace Oboard.Controller

open Runs

/-- Durations and instants are nanoseconds. -/
structure CoalescedQueueConfig where
  workers : Nat
  size : Nat
  debounce : Int
  minInterval : Int
  maxRetry : Int

def recoveryDeploymentQueueConfig : CoalescedQueueConfig where
  workers := 2
  size := 512
  debounce := 5*10^9
  minInterval := 30*10^9
  maxRetry := 600*10^9

structure CoalescedState where
  dirty : Bool := false
  queued : Bool := false
  running : Bool := false
  timer : Option Int := none
  lastFinished : Option Int := none
  failures : Nat := 0

/-- Where a worker stands: a key is received outside the lock, before the section that starts it. -/
inductive WorkerPhase where
  | waiting
  | received (key : Int)
  | evaluating (key : Int)
  | returned
  deriving DecidableEq

/-- The queue, with the timers that the runtime still has to fire, its workers and the clock. -/
structure CoalescedQueue where
  states : Table Int CoalescedState := ∅
  ch : List Int := []
  closed : Bool := false
  timers : List (Int×Int) := []
  workers : List WorkerPhase := []
  now : Int := 0

section sections

variable (config : CoalescedQueueConfig)

def newCoalescedQueue : CoalescedQueue := {workers := List.replicate config.workers .waiting}

def nextDelayLocked (now : Int) (state : CoalescedState) : Int :=
  let delay := match state.lastFinished with
    | none => config.debounce
    | some finished => max config.debounce (finished+config.minInterval-now)
  let delay := if 0<state.failures then
      max delay (min (config.minInterval*2^(min (state.failures-1) 4)) config.maxRetry)
    else delay
  max delay 0

section

variable (q : CoalescedQueue) (key : Int)

def scheduleLocked (state : CoalescedState) (delay : Int) : CoalescedQueue :=
  let due := q.now+delay
  {q with
    states := q.states.insert key {state with timer := some due}
    timers := (key,due)::q.timers}

def enqueue : CoalescedQueue :=
  if key≤0 ∨ q.closed then q
  else
    match q.states.lookup key with
    | none =>
      if config.size≤q.states.entries.length then q
      else scheduleLocked q key {dirty := true} (nextDelayLocked config q.now {dirty := true})
    | some state =>
      let state := {state with dirty := true}
      if state.timer=none ∧ ¬state.queued ∧ ¬state.running then
        scheduleLocked q key state (nextDelayLocked config q.now state)
      else {q with states := q.states.insert key state}

/-- The send succeeds while the channel has a slot. -/
def makeReady : CoalescedQueue :=
  if q.closed then q
  else
    match q.states.lookup key with
    | none => q
    | some state =>
      let state := {state with timer := none}
      if ¬state.dirty then {q with states := q.states.erase key}
      else if state.running ∨ state.queued then {q with states := q.states.insert key state}
      else if q.ch.length<config.size then
        {q with states := q.states.insert key {state with queued := true}, ch := q.ch++[key]}
      else scheduleLocked q key state config.debounce

end

/-- The section of a worker before it evaluates a key it received, and whether it does evaluate it. -/
def startEvaluation (q : CoalescedQueue) (w : Nat) (key : Int) : CoalescedQueue×Bool :=
  match q.states.lookup key,q.closed with
  | some state,false =>
    let started := {state with queued := false, running := true, dirty := false}
    ({q with
      states := q.states.insert key started
      workers := q.workers.set w (.evaluating key)},true)
  | _,_ => ({q with workers := q.workers.set w .waiting},false)

def finishedState (now : Int) (failed : Bool) (state : CoalescedState) : CoalescedState :=
  {state with
    running := false
    lastFinished := some now
    failures := if failed then state.failures+1 else 0
    dirty := failed || state.dirty}

def finishEvaluation (q : CoalescedQueue) (w : Nat) (key : Int) (failed : Bool) : CoalescedQueue :=
  let q := {q with workers := q.workers.set w .waiting}
  match q.states.lookup key with
  | none => q
  | some state =>
    let state := finishedState q.now failed state
    if q.closed then {q with states := q.states.erase key}
    else if state.dirty then scheduleLocked q key state (nextDelayLocked config q.now state)
    else scheduleLocked q key state config.minInterval

def stop (q : CoalescedQueue) : CoalescedQueue :=
  {q with
    closed := true
    timers := q.timers.filter (fun t => (q.states.lookup t.1).all (·.timer=none))
    states := ∅}

end sections

section system

inductive QueueAction where
  | tick (elapsed : Nat)
  | enqueue (key : Int)
  | fire (timer : Int×Int)
  | receive (w : Nat)
  | start (w : Nat)
  | finish (w : Nat) (failed : Bool)
  /-- The context of a waiting worker has ended. -/
  | leave (w : Nat)
  | stop

inductive WorkEvent where
  | enqueued (key : Int)
  | started (key : Int)
  | finished (key : Int) (failed : Bool)

def workStep (config : CoalescedQueueConfig) (q : CoalescedQueue) :
    QueueAction → CoalescedQueue×List WorkEvent
  | .tick elapsed => ({q with now := q.now+elapsed},[])
  | .enqueue key => (enqueue config q key,[.enqueued key])
  | .fire timer =>
    if timer∈q.timers ∧ timer.2≤q.now then
      (makeReady config {q with timers := q.timers.erase timer} timer.1,[])
    else (q,[])
  | .receive w =>
    match q.workers[w]?,q.ch with
    | some .waiting,key::rest => ({q with ch := rest, workers := q.workers.set w (.received key)},[])
    | _,_ => (q,[])
  | .start w =>
    match q.workers[w]? with
    | some (.received key) =>
      let (started,evaluates) := startEvaluation q w key
      (started,if evaluates then [.started key] else [])
    | _ => (q,[])
  | .finish w failed =>
    match q.workers[w]? with
    | some (.evaluating key) => (finishEvaluation config q w key failed,[.finished key failed])
    | _ => (q,[])
  | .leave w =>
    match q.workers[w]? with
    | some .waiting => ({q with workers := q.workers.set w .returned},[])
    | _ => (q,[])
  | .stop => (stop q,[])

end system

end Oboard.Controller
