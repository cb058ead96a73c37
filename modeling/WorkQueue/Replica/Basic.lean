import WorkQueue.Http.Route
import WorkQueue.Replica.Recorder
import WorkQueue.Replica.States
import WorkQueue.Telemetry.Notice

/-! # A replica and its tasks

A replica has a gate, a store for its state, and tasks: calls that wait to begin a work item,
waits for the end of a drain, recorders of the state, and requests to the control surface.
Tasks take turns. A task runs until it has to wait; whoever is woken goes to the end of the
line, and a task that is dropped is taken down when its turn comes.
-/
namespace WorkQueue

inductive Duty
  /-- Waits at the gate to begin a work item. -/
  | begin
  /-- Waits for the processor to stop, looking again after each interval. -/
  | awaitStopped (every : Duration)
  /-- Records each state of the processor. -/
  | recorder (recorder : Recorder)
  /-- Answers a request; `draining` says whether it waits for the processor to stop. -/
  | request (r : Http.Request) (draining : Bool)
  deriving DecidableEq

structure Task where
  id : Nat
  name : String
  duty : Duty
  aborted : Bool := false
  deadline : Option Instant := none
  deriving DecidableEq

inductive Occurrence
  | reported (notice : Notice)
  | granted (name : String)
  | refused (name : String) (failure : Failure)
  | waited (name : String) (result : Except Failure Unit)
  | stateWritten (replica : String) (state : ProcessorState) (accepted : Bool)
  | recorderEnded (name : String)
  | responded (name : String) (response : Http.Response)

/-- A replica with its tasks. Tasks stand in the order in which they began to wait. -/
structure Replica where
  name : String
  checkInterval : Duration
  gate : Gate Nat
  store : StateStore := {}
  now : Instant := 0
  holder : Option String := none
  cancelled : List String := []
  shutdown : Bool := false
  tasks : List Task := []
  ready : List Nat := []
  nextId : Nat := 0
  watchers : NameMap Nat := []

/-- How a wait for the processor to stop stands. -/
inductive DrainWait
  | stopped
  | interrupted
  | waiting (deadline : Instant)
  deriving DecidableEq, Repr

/-- Looks whether the processor has stopped, and otherwise waits for an interval. -/
def DrainWait.look (state : ProcessorState) (interrupted : Bool) (now : Instant)
    (every : Duration) : DrainWait :=
  if state = .stopped then .stopped
  else if interrupted then .interrupted
  else .waiting (now + every.toNanos)

/-- Goes on with a wait. While it waits for a deadline an interruption comes first, even at
the deadline itself. -/
def DrainWait.resume (state : ProcessorState) (interrupted : Bool) (now : Instant)
    (every : Duration) (deadline : Option Instant) : DrainWait :=
  match deadline with
  | none => .look state interrupted now every
  | some t =>
    if interrupted then .interrupted
    else if t ≤ now then .look state interrupted now every
    else .waiting t

namespace Replica

/-- A replica that works from the start, or is stopped. -/
def start (name : String) (workOnStartup : Bool) (checkInterval : Duration) : Replica :=
  { name := name, checkInterval := checkInterval, gate := Gate.new Nat workOnStartup }

/-- Puts tasks at the end of the line, those aside that stand in it. -/
def wake (r : Replica) (ids : List Nat) : Replica :=
  { r with ready := r.ready ++ ids.filter fun i => i ∉ r.ready }

def task? (r : Replica) (id : Nat) : Option Task := r.tasks.find? fun t => t.id == id

def remove (r : Replica) (id : Nat) : Replica :=
  { r with tasks := r.tasks.filter fun t => t.id != id }

def suspend (r : Replica) (task : Task) : Replica :=
  { r with tasks := (r.remove task.id).tasks ++ [task] }

def spawn (r : Replica) (name : String) (duty : Duty) : Replica :=
  { r with
    tasks := r.tasks ++ [{ id := r.nextId, name := name, duty := duty }]
    ready := r.ready ++ [r.nextId]
    nextId := r.nextId + 1 }

/-- Whether the token of a name has fired. -/
def isCancelled (r : Replica) (name : String) : Bool := name ∈ r.cancelled

/-- Whether a task records the state. -/
def isRecorder (task : Task) : Bool :=
  match task.duty with
  | .recorder _ => true
  | _ => false

/-- Whether a task ends when its own token fires. -/
def heedsToken (task : Task) : Bool :=
  match task.duty with
  | .request _ _ => false
  | _ => true

/-- Whether a task waits for a drain on behalf of a request. -/
def isDraining (task : Task) : Bool :=
  match task.duty with
  | .request _ draining => draining
  | _ => false

/-- The identities of the tasks of a kind. -/
def idsOf (r : Replica) (p : Task → Bool) : List Nat := (r.tasks.filter p).map Task.id

/-- Puts a changed gate in place: recorders are woken by a change of state, and the calls that
the gate has woken go on. -/
def setGate (r : Replica) (gate : Gate Nat) : Replica :=
  let woken := Gate.newlyWoken r.gate gate
  let recorders := if gate.version = r.gate.version then [] else r.idsOf isRecorder
  { r with gate := gate }.wake (recorders ++ woken)

/-- Carries out an operation on the gate. -/
def operate (r : Replica) (change : Gate Nat × List GateNotice) : Replica × List Occurrence :=
  (r.setGate change.1, change.2.map fun n => .reported (n.toNotice r.name))

/-- The report of this replica on itself. -/
def ownStates (r : Replica) : ReplicaStates := [(r.name, r.gate.state)]

/-- Takes an aborted task down. A wake-up that it holds is handed on. -/
def takeDown (r : Replica) (task : Task) : Replica :=
  (r.setGate (r.gate.drop task.id)).remove task.id

def runBegin (r : Replica) (task : Task) : Replica × List Occurrence :=
  let (gate, answer) := r.gate.poll task.id (r.isCancelled task.name)
  match answer with
  | .pending => ((r.setGate gate).suspend task, [])
  | .refused => ((r.setGate gate).remove task.id, [.refused task.name .cancelled])
  | .granted =>
    ({ r.setGate gate with holder := some task.name }.remove task.id, [.granted task.name])

def runAwait (r : Replica) (task : Task) (every : Duration) : Replica × List Occurrence :=
  match DrainWait.resume r.gate.state (r.isCancelled task.name) r.now every task.deadline with
  | .stopped => (r.remove task.id, [.waited task.name (.ok ())])
  | .interrupted => (r.remove task.id, [.waited task.name (.error .cancelled)])
  | .waiting deadline => (r.suspend { task with deadline := some deadline }, [])

def write (r : Replica) (replica : String) (state : ProcessorState) :
    Replica × Except Failure Unit × List Occurrence :=
  let (store, answer) := r.store.record replica state
  ({ r with store := store }, answer, [.stateWritten replica state answer.isOk])

def recordState (r : Replica) (state : ProcessorState) : Replica × List Occurrence :=
  let (r, answer, written) := r.write r.name state
  let notice := match answer with
    | .ok _ => Notice.stateRecorded r.name state
    | .error failure => Notice.stateNotRecorded r.name state failure
  (r, written ++ [.reported notice])

/-- Runs a recorder. The store answers at once, so that no write is pending between turns. -/
def runRecorder (r : Replica) (task : Task) (recorder : Recorder) : Replica × List Occurrence :=
  let cancelled := r.isCancelled task.name
  match recorder.resume r.gate.channel cancelled with
  | .ended => (r.remove task.id, [.recorderEnded task.name])
  | .writing seen =>
    let (r, written) := r.recordState seen.state
    match (Recorder.writing seen).written.resume r.gate.channel cancelled with
    | .ended => (r.remove task.id, written ++ [.recorderEnded task.name])
    | after => (r.suspend { task with duty := .recorder after }, written)
  | waiting => (r.suspend { task with duty := .recorder waiting }, [])

def respond (r : Replica) (task : Task) (request : Http.Request) (response : Http.Response) :
    Replica × List Occurrence :=
  (r.remove task.id, [.responded task.name (request.shown response)])

def runDrain (r : Replica) (task : Task) (request : Http.Request) (deadline : Option Instant) :
    Replica × List Occurrence :=
  match DrainWait.resume r.gate.state r.shutdown r.now r.checkInterval deadline with
  | .stopped => r.respond task request (.json 200 r.ownStates.toJson)
  | .interrupted =>
    let (r', responded) := r.respond task request
      (.error 503 s!"shutting down while {r.name} was {r.gate.state.name}")
    (r', .reported (.drainAbandoned r.name r.gate.state) :: responded)
  | .waiting deadline =>
    (r.suspend { task with duty := .request request true, deadline := some deadline }, [])

def runRequest (r : Replica) (task : Task) (request : Http.Request) : Replica × List Occurrence :=
  match request.route with
  | .error response => r.respond task request response
  | .ok .health => r.respond task request (.json 200 (.object [("status", .string "ok")]))
  | .ok .status =>
    match r.store.report r.name r.gate.state with
    | .ok states => r.respond task request (.json 200 states.toJson)
    | .error failure => r.respond task request (.error 500 failure.message)
  | .ok .start =>
    let (r, changes) := r.operate r.gate.start
    let (r, responded) := r.respond task request (.json 200 r.ownStates.toJson)
    (r, .reported (.startRequested r.name) :: changes ++ responded)
  | .ok .stop =>
    let (r, changes) := r.operate r.gate.finishAndStop
    let awaited := if r.gate.state = .stopped then [] else [.reported (.drainAwaited r.name)]
    let (r, rest) := r.runDrain task request none
    (r, .reported (.stopRequested r.name) :: changes ++ awaited ++ rest)

def runTask (r : Replica) (task : Task) : Replica × List Occurrence :=
  if task.aborted then (r.takeDown task, [])
  else
    match task.duty with
    | .begin => r.runBegin task
    | .awaitStopped every => r.runAwait task every
    | .recorder recorder => r.runRecorder task recorder
    | .request request true => r.runDrain task request task.deadline
    | .request request false => r.runRequest task request

/-- The replica after a task has left the line. -/
def called (r : Replica) (id : Nat) : Replica :=
  { r with ready := r.ready.filter fun i => i != id }

/-- Lets a task that stands in line take its turn. -/
def turn (r : Replica) (id : Nat) : Replica × List Occurrence :=
  if id ∈ r.ready then
    match r.task? id with
    | none => (r.called id, [])
    | some task => (r.called id).runTask task
  else (r, [])

def step (r : Replica) : Replica × List Occurrence :=
  match r.ready with
  | [] => (r, [])
  | id :: _ => r.turn id

/-- When a task can go on by the passing of time alone, the earliest of all. -/
def deadline? (r : Replica) : Option Instant :=
  ((r.tasks.filterMap Task.deadline).filter fun t => decide (r.now < t)).min?

def isDue (now : Instant) (task : Task) : Bool :=
  match task.deadline with
  | some t => t ≤ now
  | none => false

end Replica
end WorkQueue
