import WorkQueue.Replica.Timeline

/-! # The course of a replica

A course is any sequence of events at a replica: commands, turns of tasks that stand in line in
whatever order, and the passing of time, which may overtake a task that is due. A task runs from
one wait to the next in one turn. What a course is judged by are the replicas that a task finds
at its turns, the answers that a request gets, and the writes that the store accepts.
-/
namespace WorkQueue

/-- What happens next at a replica. -/
inductive ReplicaEvent
  /-- A command is carried out, and no task goes on yet. -/
  | command (command : ReplicaCommand)
  /-- A task that stands in line takes its turn. -/
  | turn (id : Nat)
  /-- The clock moves on by a number of nanoseconds. -/
  | tick (span : Nat)
  /-- The tasks whose time has come go to the line. -/
  | ring

def Occurrence.response? : Occurrence → Option Http.Response
  | .responded _ response => some response
  | _ => none

/-- A write that the store has accepted. -/
def Occurrence.accepted? : Occurrence → Option (String × ProcessorState)
  | .stateWritten replica state true => some (replica, state)
  | _ => none

namespace Replica

def happen (r : Replica) : ReplicaEvent → Replica × List Occurrence
  | .command command => ((r.apply command).1, (r.apply command).2.2)
  | .turn id => r.turn id
  | .tick span => ({ r with now := r.now + span }, [])
  | .ring => (r.wake (r.idsOf (isDue r.now)), [])

def next (r : Replica) (event : ReplicaEvent) : Replica := (r.happen event).1

def after (r : Replica) (events : List ReplicaEvent) : Replica := events.foldl next r

/-- Whether some course leads from a start to a replica. -/
def Reachable (r : Replica) : Prop :=
  ∃ name workOnStartup interval events, r = (start name workOnStartup interval).after events

/-- Whether an event is a turn of a task that has not been aborted. -/
def goesOn (r : Replica) (id : Nat) : ReplicaEvent → Bool
  | .turn i => i == id && r.ready.contains id && (r.task? id).any fun task => !task.aborted
  | _ => false

/-- The replicas that a task finds at its turns. -/
def visits (r : Replica) (id : Nat) : List ReplicaEvent → List Replica
  | [] => []
  | event :: rest => (if r.goesOn id event then [r] else []) ++ (r.next event).visits id rest

/-- The answers that a request gets, each with its instant. A request is answered in a turn of
its own. -/
def answers (r : Replica) (id : Nat) : List ReplicaEvent → List (Instant × Http.Response)
  | [] => []
  | event :: rest =>
    (if r.goesOn id event then
      ((r.happen event).2.filterMap Occurrence.response?).map fun response => (r.now, response)
    else []) ++ (r.next event).answers id rest

/-- The writes that the store accepts on a course, whoever makes them, in turn. -/
def accepted (r : Replica) : List ReplicaEvent → List (String × ProcessorState)
  | [] => []
  | event :: rest =>
    (r.happen event).2.filterMap Occurrence.accepted? ++ (r.next event).accepted rest

/-- When a course first finds the shutdown begun, if it does. -/
def shutdownAt (r : Replica) : List ReplicaEvent → Option Instant
  | [] => if r.shutdown then some r.now else none
  | event :: rest => if r.shutdown then some r.now else (r.next event).shutdownAt rest

/-- Whether the clock waits for a task: it does not move on by a span while the task stands in
line, nor past the instant that the task waits for. -/
def Awaits (r : Replica) (id : Nat) (span : Nat) : Prop :=
  id ∉ r.ready ∧ ∀ task ∈ r.task? id, ∀ deadline ∈ task.deadline, r.now + span ≤ deadline

instance (r : Replica) (id span : Nat) : Decidable (r.Awaits id span) :=
  inferInstanceAs (Decidable (_ ∧ _))

/-- Whether a task takes its turns in time throughout a course. -/
def Prompt (r : Replica) (id : Nat) : List ReplicaEvent → Prop
  | [] => True
  | .tick span :: rest => r.Awaits id span ∧ (r.next (.tick span)).Prompt id rest
  | event :: rest => (r.next event).Prompt id rest

instance decidablePrompt (r : Replica) (id : Nat) :
    (events : List ReplicaEvent) → Decidable (r.Prompt id events)
  | [] => isTrue trivial
  | .tick span :: rest =>
    have := decidablePrompt (r.next (.tick span)) id rest
    inferInstanceAs (Decidable (_ ∧ _))
  | .command command :: rest => decidablePrompt (r.next (.command command)) id rest
  | .turn i :: rest => decidablePrompt (r.next (.turn i)) id rest
  | .ring :: rest => decidablePrompt (r.next .ring) id rest

/-- Whether an event is a start that takes effect: a command, or the turn of a request. -/
structure Starts (r : Replica) (event : ReplicaEvent) : Prop where
  stopped : r.gate.state = .stopped
  works : (r.next event).gate.state = .working
  asked : event = .command .start ∨ ∃ i task request, event = .turn i ∧ r.task? i = some task ∧
    task.duty = .request request false ∧ request.route = .ok .start

/-- Whether a request stands in line that has not been handled yet. -/
structure Receives (r : Replica) (id : Nat) (caller : String) (request : Http.Request) : Prop where
  made : r.task? id = some { id := id, name := caller, duty := .request request false }
  inLine : id ∈ r.ready

/-- Whether nothing is in flight and nobody holds a permit. -/
def Idle (r : Replica) : Prop := r.gate.inFlight = false ∧ r.holder = none

end Replica
end WorkQueue
