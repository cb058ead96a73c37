import WorkQueue.Replica.Timeline

/-! # A fair lock

What the gate of a replica comes to if everything that can run does run after each request: a lock
with at most one holder and one line of calls. No call is ever woken; the first of the line gets the
lock as soon as the processor works and nobody holds it.
-/
namespace WorkQueue

/-- A call to begin a work item, with the number of calls made before it. -/
structure Call where
  number : Nat
  name : String
  deriving DecidableEq, Repr

inductive LockRequest
  | start
  | stop
  | begin (name : String)
  | release (name : String)
  | cancel (name : String)
  | abort (name : String)
  deriving DecidableEq, Repr

inductive LockEvent
  | granted (call : Call)
  /-- The token of the call has fired. -/
  | refused (call : Call)
  deriving DecidableEq, Repr

/-- What comes of a request. -/
structure LockOutcome where
  reply : ReplicaReply
  events : List LockEvent

structure FairLock where
  state : ProcessorState
  holder : Option String := none
  waiting : List Call := []
  cancelled : List String := []
  calls : Nat := 0
  deriving DecidableEq, Repr

namespace FairLock

def opening (workOnStartup : Bool) : FairLock := { state := .initial workOnStartup }

/-- Whether the lock can be had. -/
def Free (l : FairLock) : Prop := l.state = .working ∧ l.holder = none

instance (l : FairLock) : Decidable l.Free := inferInstanceAs (Decidable (_ ∧ _))

/-- Gives the lock to the first of the line if it can be had. -/
def serve (l : FairLock) : FairLock × List LockEvent :=
  match l.waiting with
  | [] => (l, [])
  | call :: rest =>
    if l.Free then ({ l with holder := some call.name, waiting := rest }, [.granted call])
    else (l, [])

/-- The lock once its holder has given it back, which ends a drain. -/
def released (l : FairLock) : FairLock :=
  { l with state := if l.state = .stopping then .stopped else l.state, holder := none }

/-- Carries a request out before the line moves on. -/
def ask (l : FairLock) : LockRequest → FairLock × LockOutcome
  | .start =>
    let state := if l.state = .stopped then .working else l.state
    ({ l with state := state }, ⟨.state state, []⟩)
  | .stop =>
    let state :=
      if l.state = .working then if l.holder = none then .stopped else .stopping else l.state
    ({ l with state := state }, ⟨.state state, []⟩)
  | .begin name =>
    let call : Call := ⟨l.calls, name⟩
    if name ∈ l.cancelled then ({ l with calls := l.calls + 1 }, ⟨.done, [.refused call]⟩)
    else ({ l with calls := l.calls + 1, waiting := l.waiting ++ [call] }, ⟨.done, []⟩)
  | .release name =>
    if l.holder = some name then (l.released, ⟨.released true, []⟩)
    else (l, ⟨.released false, []⟩)
  | .cancel name =>
    ({ l with
      cancelled := name :: l.cancelled
      waiting := l.waiting.filter fun call => call.name ≠ name },
      ⟨.done, (l.waiting.filter fun call => call.name = name).map .refused⟩)
  | .abort name =>
    ({ l with waiting := l.waiting.filter fun call => call.name ≠ name }, ⟨.done, []⟩)

def step (l : FairLock) (request : LockRequest) : FairLock × LockOutcome :=
  let (asked, outcome) := l.ask request
  let (served, granted) := asked.serve
  (served, { outcome with events := outcome.events ++ granted })

def after (l : FairLock) (requests : List LockRequest) : FairLock :=
  requests.foldl (fun l request => (l.step request).1) l

def outcomes (l : FairLock) : List LockRequest → List LockOutcome
  | [] => []
  | request :: rest => (l.step request).2 :: (l.step request).1.outcomes rest

end FairLock

/-! ## What others get -/

namespace LockEvent

def call : LockEvent → Call
  | granted call | refused call => call

def map (f : Call → Call) : LockEvent → LockEvent
  | granted call => granted (f call)
  | refused call => refused (f call)

/-- The call that an event grants. -/
def grants? : LockEvent → Option Call
  | granted call => some call
  | refused _ => none

end LockEvent

def LockOutcome.grants (o : LockOutcome) : List Call := o.events.filterMap LockEvent.grants?

/-- A call as it is numbered if another one is not made. -/
def Call.without (number : Nat) (c : Call) : Call :=
  if number < c.number then { c with number := c.number - 1 } else c

/-- What comes of a request for all calls but one, numbered as if that one were not made. -/
def LockOutcome.without (number : Nat) (o : LockOutcome) : LockOutcome :=
  { o with
    events := (o.events.filter fun e => e.call.number ≠ number).map (.map (.without number)) }

/-! ## Requests at a replica -/

def LockRequest.command : LockRequest → ReplicaCommand
  | start => .start
  | stop => .stop
  | begin name => .begin name
  | release name => .release name
  | cancel name => .cancel name
  | abort name => .abort name

/-- Whether a call to begin a work item ends. -/
def Occurrence.isAnswer : Occurrence → Bool
  | granted _ | refused _ _ => true
  | _ => false

def LockEvent.occurrence : LockEvent → Occurrence
  | granted call => .granted call.name
  | refused call => .refused call.name .cancelled

def LockOutcome.shown (o : LockOutcome) : List ReplicaReply × List Occurrence :=
  ([o.reply], o.events.map LockEvent.occurrence)

namespace Replica

/-- Carries a request out and lets everything run that can; the replies, and the calls that end. -/
def attend (r : Replica) (request : LockRequest) :
    Replica × List ReplicaReply × List Occurrence :=
  let (last, replies, timed) := r.execute [request.command]
  (last, replies, (timed.map Timed.occurrence).filter Occurrence.isAnswer)

def attendAll (r : Replica) : List LockRequest → Replica × List (List ReplicaReply × List Occurrence)
  | [] => (r, [])
  | request :: rest =>
    let (next, shown) := r.attend request
    let (last, later) := next.attendAll rest
    (last, shown :: later)

end Replica
end WorkQueue
