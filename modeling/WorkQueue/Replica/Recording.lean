import WorkQueue.Gate.Crowd
import WorkQueue.Replica.Recorder
import WorkQueue.Replica.States

/-! # A recorder at a gate

A recorder is spawned for a gate that anyone may start, stop and pass meanwhile. The states that
the gate enters go out on the channel one by one, and the recorder may look between two of them.
Its writes take time: while one is pending the gate moves on, and the store may begin or cease to
reject writes, or be written by others. A run is any sequence of such events; beside it stand what
the recorder is judged by, the states of the gate since the spawn and the writes it has begun.
-/
namespace WorkQueue
variable {ι : Type}

/-- A write that a recorder has begun, and once it has ended whether the store accepted it. -/
structure Attempt where
  state : ProcessorState
  accepted? : Option Bool := none
  deriving DecidableEq, Repr

/-- A crowd at a gate, the channel that the gate sends its states on, and a recorder with its
store. There is no recorder before the spawn. -/
structure Recording (ι : Type) where
  name : String
  crowd : Crowd ι
  channel : Channel
  /-- What the gate has entered and not sent yet. -/
  unsent : List ProcessorState := []
  recorder : Option Recorder := none
  store : StateStore := {}
  /-- The states of the gate from the spawn on. -/
  history : List ProcessorState := []
  attempts : List Attempt := []

/-- What happens next. -/
inductive RecordingEvent (ι : Type)
  | move (move : Move ι)
  /-- A state that the gate has entered goes out on the channel. -/
  | send
  | spawn
  /-- The recorder goes on; `cancelled` says whether it sees that its token has fired. -/
  | resume (cancelled : Bool)
  /-- The pending write ends. -/
  | written
  /-- Somebody else writes to the store. -/
  | write (replica : String) (state : ProcessorState)
  | reject (writes : Bool)

namespace Recording

def opening (ι : Type) (name : String) (workOnStartup : Bool) : Recording ι :=
  let crowd := Crowd.gather workOnStartup
  { name := name, crowd := crowd, channel := crowd.gate.channel }

/-- What the recorder attempts by going on from one place to another. -/
def begun (before after : Recorder) : List Attempt :=
  match before, after with
  | .writing _, _ => []
  | _, .writing seen => [{ state := seen.state }]
  | _, _ => []

variable [DecidableEq ι]

def next (s : Recording ι) : RecordingEvent ι → Recording ι
  | .move move =>
    { s with
      crowd := s.crowd.step move
      unsent := s.unsent ++ s.crowd.entered move
      history := if s.recorder.isSome then s.history ++ s.crowd.entered move else s.history }
  | .send =>
    match s.unsent with
    | [] => s
    | state :: rest => { s with channel := s.channel.send state, unsent := rest }
  | .spawn =>
    if s.recorder.isSome then s
    else { s with recorder := some .fresh, history := s.channel.state :: s.unsent }
  | .resume cancelled =>
    match s.recorder with
    | none => s
    | some recorder =>
      let after := recorder.resume s.channel cancelled
      { s with recorder := some after, attempts := s.attempts ++ begun recorder after }
  | .written =>
    match s.recorder with
    | some (.writing seen) =>
      let (store, answer) := s.store.record s.name seen.state
      { s with
        recorder := some (Recorder.writing seen).written
        store := store
        attempts := s.attempts.dropLast ++ [{ state := seen.state, accepted? := answer.isOk }] }
    | _ => s
  | .write replica state => { s with store := (s.store.record replica state).1 }
  | .reject writes => { s with store := { s.store with rejectsWrites := writes } }

def run (s : Recording ι) (events : List (RecordingEvent ι)) : Recording ι := events.foldl next s

omit [DecidableEq ι] in
/-- Whether the recorder waits and nothing is left to be done: every state has been sent, and the
recorder has seen the last one. -/
def Rests (s : Recording ι) : Prop :=
  s.unsent = [] ∧ ∃ version, s.recorder = some (.waiting version) ∧
    (Recorder.waiting version).resume s.channel false = .waiting version

end Recording
end WorkQueue
