import Mathlib.Logic.Function.Basic
import WorkQueue.Gate.Crowd
import WorkQueue.Replica.Recorder
import WorkQueue.Telemetry.Metric

/-! # A gate and its subscribers

An operation on a gate makes its transitions one after another and tells of each on a channel and
to the counters before it makes the next one. Anybody may subscribe to the channel and look at any
time, also between two transitions of one operation; what an operation has yet to tell is then due.
The gate may be moved on meanwhile, which is more than its lock allows.
-/
namespace WorkQueue
variable {ι κ : Type}

/-- A change of state: from which, and to which. -/
abbrev Transition := ProcessorState × ProcessorState

namespace ProcessorState

/-- The state that comes next in the cycle of work and drain. -/
def next : ProcessorState → ProcessorState
  | .stopped => .working
  | .working => .stopping
  | .stopping => .stopped

/-- The state after a number of steps along the cycle. -/
def steps : ProcessorState → Nat → ProcessorState
  | state, 0 => state
  | state, n + 1 => state.next.steps n

/-- The transitions of a number of steps along the cycle. -/
def walk : ProcessorState → Nat → List Transition
  | _, 0 => []
  | state, n + 1 => (state, state.next) :: state.next.walk n

end ProcessorState

def GateNotice.transition? : GateNotice → Option Transition
  | .changed before after => some (before, after)
  | .startIgnored => none

def Notice.transition? : Notice → Option Transition
  | .stateChanged _ before after => some (before, after)
  | _ => none

/-- The transitions that a move makes. -/
def Crowd.transitions [DecidableEq ι] (c : Crowd ι) (move : Move ι) : List Transition :=
  (c.notices move).filterMap GateNotice.transition?

/-- A crowd at a gate, what the gate has told and is due to tell, and the version of the channel
that each subscriber saw last. -/
structure Broadcast (ι κ : Type) where
  name : String
  crowd : Crowd ι
  channel : Channel
  due : List GateNotice := []
  notices : List Notice := []
  seen : κ → Option Nat := fun _ => none

/-- What happens next. -/
inductive BroadcastEvent (ι κ : Type)
  | move (move : Move ι)
  /-- The gate tells the first of what is due. -/
  | tell
  | subscribe (who : κ)
  | look (who : κ)

namespace Broadcast

def opening (ι κ : Type) (name : String) (workOnStartup : Bool) : Broadcast ι κ :=
  let crowd := Crowd.gather workOnStartup
  { name := name, crowd := crowd, channel := crowd.gate.channel }

/-- The transitions that have been told. -/
def taken (s : Broadcast ι κ) : List Transition := s.notices.filterMap Notice.transition?

/-- The transitions that have been made, told or not. -/
def made (s : Broadcast ι κ) : List Transition :=
  s.taken ++ s.due.filterMap GateNotice.transition?

variable [DecidableEq κ]

/-- The broadcast after somebody has seen what the channel holds. -/
def witnessed (s : Broadcast ι κ) (who : κ) : Broadcast ι κ :=
  { s with seen := Function.update s.seen who (some s.channel.version) }

variable [DecidableEq ι]

def next (s : Broadcast ι κ) : BroadcastEvent ι κ → Broadcast ι κ
  | .move move => { s with crowd := s.crowd.step move, due := s.due ++ s.crowd.notices move }
  | .tell =>
    match s.due with
    | [] => s
    | notice :: rest =>
      { s with
        due := rest
        notices := s.notices ++ [notice.toNotice s.name]
        channel := match notice.entered? with
          | some state => s.channel.send state
          | none => s.channel }
  | .subscribe who => s.witnessed who
  | .look who => if (s.seen who).isSome then s.witnessed who else s

def run (s : Broadcast ι κ) (events : List (BroadcastEvent ι κ)) : Broadcast ι κ :=
  events.foldl next s

end Broadcast
end WorkQueue
