import WorkQueue.Gate

/-! # Everyone at one gate

Any number of calls come to a gate, wait, are woken and leave, while the processor is started
and stopped and permits are given back. A call runs in one go from one wait to the next, or it
is interrupted at the one place where that matters: after it has used up a wake-up and before
it looks whether it may proceed. A run is any sequence of such moves.
-/
namespace WorkQueue

/-- A gate with the calls that have used up a wake-up and have yet to look, and with the permits
that are alive, each under the call that it was granted to. -/
structure Crowd (ι : Type) where
  gate : Gate ι
  looking : List ι := []
  permits : List ι := []
  deriving Repr

/-- What happens next at a gate. -/
inductive Move (ι : Type)
  | start
  | stop
  /-- A call is made or goes on, and runs until it waits or ends. -/
  | poll (call : ι) (cancelled : Bool)
  /-- A call uses up a wake-up and is interrupted. -/
  | hear (call : ι)
  /-- A call that was interrupted looks whether it may proceed. If not, it has left the gate
  and comes again with its next move. -/
  | look (call : ι)
  /-- The task of a call is dropped. -/
  | abort (call : ι)
  /-- A permit is dropped. -/
  | release (call : ι)
  deriving Repr

/-- The state that a gate reports to have entered. -/
def GateNotice.entered? : GateNotice → Option ProcessorState
  | .changed _ after => some after
  | .startIgnored => none

namespace Crowd
variable {ι : Type}

/-- Nobody yet, in front of a gate that is open from the start or closed. -/
def gather (workOnStartup : Bool) : Crowd ι := { gate := Gate.new ι workOnStartup }

/-- The crowd after a call has had its answer from the gate. -/
def answer (c : Crowd ι) (i : ι) (r : Gate ι × Answer) : Crowd ι :=
  { c with gate := r.1, permits := if r.2 = .granted then i :: c.permits else c.permits }

/-- One move. A call that was interrupted can only look, and only a permit that is alive can be
dropped; any other move leaves the crowd as it is. -/
def step [DecidableEq ι] (c : Crowd ι) : Move ι → Crowd ι
  | .start => { c with gate := c.gate.start.1 }
  | .stop => { c with gate := c.gate.finishAndStop.1 }
  | .poll i cancelled => if i ∈ c.looking then c else c.answer i (c.gate.poll i cancelled)
  | .hear i =>
    if i ∈ c.looking then c
    else
      match c.gate.hear? i with
      | some heard => { c with gate := heard, looking := i :: c.looking }
      | none => c
  | .look i =>
    if i ∈ c.looking then { c with looking := c.looking.erase i }.answer i c.gate.look else c
  | .abort i => if i ∈ c.looking then c else { c with gate := c.gate.drop i }
  | .release i =>
    if i ∈ c.permits then
      { c with gate := c.gate.release.1, permits := c.permits.erase i }
    else c

def run [DecidableEq ι] (c : Crowd ι) (moves : List (Move ι)) : Crowd ι := moves.foldl step c

/-- What the gate reports of a move. -/
def notices [DecidableEq ι] (c : Crowd ι) : Move ι → List GateNotice
  | .start => c.gate.start.2
  | .stop => c.gate.finishAndStop.2
  | .release i => if i ∈ c.permits then c.gate.release.2 else []
  | _ => []

/-- The states that a move leads the gate through. -/
def entered [DecidableEq ι] (c : Crowd ι) (move : Move ι) : List ProcessorState :=
  (c.notices move).filterMap GateNotice.entered?

end Crowd
end WorkQueue
