import WorkQueue.Gate

/-! # A recorder of states

A processor sends each of its states on a channel that keeps the last one. A recorder looks at the
channel and writes what it sees to a store; when the write has ended, well or not, it waits for a
state sent since it looked. What is sent while a write is pending is seen after it, the last state
only.
-/
namespace WorkQueue

/-- What a channel holds: the state sent last, and how many were sent before it. -/
structure Channel where
  state : ProcessorState
  version : Nat := 0
  deriving DecidableEq, Repr

def Channel.send (sent : Channel) (state : ProcessorState) : Channel := ⟨state, sent.version + 1⟩

/-- What a subscriber sees that has seen what was sent up to a version: whether anything was sent
since, and the state sent last. -/
def Channel.look (sent : Channel) (seen : Nat) : Bool × ProcessorState :=
  (sent.version != seen, sent.state)

/-- What a gate has sent last. -/
def Gate.channel (g : Gate ι) : Channel := ⟨g.published, g.version⟩

/-- Where a recorder stands. -/
inductive Recorder
  | fresh
  /-- A write is pending, of what the recorder saw when it looked. -/
  | writing (seen : Channel)
  /-- It waits for a state sent after the version that it saw. -/
  | waiting (version : Nat)
  | ended
  deriving DecidableEq, Repr

namespace Recorder

/-- Lets a recorder run until it has to wait for the store or for a state. One that waits ends if
its token has fired; a fresh one looks first. -/
def resume (recorder : Recorder) (sent : Channel) (cancelled : Bool) : Recorder :=
  match recorder with
  | .fresh => .writing sent
  | .writing seen => .writing seen
  | .waiting version =>
    if cancelled then .ended
    else if version = sent.version then .waiting version
    else .writing sent
  | .ended => .ended

/-- The recorder after the pending write has ended. -/
def written : Recorder → Recorder
  | .writing seen => .waiting seen.version
  | recorder => recorder

end Recorder
end WorkQueue
