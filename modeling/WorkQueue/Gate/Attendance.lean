import WorkQueue.Gate.Crowd

/-! # Calls that go on by themselves

A call that holds a wake-up goes on by itself, and so does one that has looked in vain: it comes
back to the gate, where it may use up another wake-up before it waits. Here those on their way back
are kept beside the crowd, with a count of the wake-ups that are issued and of what the calls find
that use them up.
-/
namespace WorkQueue
variable {ι : Type}

/-- What a call finds that runs on after it has used up a wake-up: it looks once for each wake-up
that it uses up whether the gate is open. -/
def Gate.looks (g : Gate ι) : List Bool :=
  if g.isOpen then [true] else if g.stored then [false, false] else [false]

namespace Crowd
variable [DecidableEq ι]

/-- What calls find in a move, once for each wake-up that is used up and looked with. -/
def looks (c : Crowd ι) : Move ι → List Bool
  | .poll i false =>
    if i ∈ c.looking then []
    else
      match c.gate.hear? i with
      | some heard => heard.looks
      | none => []
  | .look i => if i ∈ c.looking then [c.gate.isOpen] else []
  | _ => []

/-- How often a call is woken in a move and not granted a permit. -/
def vain (c : Crowd ι) (move : Move ι) : Nat := (c.looks move).count false

/-- How many permits a move grants. -/
def grants (c : Crowd ι) (move : Move ι) : Nat :=
  if c.permits.length < (c.step move).permits.length then 1 else 0

/-- How many wake-ups a move issues: a start of what has stopped and the return of a permit while
the processor works issue one each. -/
def issues (c : Crowd ι) : Move ι → Nat
  | .start => if c.gate.state = .stopped then 1 else 0
  | .release i => if i ∈ c.permits ∧ c.gate.state = .working then 1 else 0
  | _ => 0

/-- A count of every move, summed over a run. -/
def total (count : Crowd ι → Move ι → Nat) (c : Crowd ι) : List (Move ι) → Nat
  | [] => 0
  | move :: rest => count c move + (c.step move).total count rest

end Crowd

/-- A crowd with the calls that have looked in vain and are on their way back to the gate. -/
structure Attendance (ι : Type) where
  crowd : Crowd ι
  returning : List ι := []
  deriving Repr

namespace Attendance

def gather (workOnStartup : Bool) : Attendance ι := { crowd := .gather workOnStartup }

variable [DecidableEq ι]

/-- Whether a call has come to the gate and has neither been answered nor been dropped. -/
def UnderWay (a : Attendance ι) (i : ι) : Prop :=
  a.crowd.gate.holds i = true ∨ i ∈ a.crowd.looking ∨ i ∈ a.returning

/-- The calls on their way back after a move. -/
def returningAfter (a : Attendance ι) : Move ι → List ι
  | .poll i _ | .abort i => if i ∈ a.crowd.looking then a.returning else a.returning.erase i
  | .hear i =>
    if i ∈ a.crowd.looking then a.returning
    else
      match a.crowd.gate.hear? i with
      | some _ => a.returning.erase i
      | none => a.returning
  | .look i =>
    if i ∈ a.crowd.looking ∧ a.crowd.gate.isOpen = false then i :: a.returning else a.returning
  | .start | .stop | .release _ => a.returning

def step (a : Attendance ι) (move : Move ι) : Attendance ι :=
  { crowd := a.crowd.step move, returning := a.returningAfter move }

def run (a : Attendance ι) (moves : List (Move ι)) : Attendance ι := moves.foldl step a

/-- The moves of calls that are under way and go on by themselves. A call that waits and has not
been woken has none. -/
inductive Goes (a : Attendance ι) : Move ι → Prop
  | poll {i : ι} (idle : i ∉ a.crowd.looking)
      (able : i ∈ a.crowd.gate.woken ∨ i ∈ a.returning) : Goes a (.poll i false)
  | hear {i : ι} {heard : Gate ι} (idle : i ∉ a.crowd.looking)
      (able : i ∈ a.crowd.gate.woken ∨ i ∈ a.returning)
      (hears : a.crowd.gate.hear? i = some heard) : Goes a (.hear i)
  | look {i : ι} (heard : i ∈ a.crowd.looking) : Goes a (.look i)

/-- Moves of which each is one that a call goes on with by itself. -/
def Proceeds (a : Attendance ι) : List (Move ι) → Prop
  | [] => True
  | move :: rest => a.Goes move ∧ (a.step move).Proceeds rest

end Attendance
end WorkQueue
