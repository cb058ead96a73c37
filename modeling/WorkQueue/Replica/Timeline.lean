import WorkQueue.Replica.Basic

/-! # A replica over time

Commands act on a replica from outside. After each command the tasks take their turns until
none can go on; a batch of commands is carried out before any task runs. An advance of the
clock stops at each deadline on the way.
-/
namespace WorkQueue

inductive ReplicaCommand
  | settle
  | start
  | stop
  | readState
  | begin (name : String)
  | release (name : String)
  | cancel (name : String)
  | abort (name : String)
  | awaitStopped (name : String) (every : Duration)
  | subscribe (name : String)
  | look (name : String)
  | record (name : String)
  | setState (replica : String) (state : ProcessorState)
  | readStates
  | rejectStore (writes reads : Bool)
  | request (name method path : String)
  | shutdown
  | advance (span : Duration)

inductive ReplicaReply
  | done
  | badRequest
  | state (s : ProcessorState)
  | ownState (replica : String) (s : ProcessorState)
  | released (held : Bool)
  /-- What a subscriber sees: whether the state was sent since it last looked, and the state. -/
  | seen (view : Option (Bool × ProcessorState))
  | states (report : ReplicaStates)
  | failed (failure : Failure)

structure Timed where
  time : Instant
  occurrence : Occurrence

namespace Replica

/-- A number of turns after which nobody stands in line. A task that ends may wake one call at
the gate, and a request may wake every recorder twice. -/
def patience (r : Replica) : Nat :=
  r.ready.length + (r.tasks.length + 1) * (r.tasks.length + 2)

/-- Lets tasks take turns, at most the given number. -/
def runFor : Nat → Replica → Replica × List Timed
  | 0, r => (r, [])
  | fuel + 1, r =>
    if r.ready.isEmpty then (r, [])
    else
      let (next, first) := r.step
      let (last, rest) := runFor fuel next
      (last, (first.map fun o => ⟨r.now, o⟩) ++ rest)

def run (r : Replica) : Replica × List Timed := r.runFor r.patience

/-- Lets everything run that can run without the clock moving. A wait whose interval is zero
looks once. -/
def settle (r : Replica) : Replica × List Timed :=
  let (r, first) := r.run
  let (r, rest) := (r.wake (r.idsOf (isDue r.now))).run
  (r, first ++ rest)

/-- Moves the clock to an instant from deadline to deadline. -/
def advanceTo (target : Instant) : Nat → Replica → Replica × List Timed
  | 0, r => { r with now := target }.settle
  | fuel + 1, r =>
    match r.deadline? with
    | some deadline =>
      if deadline ≤ target then
        let (next, first) := { r with now := deadline }.settle
        let (last, rest) := advanceTo target fuel next
        (last, first ++ rest)
      else { r with now := target }.settle
    | none => { r with now := target }.settle

def advance (r : Replica) (span : Duration) : Replica × List Timed :=
  r.advanceTo (r.now + span.toNanos) (span.toNanos / nanosPerMilli + 1)

/-- Fires the token of a name and wakes the tasks that heed it. -/
def cancel (r : Replica) (name : String) : Replica :=
  let listening := r.idsOf fun t => t.name == name && heedsToken t
  { r with cancelled := name :: r.cancelled }.wake listening

def abort (r : Replica) (name : String) : Replica :=
  let named := r.idsOf fun t => t.name == name
  let tasks := r.tasks.map fun t => if t.name = name then { t with aborted := true } else t
  { r with tasks := tasks }.wake named

/-- Gives the permit back that a name holds. -/
def release (r : Replica) (name : String) : Replica × Bool × List Occurrence :=
  if r.holder = some name then
    let (r, notices) := { r with holder := none }.operate r.gate.release
    (r, true, notices)
  else (r, false, [])

/-- What a subscriber sees of the state, which it has then seen. -/
def look (r : Replica) (name : String) : Replica × Option (Bool × ProcessorState) :=
  match r.watchers.get? name with
  | none => (r, none)
  | some version =>
    ({ r with watchers := NameMap.insert name r.gate.version r.watchers },
      some (r.gate.channel.look version))

/-- Carries a command out, the clock aside, before any task runs. -/
def apply (r : Replica) : ReplicaCommand → Replica × ReplicaReply × List Occurrence
  | .settle | .advance _ => (r, .done, [])
  | .start =>
    let (r, notices) := r.operate r.gate.start
    (r, .state r.gate.state, notices)
  | .stop =>
    let (r, notices) := r.operate r.gate.finishAndStop
    (r, .state r.gate.state, notices)
  | .readState => (r, .ownState r.name r.gate.state, [])
  | .begin name => (r.spawn name .begin, .done, [])
  | .release name =>
    let (r, held, notices) := r.release name
    (r, .released held, notices)
  | .cancel name => (r.cancel name, .done, [])
  | .abort name => (r.abort name, .done, [])
  | .awaitStopped name every => (r.spawn name (.awaitStopped every), .done, [])
  | .subscribe name =>
    ({ r with watchers := NameMap.insert name r.gate.version r.watchers },
      .state r.gate.published, [])
  | .look name =>
    let (r, view) := r.look name
    (r, .seen view, [])
  | .record name => (r.spawn name (.recorder .fresh), .done, [])
  | .setState replica state =>
    match r.write replica state with
    | (r, .ok _, written) => (r, .done, written)
    | (r, .error failure, written) => (r, .failed failure, written)
  | .readStates =>
    match r.store.states with
    | .ok states => (r, .states states, [])
    | .error failure => (r, .failed failure, [])
  | .rejectStore writes reads =>
    ({ r with store := { r.store with rejectsWrites := writes, rejectsReads := reads } }, .done, [])
  | .request name method path =>
    match Http.Request.make? method path with
    | none => (r, .badRequest, [])
    | some request => (r.spawn name (.request request false), .done, [])
  | .shutdown => ({ r with shutdown := true }.wake (r.idsOf isDraining), .done, [])

/-- Carries a command out at the present instant, without settling after it. Only an advance of
the clock lets tasks run. -/
def perform (r : Replica) (command : ReplicaCommand) : Replica × ReplicaReply × List Timed :=
  let (next, reply, notices) := r.apply command
  let (last, rest) := match command with
    | .advance span => next.advance span
    | _ => (next, [])
  (last, reply, (notices.map fun o => ⟨r.now, o⟩) ++ rest)

/-- Carries commands out one after the other without settling between them. -/
def performAll (r : Replica) : List ReplicaCommand → Replica × List ReplicaReply × List Timed
  | [] => (r, [], [])
  | command :: rest =>
    let (r, reply, first) := r.perform command
    let (r, replies, more) := performAll r rest
    (r, reply :: replies, first ++ more)

def execute (r : Replica) (commands : List ReplicaCommand) :
    Replica × List ReplicaReply × List Timed :=
  let (r, replies, first) := r.performAll commands
  let (r, rest) := r.settle
  (r, replies, first ++ rest)

/-- What a replica reports that is taken down where it stands: the permit is given back. -/
def close (r : Replica) : List Occurrence :=
  match r.holder with
  | some name => (r.release name).2.2
  | none => []

end Replica
end WorkQueue
