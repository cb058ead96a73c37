import WorkQueue.Consumer.Basic
import WorkQueue.Producer
import WorkQueue.Payload.Catalog

/-! # A consumer over time

A timeline drives one consumer by commands from outside. After each command the consumer
takes every step it can without the clock moving; an advance of the clock stops at each
deadline on the way. The number of steps that a consumer can take at one instant is bounded
by what the queue holds: a message is delivered at most as often as attempts are left, once
at least.
-/
namespace WorkQueue

/-- A consumer in its surroundings, with everything reported so far left out. -/
structure Site (σ : Type) where
  consumer : Consumer
  surroundings : Surroundings σ

/-- What is done to a consumer or its queue from outside. -/
inductive Command
  | settle
  | start
  | stop
  | cancel
  | release
  | createQueue
  | send (body : String) (delay : Duration)
  | produce (payload : AnyPayload) (delay : Duration)
  | advance (span : Duration)

/-- What a command answers. -/
inductive Reply
  | done
  | state (s : ProcessorState)
  | sent (receipt : Receipt)
  | failed (failure : Failure)

namespace Site
variable (setup : ConsumerSetup ι σ)

/-- The deliveries that the held messages still have before them. -/
def deliveriesLeft (maxAttempts : Nat) (held : List StoredMessage) : Nat :=
  held.foldr (fun m n => max 1 (maxAttempts - deliveryCount m.readCount) + n) 0

/-- A number of steps after which the consumer waits. Each delivery takes a step at the gate,
one to receive and one to be handled. -/
def patience (site : Site σ) : Nat :=
  let held := site.surroundings.queue.store.held setup.options.queue
  4 * deliveriesLeft setup.options.maxAttempts held + 8

def now (site : Site σ) : Instant := site.surroundings.now.running

def stamp (site : Site σ) (notices : List Notice) : List Stamped :=
  notices.map fun n => ⟨site.now, n⟩

def step (site : Site σ) : Site σ × List Stamped :=
  let t := site.consumer.step setup site.surroundings
  (⟨t.consumer, t.surroundings⟩, site.stamp t.notices)

/-- Takes steps while the consumer can go on, at most the given number. -/
def settleFor : Nat → Site σ → Site σ × List Stamped
  | 0, site => (site, [])
  | fuel + 1, site =>
    if site.consumer.isReady site.surroundings then
      let (next, first) := site.step setup
      let (last, rest) := settleFor fuel next
      (last, first ++ rest)
    else (site, [])

/-- Takes every step that needs no time. -/
def settle (site : Site σ) : Site σ × List Stamped :=
  site.settleFor setup (site.patience setup)

def moveClock (site : Site σ) (running : Instant) : Site σ :=
  let s := site.surroundings
  let moved := running - s.now.running
  { site with surroundings := { s with now := ⟨s.now.running + moved, s.now.ofDay + moved⟩ } }

def advanceTo (target : Instant) : Nat → Site σ → Site σ × List Stamped
  | 0, site => (site.moveClock target).settle setup
  | fuel + 1, site =>
    match site.consumer.deadline? with
    | some deadline =>
      if deadline ≤ target then
        let (next, first) := (site.moveClock deadline).settle setup
        let (last, rest) := advanceTo target fuel next
        (last, first ++ rest)
      else (site.moveClock target).settle setup
    | none => (site.moveClock target).settle setup

/-- Moves the clock on by a span. Deadlines are whole milliseconds and lie ahead. -/
def advance (site : Site σ) (span : Duration) : Site σ × List Stamped :=
  site.advanceTo setup (site.now + span.toNanos) (span.toNanos / nanosPerMilli + 1)

/-- The site with another gate, and what the gate reported. -/
def withGate (site : Site σ) (change : Gate Unit × List GateNotice) : Site σ × List Notice :=
  ({ site with consumer := { site.consumer with gate := change.1 } },
    change.2.map (GateNotice.toNotice setup.replica))

/-- The site with another queue. -/
def withQueue (site : Site σ) (queue : UnreliableQueue) : Site σ :=
  { site with surroundings := { site.surroundings with queue := queue } }

def sendReply : Except Failure Receipt → Reply
  | .ok receipt => .sent receipt
  | .error failure => .failed failure

/-- Carries a command out, the clock aside, before the consumer goes on. -/
def apply (site : Site σ) : Command → Site σ × Reply × List Notice
  | .settle | .advance _ => (site, .done, [])
  | .start =>
    let (site, notices) := site.withGate setup site.consumer.gate.start
    (site, .state site.consumer.gate.state, notices)
  | .stop =>
    let (site, notices) := site.withGate setup site.consumer.gate.finishAndStop
    (site, .state site.consumer.gate.state, notices)
  | .cancel => ({ site with consumer := { site.consumer with cancelled := true } }, .done, [])
  | .release =>
    ({ site with surroundings := { site.surroundings with released := true } }, .done, [])
  | .createQueue =>
    let q := site.surroundings.queue
    (site.withQueue { q with store := q.store.create setup.options.queue }, .done, [])
  | .send body delay =>
    let s := site.surroundings
    let (queue, answer) := s.queue.send s.now setup.options.queue body delay
    (site.withQueue queue, sendReply answer, [])
  | .produce payload delay =>
    let s := site.surroundings
    let producer : Producer := ⟨setup.options.queue⟩
    let (queue, answer, notices) := producer.produceDelayed s.queue s.now payload.value delay
    (site.withQueue queue, sendReply answer, notices)

/-- Lets the consumer go on upon a command. -/
def proceed (site : Site σ) : Command → Site σ × List Stamped
  | .advance span => site.advance setup span
  | _ => site.settle setup

def execute (site : Site σ) (command : Command) : Site σ × Reply × List Stamped :=
  let (next, reply, notices) := site.apply setup command
  let (last, rest) := next.proceed setup command
  (last, reply, site.stamp notices ++ rest)

/-- A site before its consumer has taken a step: an empty store or one with the consumer's
queue in it, and the consumer in front of its gate. -/
def initial (workOnStartup createQueue : Bool) (plan : FaultPlan) (ofDay : Instant)
    (handlers : σ) : Site σ :=
  let empty : QueueStore := {}
  let store := if createQueue then empty.create setup.options.queue else empty
  { consumer := Consumer.start workOnStartup
    surroundings :=
      { now := ⟨0, ofDay⟩, queue := { store := store, plan := plan }, handlers := handlers } }

/-- A site at the start: the consumer settled in front of its gate or on its first poll. -/
def start (workOnStartup createQueue : Bool) (plan : FaultPlan) (ofDay : Instant) (handlers : σ) :
    Site σ × List Stamped :=
  let site := initial setup workOnStartup createQueue plan ofDay handlers
  let (settled, rest) := site.settle setup
  (settled, site.stamp (Consumer.opening setup) ++ rest)

def held (site : Site σ) : List StoredMessage :=
  site.surroundings.queue.store.held setup.options.queue

end Site
end WorkQueue
