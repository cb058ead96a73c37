import WorkQueue.Consumer.Timeline
import WorkQueue.Queue.History

/-! # Runs of a consumer, written down

A run is any sequence of events at a site: steps of the consumer, commands, the passing of time,
and calls of other clients of the store, in any order and number. The journal of a run keeps
what it is judged by: the messages that the consumer's queue accepted, and of each delivery to
the consumer how its attempt ended and which deletes were issued meanwhile.
-/
namespace WorkQueue

/-- Carries a foreign call out. -/
def ForeignCall.carryOut (s : QueueStore) (now : Moment) : ForeignCall → QueueStore × Reply
  | .create queue => (s.create queue, .done)
  | .send queue body delay =>
    let (s, answer) := s.send now queue body delay
    (s, Site.sendReply answer)
  | .receive queue window => ((s.receive now queue window).1, .done)
  | .delete queue id => ((s.delete queue id).1, .done)

/-- What happens next at a site. -/
inductive Event
  /-- The consumer takes a step. -/
  | step
  /-- A command is carried out, and the consumer does not go on yet. -/
  | command (command : Command)
  /-- The clock moves on by a number of nanoseconds. -/
  | tick (span : Nat)
  /-- Another client calls the store. -/
  | foreign (call : ForeignCall)

namespace Event

/-- The body that an event sends, if it sends one. -/
def body : Event → String
  | .command (.send body _) => body
  | .command (.produce payload _) => payload.encode.toOption.getD ""
  | .foreign (.send _ body _) => body
  | _ => ""

/-- Whether an event leaves the messages of a queue in place, as far as others are concerned. -/
def Keeps (queue : String) : Event → Prop
  | .foreign (.delete name _) => name ≠ queue
  | _ => True

/-- Whether an event is no other client's receive or delete of what a queue holds. -/
def Undisturbing (queue : String) : Event → Prop
  | .foreign (.receive name _) => name ≠ queue
  | .foreign (.delete name _) => name ≠ queue
  | _ => True

/-- Whether an event sends nothing and is no call of another client to a queue. -/
def Isolated (queue : String) : Event → Prop
  | .command (.send _ _) => False
  | .command (.produce _ _) => False
  | .foreign call => call.queue ≠ queue
  | _ => True

end Event

/-- The delivery that a consumer has in hand between two steps. -/
def Stage.inHand? : Stage → Option Delivery
  | .handling d _ _ => some d
  | _ => none

/-- How the attempt ended, if it did. -/
def AttemptProgress.ending? : AttemptProgress → Option Ending
  | .ended ending => some ending
  | .suspended _ _ => none

/-- How the attempt ends that the next step of the consumer brings to its end, if it does. -/
def Consumer.ending? (setup : ConsumerSetup ι σ) (c : Consumer) (s : Surroundings σ) :
    Option Ending :=
  match c.stage with
  | .receiving ready =>
    if c.cancelled then none
    else if ready ≤ s.now.running then
      match s.queue.receive s.now setup.options.queue setup.options.invisibility with
      | (queue, .ok (some d)) =>
        (c.attempt setup { s with queue := queue } d).progress.ending?
      | _ => none
    else none
  | .handling _ item wait => (c.resume s item wait).progress.ending?
  | _ => none

/-- Carries an event out: the site afterwards, what was answered, and what was reported. -/
def Site.happen (setup : ConsumerSetup ι σ) (site : Site σ) :
    Event → Site σ × Reply × List Notice
  | .step =>
    let t := site.consumer.step setup site.surroundings
    (⟨t.consumer, t.surroundings⟩, .done, t.notices)
  | .command command => site.apply setup command
  | .tick span => (site.moveClock (site.now + span), .done, [])
  | .foreign call =>
    let q := site.surroundings.queue
    let (store, reply) := call.carryOut q.store site.surroundings.now
    (site.withQueue { q with store := store }, reply, [])

/-- What is written down of a delivery: how its attempt ended, and the deletes that were issued
before that. -/
structure Entry where
  delivery : Delivery
  ending : Option Ending := none
  deletes : List (Int × Except Failure Unit) := []

/-- What is written down of a run, the latest first. A delete that was issued while no attempt
was open is stray. -/
structure Journal where
  accepted : List (Int × String) := []
  entries : List Entry := []
  stray : List (Int × Except Failure Unit) := []

namespace Journal

/-- Writes a notice down if a queue call is behind it. -/
def note (j : Journal) : Notice → Journal
  | .received (.ok (some d)) => { j with entries := { delivery := d } :: j.entries }
  | .deleted id answer =>
    match j.entries with
    | ⟨d, none, deletes⟩ :: older =>
      { j with entries := ⟨d, none, deletes ++ [(id, answer)]⟩ :: older }
    | _ => { j with stray := (id, answer) :: j.stray }
  | _ => j

/-- Writes down how the open attempt ended. -/
def close (j : Journal) : Option Ending → Journal
  | none => j
  | some ending =>
    match j.entries with
    | ⟨d, none, deletes⟩ :: older => { j with entries := ⟨d, some ending, deletes⟩ :: older }
    | _ => j

/-- Writes a message down that a queue accepted. -/
def accept (j : Journal) (queue body : String) : Reply → Journal
  | .sent receipt =>
    if receipt.queue = queue then { j with accepted := (receipt.id, body) :: j.accepted } else j
  | _ => j

/-- What is written down of the deliveries of one message. -/
def entriesOf (j : Journal) (id : Int) : List Entry :=
  j.entries.filter fun entry => entry.delivery.id == id

end Journal

/-- A site and the journal of the run that led to it. -/
structure Chronicle (σ : Type) where
  site : Site σ
  journal : Journal := {}

namespace Chronicle
variable (setup : ConsumerSetup ι σ)

/-- Lets an event happen and writes it down. -/
def next (r : Chronicle σ) (event : Event) : Chronicle σ :=
  let (site, reply, notices) := r.site.happen setup event
  let ending := match event with
    | .step => r.site.consumer.ending? setup r.site.surroundings
    | _ => none
  let journal := (notices.foldl Journal.note r.journal).close ending
  ⟨site, journal.accept setup.options.queue event.body reply⟩

def run (r : Chronicle σ) (events : List Event) : Chronicle σ := events.foldl (next setup) r

/-- Nothing written yet, at a site whose consumer has taken no step. -/
def opening (workOnStartup createQueue : Bool) (plan : FaultPlan) (ofDay : Instant)
    (handlers : σ) : Chronicle σ :=
  { site := Site.initial setup workOnStartup createQueue plan ofDay handlers }

end Chronicle

/-- A consumer of one type whose handler counts the work items and comes to the same result with
each of them. -/
def ConsumerSetup.uniform (maxAttempts : Nat) (result : Except Failure Unit) :
    ConsumerSetup WorkItem Nat :=
  { options := { queue := "q", maxAttempts := maxAttempts }
    replica := "r"
    registry := ⟨[⟨"t", .ok, fun h => by cases h⟩], by simp⟩
    handler := ⟨fun _ handled => (handled + 1, .done result)⟩ }

end WorkQueue
