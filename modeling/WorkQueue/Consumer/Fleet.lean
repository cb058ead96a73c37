import Mathlib.Data.Fintype.Defs
import Mathlib.Logic.Function.Basic
import WorkQueue.Consumer.Journal

/-! # Replicas of a consumer

Several consumers compete for the messages of one queue. They share the clock and the queue, and
each has a gate, handlers and a journal of its own. An event happens at one of them; the others
find the clock and the queue as it leaves them.
-/
namespace WorkQueue

/-- Whether the attempt ended with the success of its handler. -/
def Entry.succeeded (entry : Entry) : Bool :=
  match entry.ending with
  | some (.dispatched _ (.ok _)) => true
  | _ => false

/-- How often a handler has succeeded with a message. -/
def Journal.successes (j : Journal) (id : Int) : Nat := (j.entriesOf id).countP Entry.succeeded

/-- What a replica has for itself, and when it took the message that it has in hand. -/
structure Member (σ : Type) where
  consumer : Consumer
  handlers : σ
  released : Bool := false
  journal : Journal := {}
  taken : Instant := 0

structure Fleet (κ σ : Type) where
  now : Moment
  queue : UnreliableQueue
  member : κ → Member σ

namespace Fleet
variable (setup : κ → ConsumerSetup ι σ)

/-- The run of one replica, as the fleet stands. -/
def chronicle (f : Fleet κ σ) (i : κ) : Chronicle σ :=
  let m := f.member i
  { site := ⟨m.consumer, ⟨f.now, f.queue, m.handlers, m.released⟩⟩, journal := m.journal }

def inHand? (f : Fleet κ σ) (i : κ) : Option Delivery := (f.member i).consumer.stage.inHand?

/-- Lets an event happen at one replica. -/
def next [DecidableEq κ] (f : Fleet κ σ) (at_ : κ × Event) : Fleet κ σ :=
  let r := (f.chronicle at_.1).next (setup at_.1) at_.2
  let s := r.site.surroundings
  { now := s.now
    queue := s.queue
    member := Function.update f.member at_.1
      { consumer := r.site.consumer
        handlers := s.handlers
        released := s.released
        journal := r.journal
        taken := if (f.inHand? at_.1).isSome then (f.member at_.1).taken else f.now.running } }

def run [DecidableEq κ] (f : Fleet κ σ) (events : List (κ × Event)) : Fleet κ σ :=
  events.foldl (next setup) f

/-- Replicas that have taken no step, before an empty store or one with a queue in it. -/
def opening (queue : String) (workOnStartup : κ → Bool) (createQueue : Bool) (plan : FaultPlan)
    (ofDay : Instant) (handlers : κ → σ) : Fleet κ σ :=
  let empty : QueueStore := {}
  { now := ⟨0, ofDay⟩
    queue := { store := if createQueue then empty.create queue else empty, plan := plan }
    member := fun i => { consumer := Consumer.start (workOnStartup i), handlers := handlers i } }

/-- When the window ends that the receive of the message in hand has put on it. -/
def leaseEnd (f : Fleet κ σ) (i : κ) : Instant :=
  windowEnd (f.member i).taken (setup i).options.invisibility

/-- Whether no replica has a message in hand whose window is over. -/
def InTime (f : Fleet κ σ) : Prop :=
  ∀ i, (f.inHand? i).isSome = true → f.now.running < f.leaseEnd setup i

instance [Fintype κ] (f : Fleet κ σ) : Decidable (f.InTime setup) :=
  inferInstanceAs (Decidable (∀ _, _ → _ < _))

end Fleet
end WorkQueue
