import WorkQueue.Queue.InMemory

/-! # Histories of a store

A history lists the calls that a store has served, the first one first, each with its time and its
answer. It tells what the store holds without a look inside.
-/
namespace WorkQueue

/-- A call of another client of the store. -/
inductive ForeignCall
  | create (queue : String)
  | send (queue body : String) (delay : Duration)
  | receive (queue : String) (window : Duration)
  | delete (queue : String) (id : Int)

inductive QueueAnswer
  | created
  | sent (answer : Except Failure Receipt)
  | received (answer : Except Failure (Option Delivery))
  | deleted (answer : Except Failure Unit)

def QueueAnswer.failure? : QueueAnswer → Option Failure
  | .sent (.error failure) => some failure
  | .received (.error failure) => some failure
  | .deleted (.error failure) => some failure
  | _ => none

namespace ForeignCall

def queue : ForeignCall → String
  | .create queue => queue
  | .send queue _ _ => queue
  | .receive queue _ => queue
  | .delete queue _ => queue

/-- Carries a call out: the store afterwards, and the answer. -/
def perform (s : QueueStore) (now : Moment) : ForeignCall → QueueStore × QueueAnswer
  | .create queue => (s.create queue, .created)
  | .send queue body delay =>
    let (s, answer) := s.send now queue body delay
    (s, .sent answer)
  | .receive queue window =>
    let (s, answer) := s.receive now queue window
    (s, .received answer)
  | .delete queue id =>
    let (s, answer) := s.delete queue id
    (s, .deleted answer)

section
variable {s : QueueStore} {now : Moment} {queue body : String} {delay window : Duration} {id : Int}

@[simp] theorem perform_create :
    (create queue).perform s now = (s.create queue, .created) := rfl

@[simp] theorem perform_send : (send queue body delay).perform s now =
    ((s.send now queue body delay).1, .sent (s.send now queue body delay).2) := rfl

@[simp] theorem perform_receive : (receive queue window).perform s now =
    ((s.receive now queue window).1, .received (s.receive now queue window).2) := rfl

@[simp] theorem perform_delete : (delete queue id).perform s now =
    ((s.delete queue id).1, .deleted (s.delete queue id).2) := rfl

end
end ForeignCall

/-- A call that has been served. -/
structure Record where
  time : Moment
  call : ForeignCall
  answer : QueueAnswer

namespace Record

def receipt? (r : Record) : Option Receipt :=
  match r.answer with
  | .sent (.ok receipt) => some receipt
  | _ => none

/-- The queue that the call received from, and what it received. -/
def delivered? (r : Record) : Option (String × Delivery) :=
  match r.call, r.answer with
  | .receive queue _, .received (.ok (some d)) => some (queue, d)
  | _, _ => none

/-- Whether the call put a body into a queue under an identity. -/
def Sends (queue : String) (id : Int) (body : String) (r : Record) : Prop :=
  (∃ delay, r.call = .send queue body delay) ∧ r.receipt? = some ⟨queue, id⟩

/-- Whether the call received the message of an identity from a queue. -/
def hands (queue : String) (id : Int) (r : Record) : Bool :=
  r.delivered?.any fun received => received.1 == queue && received.2.id == id

/-- Whether a call put a window on the message of an identity, by sending it with a delay or by
delivering it. -/
inductive Covers (queue : String) (id : Int) (window : Duration) : Record → Prop
  | sent {now : Moment} {body : String} :
      Covers queue id window ⟨now, .send queue body window, .sent (.ok ⟨queue, id⟩)⟩
  | delivered {now : Moment} {d : Delivery} (same : d.id = id) :
      Covers queue id window ⟨now, .receive queue window, .received (.ok (some d))⟩

end Record

/-- Whether the running clock can hold the end of a window that starts now. -/
def FitsClock (now : Instant) (window : Duration) : Prop :=
  (now + window.toNanos) / nanosPerSecond ≤ lastRunningSecond

/-- When a window ends that starts now: after the time that was asked for, or after 365 days if the
running clock cannot hold that. -/
inductive Ends (now : Instant) (window : Duration) : Instant → Prop
  | asked (fits : FitsClock now window) : Ends now window (now + window.toNanos)
  | cut (unfit : ¬ FitsClock now window) :
      Ends now window (now + 365 * 24 * 60 * 60 * nanosPerSecond)

/-- Whether the two readings of a moment are those of one clock, which showed `origin` as the time
of day when the running clock began. -/
def Moment.Agrees (origin : Instant) (m : Moment) : Prop := m.ofDay = origin + m.running

namespace History

/-- The identities that were given out, in the order of the calls. -/
def identities (h : List Record) : List Int := (h.filterMap Record.receipt?).map Receipt.id

def Created (h : List Record) (queue : String) : Prop := ∃ r ∈ h, r.call = .create queue

/-- Whether a body was sent to a queue under an identity that was not deleted there since. -/
def Live (h : List Record) (queue : String) (id : Int) (body : String) : Prop :=
  ∃ before r after, h = before ++ r :: after ∧ r.Sends queue id body ∧
    ∀ later ∈ after, later.call ≠ .delete queue id

/-- How often the message of an identity was received from a queue. -/
def deliveries (h : List Record) (queue : String) (id : Int) : Nat :=
  h.countP (Record.hands queue id)

/-- When the window ends that the latest delivery of a message put on it, or, as long as it was
never delivered, the delay that it was sent with. -/
inductive Opens (h : List Record) (queue : String) (id : Int) (opening : Instant) : Prop
  | sent {before after : List Record} {r : Record} {body : String} {delay : Duration}
      (split : h = before ++ r :: after) (call : r.call = .send queue body delay)
      (receipt : r.receipt? = some ⟨queue, id⟩) (undelivered : deliveries h queue id = 0)
      (ends : Ends r.time.running delay opening) : Opens h queue id opening
  | delivered {before after : List Record} {r : Record} {window : Duration}
      (split : h = before ++ r :: after) (call : r.call = .receive queue window)
      (hands : r.hands queue id = true) (latest : deliveries after queue id = 0)
      (ends : Ends r.time.running window opening) : Opens h queue id opening

/-- Whether a message is live and its window is over. -/
def Eligible (h : List Record) (queue : String) (id : Int) (now : Instant) : Prop :=
  (∃ body, Live h queue id body) ∧ ∃ opening, Opens h queue id opening ∧ opening ≤ now

end History

/-- Serves calls one after another: the store afterwards, and the history. -/
def QueueStore.serve (s : QueueStore) : List (Moment × ForeignCall) → QueueStore × List Record
  | [] => (s, [])
  | (now, call) :: rest =>
    let (next, answer) := call.perform s now
    let (last, history) := next.serve rest
    (last, ⟨now, call, answer⟩ :: history)

end WorkQueue
