import WorkQueue.Queue.Message
import WorkQueue.Failure

/-! # Queues in memory

All queues of one store share a counter of message identities, which a failed send uses up
as well. A queue keeps its messages in the order of their sending; a receive takes the first
that is visible and hides it for the window asked for.
-/
namespace WorkQueue

/-- The two readings of the clock: one that only runs forward, and the time of day. -/
structure Moment where
  running : Instant
  ofDay : Instant
  deriving DecidableEq, Repr

/-- A message that a queue holds. -/
structure StoredMessage where
  id : Int
  readCount : Int
  body : String
  visibleAt : Instant
  visibleAgain : Instant
  deriving DecidableEq, Repr

/-- Named queues with a common counter. -/
structure QueueStore where
  lastId : Int := 0
  queues : List (String × List StoredMessage) := []
  deriving Repr, Inhabited

/-- The last second that the running clock can show. -/
def lastRunningSecond : Nat := 9223372036854775807

/-- What stands for a window that the running clock cannot hold: 365 days. -/
def longWindow : Nat := 365 * 24 * 60 * 60 * nanosPerSecond

/-- The last point of the calendar, the end of the year 262142. -/
def lastOfCalendar : Instant := 8210266876799 * nanosPerSecond + 999999999

def effectiveWindow (now : Instant) (window : Duration) : Nat :=
  if (now + window.toNanos) / nanosPerSecond ≤ lastRunningSecond then window.toNanos else longWindow

/-- When a window that starts now ends on the running clock. -/
def windowEnd (now : Instant) (window : Duration) : Instant := now + effectiveWindow now window

/-- When a window that starts now ends by the calendar, or the end of the calendar. -/
def calendarEnd (now : Instant) (window : Duration) : Instant :=
  min (now + window.toNanos) lastOfCalendar

/-- How many seconds ahead of a time of day a visibility timestamp lies, to the nearest
second, a half counting down; none at the end of the calendar. -/
def secondsAhead (ofDay visibleAgain : Instant) : Option Nat :=
  if visibleAgain = lastOfCalendar then none
  else some ((2 * (visibleAgain - ofDay) + nanosPerSecond - 1) / (2 * nanosPerSecond))

/-- The failure of an operation on a queue that does not exist. -/
def missingQueue (name : String) : Failure := .other s!"queue '{name}' does not exist"

/-- Replaces the value under a name that is present. -/
def setAt (name : String) (x : α) : List (String × α) → List (String × α)
  | [] => []
  | (key, y) :: rest => if key = name then (key, x) :: rest else (key, y) :: setAt name x rest

namespace StoredMessage

/-- A message that has just been sent and becomes visible after a delay. -/
def sent (id : Int) (now : Moment) (body : String) (delay : Duration) : StoredMessage :=
  { id := id, readCount := 0, body := body
    visibleAt := windowEnd now.running delay
    visibleAgain := calendarEnd now.ofDay delay }

/-- The message after a receive that hides it for a window. -/
def deliver (m : StoredMessage) (now : Moment) (window : Duration) : StoredMessage :=
  { m with
    readCount := nextReadCount m.readCount
    visibleAt := windowEnd now.running window
    visibleAgain := calendarEnd now.ofDay window }

/-- What a receive hands out of the message. -/
def delivery (m : StoredMessage) : Delivery := ⟨m.id, m.readCount, m.visibleAgain, m.body⟩

end StoredMessage

namespace QueueStore

def messages? (s : QueueStore) (queue : String) : Option (List StoredMessage) :=
  s.queues.lookup queue

/-- Adds a queue unless it exists. -/
def create (s : QueueStore) (queue : String) : QueueStore :=
  match s.messages? queue with
  | some _ => s
  | none => { s with queues := s.queues ++ [(queue, [])] }

/-- Adds a message that becomes visible after a delay. -/
def send (s : QueueStore) (now : Moment) (queue body : String) (delay : Duration) :
    QueueStore × Except Failure Receipt :=
  let id := s.lastId + 1
  let s := { s with lastId := id }
  match s.messages? queue with
  | none => (s, .error (missingQueue queue))
  | some held =>
    let after := held ++ [.sent id now body delay]
    ({ s with queues := setAt queue after s.queues }, .ok ⟨queue, id⟩)

/-- Takes the first visible message: the messages afterwards, and the delivery. -/
def takeVisible (now : Moment) (window : Duration) :
    List StoredMessage → Option (List StoredMessage × Delivery)
  | [] => none
  | m :: rest =>
    if m.visibleAt ≤ now.running then
      some (m.deliver now window :: rest, (m.deliver now window).delivery)
    else (takeVisible now window rest).map fun r => (m :: r.1, r.2)

/-- Receives the first visible message and hides it for a window. -/
def receive (s : QueueStore) (now : Moment) (queue : String) (window : Duration) :
    QueueStore × Except Failure (Option Delivery) :=
  match s.messages? queue with
  | none => (s, .error (missingQueue queue))
  | some held =>
    match takeVisible now window held with
    | none => (s, .ok none)
    | some (after, delivery) =>
      ({ s with queues := setAt queue after s.queues }, .ok (some delivery))

def delete (s : QueueStore) (queue : String) (id : Int) : QueueStore × Except Failure Unit :=
  match s.messages? queue with
  | none => (s, .error (missingQueue queue))
  | some held =>
    ({ s with queues := setAt queue (held.filter fun m => m.id ≠ id) s.queues }, .ok ())

/-- The messages that a queue holds, visible or not; a missing queue holds none. -/
def held (s : QueueStore) (queue : String) : List StoredMessage :=
  (s.messages? queue).getD []

def size (s : QueueStore) (queue : String) : Nat := (s.held queue).length

def isEmpty (s : QueueStore) (queue : String) : Bool := s.size queue == 0

def contains (s : QueueStore) (queue : String) (id : Int) : Bool :=
  (s.held queue).any fun m => m.id == id

/-- The message of an identity, if a queue holds it. -/
def message? (s : QueueStore) (queue : String) (id : Int) : Option StoredMessage :=
  (s.held queue).find? fun m => m.id == id

def readCount? (s : QueueStore) (queue : String) (id : Int) : Option Int :=
  (s.message? queue id).map StoredMessage.readCount

end QueueStore
end WorkQueue
