import WorkQueue.Payload.Basic
import WorkQueue.Queue.Unreliable
import WorkQueue.Telemetry.Notice

/-! # Producing work items

A producer encodes a payload and sends its text, to be visible after a delay. It does not
try again: a payload that cannot be encoded is not sent, and a failed send is reported as it
is. Either way one production is counted.
-/
namespace WorkQueue

/-- A producer for one queue. -/
structure Producer where
  queue : String
  deriving DecidableEq, Repr

namespace Producer

/-- Encodes a payload and sends it. -/
def submit [Payload α] (producer : Producer) (q : UnreliableQueue) (now : Moment) (p : α)
    (delay : Duration) : UnreliableQueue × Except Failure Receipt :=
  match Payload.encode p with
  | .error failure => (q, .error failure)
  | .ok body => q.send now producer.queue body delay

theorem submit_of_error [Payload α] {p : α} {failure : Failure}
    (h : Payload.encode p = .error failure) (producer : Producer) (q : UnreliableQueue)
    (now : Moment) (delay : Duration) : producer.submit q now p delay = (q, .error failure) := by
  simp only [submit, h]

theorem submit_of_ok [Payload α] {p : α} {body : String} (h : Payload.encode p = .ok body)
    (producer : Producer) (q : UnreliableQueue) (now : Moment) (delay : Duration) :
    producer.submit q now p delay = q.send now producer.queue body delay := by
  simp only [submit, h]

/-- What a finished production reports. -/
def notices [Payload α] (p : α) (delay : Duration) : Except Failure Receipt → List Notice
  | .ok receipt =>
    [.enqueued (Payload.id p) (Payload.typeName α) receipt.id delay,
      .produced (Payload.typeName α) true]
  | .error _ => [.produced (Payload.typeName α) false]

/-- Enqueues a payload that becomes visible after a delay. -/
def produceDelayed [Payload α] (producer : Producer) (q : UnreliableQueue) (now : Moment) (p : α)
    (delay : Duration) : UnreliableQueue × Except Failure Receipt × List Notice :=
  let (q, answer) := producer.submit q now p delay
  (q, answer, notices p delay answer)

def produce [Payload α] (producer : Producer) (q : UnreliableQueue) (now : Moment) (p : α) :
    UnreliableQueue × Except Failure Receipt × List Notice :=
  producer.produceDelayed q now p .zero

end Producer
end WorkQueue
