import WorkQueue.Gate
import WorkQueue.Queue.Message

/-! # Notices

Everything the service does that an observer may want to know is a notice. Log lines,
spans, counters and the history of queue calls are views of one chronological list of
notices, so what they say about a run can be compared.
-/
namespace WorkQueue

inductive Outcome
  | succeeded
  | retry
  | evicted
  | cancelled
  deriving DecidableEq, Repr

inductive Eviction
  | malformed
  | nonRetriable
  | maxAttempts
  deriving DecidableEq, Repr

inductive QueueOperation
  | create
  | send
  | read
  | readEmpty
  | delete
  deriving DecidableEq, Repr

/-- What a part of the service reports. -/
inductive Notice
  /-- The processor entered another state. -/
  | stateChanged (replica : String) (before after : ProcessorState)
  /-- A start request came while the current work item was being finished. -/
  | startIgnored (replica : String)
  | consumerStarted (queue replica : String) (workItemTypes : List String)
  | consumerStopped (queue : String)
  /-- A receive that takes time has begun. -/
  | receiving
  /-- The queue answered a receive. -/
  | received (answer : Except Failure (Option Delivery))
  /-- The queue answered a delete. -/
  | deleted (messageId : Int) (answer : Except Failure Unit)
  | queueEmpty (queue : String) (pause : Duration)
  | iterationFailed (failure : Failure)
  /-- A body is no work item. -/
  | bodyRefused (messageId : Int) (failure : Failure) (body : String)
  /-- A message is discarded without having been processed. -/
  | evicted (workItemType : String) (reason : Eviction)
  /-- The span of a delivery attempt begins. -/
  | attemptOpened (workItemType id : String) (attempt : Nat)
  | attemptStarted (attempt : Nat) (messageId : Int)
  /-- A handler was built for a work item type. -/
  | handlerBuilt (workItemType : String)
  | handlerResolved (id workItemType : String)
  /-- A handler begins an attempt at a work item. -/
  | handlingBegan (id : String) (attempt : Nat)
  /-- A handler is done with a work item. -/
  | handlingEnded (id : String)
  | textProcessed (id text : String)
  /-- The duration and the result of an attempt are measured. -/
  | attemptMeasured (workItemType : String) (success : Bool)
  /-- The outcome of the span that was opened last. -/
  | attemptEnded (outcome : Outcome)
  | attemptCancelled
  | attemptFailed (attempt maxAttempts : Nat) (failure : Failure)
  | discarding (reason : Eviction) (body : String)
  | enqueued (id workItemType : String) (messageId : Int) (delay : Duration)
  /-- A producer finished. -/
  | produced (workItemType : String) (success : Bool)
  | stateRecorded (replica : String) (state : ProcessorState)
  | stateNotRecorded (replica : String) (state : ProcessorState) (failure : Failure)
  | startRequested (replica : String)
  | stopRequested (replica : String)
  | drainAwaited (replica : String)
  | drainAbandoned (replica : String) (state : ProcessorState)
  /-- The database carried out an operation on a queue. -/
  | queueOperated (queue : String) (operation : QueueOperation)

/-- What the operations on a gate report, with the name of the replica. -/
def GateNotice.toNotice (replica : String) : GateNotice → Notice
  | .changed before after => .stateChanged replica before after
  | .startIgnored => .startIgnored replica

/-- A notice with the instant at which it was reported. -/
structure Stamped where
  time : Instant
  notice : Notice

def Outcome.name : Outcome → String
  | .succeeded => "succeeded"
  | .retry => "retry"
  | .evicted => "evicted"
  | .cancelled => "cancelled"

def Eviction.name : Eviction → String
  | .malformed => "malformed"
  | .nonRetriable => "non_retriable"
  | .maxAttempts => "max_attempts"

def QueueOperation.name : QueueOperation → String
  | .create => "create"
  | .send => "send"
  | .read => "read"
  | .readEmpty => "read_empty"
  | .delete => "delete"

end WorkQueue
