import WorkQueue.Consumer.Journal
import WorkQueue.Telemetry.Metric
import WorkQueue.Telemetry.Span

/-! # What telemetry owes to a delivery

A delivery whose body is no work item is counted as discarded, and that is all. Any other opens one
span. When its attempt ends, the span gets its outcome, the attempt is measured if the type is
registered, and a message that is given up is counted as discarded.
-/
namespace WorkQueue

/-- Whether a notice is of the account of a delivery. -/
def Notice.isAccount : Notice → Bool
  | .attemptOpened _ _ _ => true
  | .attemptMeasured _ _ => true
  | .attemptEnded _ => true
  | .evicted _ _ => true
  | _ => false

/-- What a list of notices says of the accounts of deliveries. -/
def accounts (notices : List Notice) : List Notice := notices.filter Notice.isAccount

/-- The delivery that a receive was answered with. -/
def Notice.delivery? : Notice → Option Delivery
  | .received (.ok (some d)) => some d
  | _ => none

def Notice.isOutcome : Notice → Bool
  | .attemptEnded _ => true
  | _ => false

def Verdict.outcome : Verdict → Outcome
  | .acknowledge => .succeeded
  | .leave => .retry
  | .discard _ => .evicted
  | .abandon => .cancelled

/-- What is counted of a message whose verdict has been given. -/
def Verdict.evictions (workItemType : String) : Verdict → List Notice
  | .discard reason => [.evicted workItemType reason]
  | _ => []

/-- What the end of an attempt adds to the account of its delivery, once it has been measured. -/
def Ending.disposal (maxAttempts attempt : Nat) : Ending → List Notice
  | .malformed _ => [.evicted "unknown" .malformed]
  | .dispatched item result =>
    let v := verdict maxAttempts attempt result
    .attemptEnded v.outcome :: v.evictions item.workItemType

namespace ConsumerSetup
variable (setup : ConsumerSetup ι σ)

def registers (workItemType : String) : Bool := (setup.registry.resolve workItemType).isOk

/-- The measurement of an attempt. A type that nobody serves is not measured. -/
def measured (item : WorkItem) (result : Except Failure Unit) : List Notice :=
  if setup.registers item.workItemType then [.attemptMeasured item.workItemType result.isOk] else []

end ConsumerSetup

namespace Entry
variable (setup : ConsumerSetup ι σ)

def malformed (entry : Entry) : Bool := !(WorkItem.parse entry.delivery.body).isOk

/-- The account of a delivery, as far as its attempt has come. -/
def account (entry : Entry) : List Notice :=
  match WorkItem.parse entry.delivery.body with
  | .error _ => [.evicted "unknown" .malformed]
  | .ok item =>
    .attemptOpened item.workItemType item.id entry.delivery.attempt ::
      match entry.ending with
      | some (.dispatched item result) => setup.measured item result ++
        Ending.disposal setup.options.maxAttempts entry.delivery.attempt (.dispatched item result)
      | _ => []

/-- The outcome of an attempt that has ended. -/
def outcome? (entry : Entry) : Option Outcome :=
  match entry.ending with
  | some (.dispatched _ result) =>
    some (verdict setup.options.maxAttempts entry.delivery.attempt result).outcome
  | _ => none

/-- The span of a delivery: none if its body is no work item. -/
def span? (entry : Entry) : Option Span :=
  match WorkItem.parse entry.delivery.body with
  | .error _ => none
  | .ok item =>
    some ⟨item.workItemType, item.id, entry.delivery.attempt, entry.outcome? setup⟩

end Entry

/-- The span of the delivery that is being handled, which has no outcome yet. -/
def Stage.openSpan? : Stage → Option Span
  | .handling d item _ => some ⟨item.workItemType, item.id, d.attempt, none⟩
  | _ => none

namespace Span

def endedAs (outcome : Outcome) (s : Span) : Bool := s.outcome == some outcome

/-- Whether the attempt has ended otherwise than with success. -/
def failed (s : Span) : Bool := s.outcome.isSome && !s.endedAs .succeeded

end Span

namespace Series

/-- Whether a series counts processed attempts of chosen types with a result. -/
def countsProcessed (types : String → Bool) (success : Bool) : Series → Bool
  | .processed workItemType result => types workItemType && result == success
  | _ => false

/-- Whether a series counts measured durations of chosen types with a result. -/
def countsDurations (types : String → Bool) (success : Bool) : Series → Bool
  | .duration workItemType result => types workItemType && result == success
  | _ => false

/-- Whether a series counts discarded messages of chosen types for a reason. -/
def countsEvictions (types : String → Bool) (reason : Eviction) : Series → Bool
  | .evicted workItemType why => types workItemType && why == reason
  | _ => false

end Series

/-- The sum of the counts of all series of a kind. -/
def tally (p : Series → Bool) (notices : List Notice) : Nat :=
  (notices.flatMap Notice.counted).countP p

end WorkQueue
