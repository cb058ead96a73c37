import WorkQueue.Registry
import WorkQueue.Telemetry.Notice

/-! # Handlers

What a handler does with one work item is an activity: it reports, sleeps, waits for the
cancellation of the service or for a permit that someone releases, and ends with a result.
An activity runs until it has to wait. A span of sleep begins when it is reached.
-/
namespace WorkQueue

inductive Report
  | began (id : String) (attempt : Nat)
  | ended (id : String)
  | logged (id text : String)
  deriving DecidableEq, Repr

def Report.toNotice : Report → Notice
  | .began id attempt => .handlingBegan id attempt
  | .ended id => .handlingEnded id
  | .logged id text => .textProcessed id text

/-- What a handler does with one work item. -/
inductive Activity
  | done (result : Except Failure Unit)
  /-- Reports something and goes on. -/
  | report (what : Report) (next : Activity)
  /-- Gives up if the service has been cancelled. -/
  | unlessCancelled (next : Activity)
  | sleep (span : Duration) (next : Activity)
  /-- Waits until the service is cancelled and then gives up. -/
  | untilCancelled
  /-- Waits for a permit and uses it up. -/
  | untilReleased (next : Activity)

inductive Suspension
  | until (deadline : Instant) (next : Activity)
  | untilCancelled
  | untilReleased (next : Activity)

/-- How an activity stands when it can go no further at present. -/
inductive Progress
  | ended (result : Except Failure Unit)
  | suspended (wait : Suspension)

/-- An activity after it has run, whether a permit is left, and what was reported. -/
structure ActivityRun where
  progress : Progress
  released : Bool
  reports : List Report

namespace Activity

/-- Runs an activity until it ends or has to wait. -/
def run (now : Instant) (cancelled : Bool) : Activity → Bool → ActivityRun
  | .done result, released => ⟨.ended result, released, []⟩
  | .report what next, released =>
    let r := run now cancelled next released
    { r with reports := what :: r.reports }
  | .unlessCancelled next, released =>
    if cancelled then ⟨.ended (.error .cancelled), released, []⟩ else run now cancelled next released
  | .sleep span next, released =>
    if span.isZero then run now cancelled next released
    else ⟨.suspended (.until (now + span.toNanos) next), released, []⟩
  | .untilCancelled, released =>
    if cancelled then ⟨.ended (.error .cancelled), released, []⟩
    else ⟨.suspended .untilCancelled, released, []⟩
  | .untilReleased next, released =>
    if released then run now cancelled next false
    else ⟨.suspended (.untilReleased next), released, []⟩

end Activity

namespace Suspension

/-- Whether the activity can go on. -/
def isReady (now : Instant) (cancelled released : Bool) : Suspension → Bool
  | .until deadline _ => deadline ≤ now
  | .untilCancelled => cancelled
  | .untilReleased _ => released

/-- When the activity can go on by the passing of time alone. -/
def deadline? : Suspension → Option Instant
  | .until deadline _ => some deadline
  | _ => none

/-- Goes on with an activity as far as it can. -/
def resume (now : Instant) (cancelled released : Bool) (s : Suspension) : ActivityRun :=
  if s.isReady now cancelled released then
    match s with
    | .until _ next => next.run now cancelled released
    | .untilCancelled => ⟨.ended (.error .cancelled), released, []⟩
    | .untilReleased next => next.run now cancelled false
  else ⟨.suspended s, released, []⟩

end Suspension

/-- How payloads are handled. The state carries what handlers remember from one work item to
the next. -/
structure Handler (ι σ : Type) where
  handle : ι → σ → σ × Activity

/-- The activity of a resolved registration on a work item. A work item that does not decode
ends the activity before the handler begins. -/
def Handler.activity (h : Handler ι σ) (r : Registration ι) (item : WorkItem) (s : σ) :
    σ × Activity :=
  match r.decode item with
  | .error failure => (s, .done (.error failure))
  | .ok payload => h.handle payload s

end WorkQueue
