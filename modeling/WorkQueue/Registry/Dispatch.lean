import WorkQueue.Handler

/-! # Dispatch without a queue

A body can be dispatched by hand: it is parsed, its type resolved and its handler run to the
end, with the clock moved over every sleep. Nothing is acknowledged, counted or retried.
-/
namespace WorkQueue

/-- A dispatch after it has ended, or, without a result, one that waits forever. -/
structure Dispatched (σ : Type) where
  result : Option (Except Failure Unit)
  now : Instant
  handlers : σ
  notices : List Stamped

/-- Runs an activity to its end from an instant on: what was reported, the instant of the end,
and the result. Waiting for what does not come has none. -/
def Activity.complete (cancelled : Bool) :
    Activity → Instant → List Stamped × Instant × Option (Except Failure Unit)
  | .done result, now => ([], now, some result)
  | .report what next, now =>
    let (rest, last, result) := complete cancelled next now
    (⟨now, what.toNotice⟩ :: rest, last, result)
  | .unlessCancelled next, now =>
    if cancelled then ([], now, some (.error .cancelled)) else complete cancelled next now
  | .sleep span next, now => complete cancelled next (now + span.toNanos)
  | .untilCancelled, now => ([], now, if cancelled then some (.error .cancelled) else none)
  | .untilReleased _, now => ([], now, none)

namespace Registry

/-- A factory whose calls are reported. -/
def reportedFactory (entry : Registration ι) (notices : List Notice) :
    Registration ι × List Notice :=
  (entry, notices ++ [.handlerBuilt entry.workItemType])

/-- What the resolution of a type reports. -/
def resolutionNotices (r : Registry ι) (workItemType : String) : List Notice :=
  (r.make reportedFactory workItemType []).2

/-- Parses a body, resolves its type and runs its handler. -/
def dispatch (r : Registry ι) (handler : Handler ι σ) (body : String) (cancelled : Bool)
    (now : Instant) (handlers : σ) : Dispatched σ :=
  match WorkItem.parse body with
  | .error failure => ⟨some (.error failure), now, handlers, []⟩
  | .ok item =>
    match r.resolve item.workItemType with
    | .error failure => ⟨some (.error failure), now, handlers, []⟩
    | .ok registration =>
      let (handlers, activity) := handler.activity registration item handlers
      let (notices, last, result) := activity.complete cancelled now
      ⟨result, last, handlers, ⟨now, .handlerBuilt item.workItemType⟩ :: notices⟩

end Registry
end WorkQueue
