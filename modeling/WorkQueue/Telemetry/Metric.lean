import WorkQueue.Telemetry.Notice

/-! # Counters

A notice adds one to each of its series. A series is an instrument with values for its
labels; the histogram of durations is counted by its samples.
-/
namespace WorkQueue

inductive Series
  | stateChanges (before after : ProcessorState)
  | produced (workItemType : String) (success : Bool)
  | processed (workItemType : String) (success : Bool)
  | duration (workItemType : String) (success : Bool)
  | evicted (workItemType : String) (reason : Eviction)
  | queueOperations (queue : String) (operation : QueueOperation)
  deriving DecidableEq, Repr

namespace Series

/-- A name with its labels. The labels stand in ascending order. -/
def labelled (name : String) (labels : List (String × String)) : String :=
  name ++ "\x7b" ++ ",".intercalate (labels.map fun l => l.1 ++ "=" ++ l.2) ++ "\x7d"

def key : Series → String
  | stateChanges before after =>
    labelled "flowq.processor.state_changes" [("from", before.name), ("to", after.name)]
  | produced workItemType success =>
    labelled "flowq.work_items.produced"
      [("result", if success then "ok" else "error"), ("type", workItemType)]
  | processed workItemType success =>
    labelled "flowq.work_items.processed"
      [("result", if success then "success" else "failure"), ("type", workItemType)]
  | duration workItemType success =>
    labelled "flowq.work_item.duration_ms"
      [("result", if success then "success" else "failure"), ("type", workItemType)]
  | evicted workItemType reason =>
    labelled "flowq.work_items.evicted" [("reason", reason.name), ("type", workItemType)]
  | queueOperations queue operation =>
    labelled "flowq.queue.operations" [("operation", operation.name), ("queue", queue)]

end Series

/-- The series that a notice adds one to. -/
def Notice.counted : Notice → List Series
  | .stateChanged _ before after => [.stateChanges before after]
  | .produced workItemType success => [.produced workItemType success]
  | .attemptMeasured workItemType success =>
    [.duration workItemType success, .processed workItemType success]
  | .evicted workItemType reason => [.evicted workItemType reason]
  | .queueOperated queue operation => [.queueOperations queue operation]
  | _ => []

/-- The series that were counted, each once, with their counts. -/
def readings (notices : List Notice) : List (Series × Nat) :=
  let all := notices.flatMap Notice.counted
  all.eraseDups.map fun s => (s, all.count s)

end WorkQueue
