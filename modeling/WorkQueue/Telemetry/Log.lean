import WorkQueue.Telemetry.Notice

/-! # Log lines

The log is a view of the notices: some give one line, the others none.
-/
namespace WorkQueue

inductive LogLevel
  | debug
  | info
  | warn
  | error
  deriving DecidableEq, Repr

def LogLevel.name : LogLevel → String
  | .debug => "DEBUG"
  | .info => "INFO"
  | .warn => "WARN"
  | .error => "ERROR"

structure LogLine where
  level : LogLevel
  text : String
  fields : List (String × String)
  deriving DecidableEq, Repr

/-- The line that a notice gives. -/
def Notice.logLine? : Notice → Option LogLine
  | .stateChanged replica before after =>
    some ⟨.info, "work item processor state changed",
      [("replica", replica), ("from", before.name), ("to", after.name)]⟩
  | .startIgnored replica =>
    some ⟨.debug, "start ignored, still finishing the current work item", [("replica", replica)]⟩
  | .consumerStarted queue replica types =>
    some ⟨.info, "starting to process work item queue",
      [("queue", queue), ("replica", replica), ("work_item_types", Text.quotedList types)]⟩
  | .consumerStopped queue => some ⟨.info, "work item consumer stopped", [("queue", queue)]⟩
  | .queueEmpty queue pause =>
    some ⟨.debug, "queue is empty, sleeping",
      [("queue", queue), ("sleep_ms", toString pause.millis)]⟩
  | .iterationFailed failure =>
    some ⟨.error, "unexpected error during work item processing", [("error", failure.message)]⟩
  | .bodyRefused messageId failure body =>
    some ⟨.error, "failed to parse work item message, discarding it",
      [("msg_id", toString messageId), ("error", failure.message), ("body", body)]⟩
  | .attemptStarted attempt messageId =>
    some ⟨.info, "starting work item attempt",
      [("attempt", toString attempt), ("msg_id", toString messageId)]⟩
  | .handlerResolved id workItemType =>
    some ⟨.debug, "processor resolved", [("id", id), ("work_item_type", workItemType)]⟩
  | .textProcessed id text =>
    some ⟨.info, "processed text work item", [("id", id), ("text", text)]⟩
  | .attemptCancelled =>
    some ⟨.warn, "work item cancelled, leaving message for redelivery", []⟩
  | .attemptFailed attempt maxAttempts failure =>
    some ⟨.error, "processing work item failed",
      [("attempt", toString attempt), ("max_attempts", toString maxAttempts),
        ("error", failure.message)]⟩
  | .discarding reason body =>
    some ⟨.error, "discarding work item message from the queue",
      [("reason", reason.name), ("body", body)]⟩
  | .enqueued id workItemType messageId delay =>
    some ⟨.debug, "work item enqueued",
      [("id", id), ("work_item_type", workItemType), ("msg_id", toString messageId),
        ("delay_ms", toString delay.millis)]⟩
  | .stateRecorded replica state =>
    some ⟨.debug, "recorded processor state", [("replica", replica), ("state", state.name)]⟩
  | .stateNotRecorded replica state failure =>
    some ⟨.warn, "failed to record processor state",
      [("replica", replica), ("state", state.name), ("error", failure.message)]⟩
  | .startRequested replica =>
    some ⟨.info, "starting work item processor", [("replica", replica)]⟩
  | .stopRequested replica =>
    some ⟨.info, "stopping work item processor", [("replica", replica)]⟩
  | .drainAwaited replica =>
    some ⟨.info, "waiting for work item processor to finish its current work item",
      [("replica", replica)]⟩
  | .drainAbandoned replica state =>
    some ⟨.warn, "shutting down before the work item processor stopped",
      [("replica", replica), ("state", state.name)]⟩
  | _ => none

/-- The log of a list of notices. -/
def logOf (notices : List Notice) : List LogLine := notices.filterMap Notice.logLine?

end WorkQueue
