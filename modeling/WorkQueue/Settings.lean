import WorkQueue.Consumer.Basic
import WorkQueue.Net.SocketAddress
import WorkQueue.Text.Blank

/-! # Settings

Settings are read through a lookup of variables. A blank value counts as none. A value that
is parsed is trimmed first; the first variable, in a fixed order, that is missing or does not
parse decides the error.
-/
namespace WorkQueue

structure Settings where
  databaseUrl : Option String
  queueName : String
  replicaName : String
  pollInterval : Duration
  invisibility : Duration
  maxAttempts : Nat
  workOnStartup : Bool
  controlAddress : Net.SocketAddress
  stopCheckInterval : Duration
  otelEndpoint : Option String
  logLevel : String

namespace Settings

abbrev Lookup := String → Option String

/-- The variables that settings are read from. -/
def names : List String :=
  ["DATABASE_URL", "WORK_ITEM_QUEUE_NAME", "CONTAINER_APP_REPLICA_NAME",
    "QUEUE_POLL_INTERVAL_SECS", "QUEUE_MESSAGE_INVISIBILITY_SECS", "MAX_WORK_ITEM_ATTEMPTS",
    "WORK_ON_STARTUP", "CONTROL_LISTEN_ADDR", "STOP_CHECK_INTERVAL_SECS", "OTEL_ENDPOINT",
    "LOG_LEVEL"]

/-- The value of a variable, unless it is blank. -/
def optional (lookup : Lookup) (name : String) : Option String :=
  (lookup name).filter fun value => !Text.allBlank value

def required (lookup : Lookup) (name : String) : Except Failure String :=
  match optional lookup name with
  | some value => .ok value
  | none => .error (.config (.notSet name))

/-- The parsed value of a variable, or what stands for it when it is not set. -/
def parsed (lookup : Lookup) (name : String) (parse : String → Except Text.LiteralFault α)
    (fallback : α) : Except Failure α :=
  match optional lookup name with
  | none => .ok fallback
  | some raw =>
    match parse (Text.trim raw) with
    | .ok value => .ok value
    | .error reason => .error (.config (.invalid name raw reason))

/-- A whole number of seconds. -/
def secondsLiteral (text : String) : Except Text.LiteralFault Duration :=
  (Text.natural Text.limit64 text).map fun n => .ofSeconds (UInt64.ofNat n)

/-- The number of attempts, which has to be positive. -/
def attempts (lookup : Lookup) : Except Failure Nat :=
  let name := "MAX_WORK_ITEM_ATTEMPTS"
  match parsed lookup name (Text.natural Text.limit32) 3 with
  | .error failure => .error failure
  | .ok 0 => .error (.config (.noAttempts name))
  | .ok n => .ok n

/-- The address that the control surface listens at by default: every address, port 8080. -/
def everyAddress : Net.SocketAddress := .v4 [0, 0, 0, 0] 8080

def ofLookup (lookup : Lookup) : Except Failure Settings := do
  let maxAttempts ← attempts lookup
  let queueName ← required lookup "WORK_ITEM_QUEUE_NAME"
  let pollInterval ← parsed lookup "QUEUE_POLL_INTERVAL_SECS" secondsLiteral (.ofSeconds 10)
  let invisibility ←
    parsed lookup "QUEUE_MESSAGE_INVISIBILITY_SECS" secondsLiteral (.ofSeconds 60)
  let workOnStartup ← parsed lookup "WORK_ON_STARTUP" Text.boolean false
  let controlAddress ←
    parsed lookup "CONTROL_LISTEN_ADDR" Net.SocketAddress.parse everyAddress
  let stopCheckInterval ← parsed lookup "STOP_CHECK_INTERVAL_SECS" secondsLiteral (.ofSeconds 5)
  return {
    databaseUrl := optional lookup "DATABASE_URL"
    queueName := queueName
    replicaName := (optional lookup "CONTAINER_APP_REPLICA_NAME").getD "localReplica"
    pollInterval := pollInterval
    invisibility := invisibility
    maxAttempts := maxAttempts
    workOnStartup := workOnStartup
    controlAddress := controlAddress
    stopCheckInterval := stopCheckInterval
    otelEndpoint := optional lookup "OTEL_ENDPOINT"
    logLevel := (optional lookup "LOG_LEVEL").getD "info" }

def requireDatabaseUrl (s : Settings) : Except Failure String :=
  match s.databaseUrl with
  | some url => .ok url
  | none => .error (.config (.notSet "DATABASE_URL"))

def consumerOptions (s : Settings) : ConsumerOptions :=
  { queue := s.queueName, pollInterval := s.pollInterval, invisibility := s.invisibility
    maxAttempts := s.maxAttempts }

end Settings
end WorkQueue
