import WorkQueue.Database.Connection
import WorkQueue.Database.Migration
import WorkQueue.Payload.Catalog
import WorkQueue.Program.Invocation
import WorkQueue.Settings
import WorkQueue.Telemetry.Setup

/-! # Running the program

A run begins with the command line and the settings, and then needs what is around it: the
network, a database, a place to listen at. It ends with what was written and an exit code,
or begins to serve.
-/
namespace WorkQueue.Program

/-- What a run finds around it. -/
structure Surroundings where
  lookup : Settings.Lookup
  send : ControlRequest → ControlReply
  reachDatabase : Database.Address → Except NetworkFault Database.Session
  migrations : Database.MigrationLog := {}
  listen : Net.SocketAddress → Except String Unit
  freshId : String

structure Result where
  exit : Nat := 0
  output : String := ""
  errors : String := ""
  statements : List Database.Statement := []
  deriving Repr

/-- A run that ends, or one that serves until it is interrupted. -/
inductive Ending
  | finished (result : Result)
  | serving (settings : Settings) (inMemory : Bool)

def failed (f : Failure) (statements : List Database.Statement) : Result :=
  { exit := 1, errors := f.report, statements := statements }

def written (outcome : Except Failure String) (statements : List Database.Statement) : Result :=
  match outcome with
  | .ok text => { output := text, statements := statements }
  | .error f => failed f statements

def ofCommandLine : CommandLine.Ending → Result
  | .help text => { output := text }
  | .nothingGiven text => { exit := 2, errors := text }
  | .refused refusal => { exit := 2, errors := refusal.message }

/-- A table of the states of replicas. -/
def stateTable (states : ReplicaStates) : String :=
  let line (name state : String) : String :=
    name ++ "".pushn ' ' (40 - name.length) ++ "  " ++ state ++ "\n"
  if states.isEmpty then "No replicas reported.\n"
  else
    line "REPLICA" "STATE" ++ "".pushn '-' 52 ++ "\n" ++
      String.join (states.map fun e => line e.1 e.2.name)

def openDatabase (around : Surroundings) : Except Failure (Settings × Database.Session) := do
  let settings ← Settings.ofLookup around.lookup
  let url ← settings.requireDatabaseUrl
  return (settings, ← Database.connect around.reachDatabase url)

def runCreateQueue (around : Surroundings) : Result :=
  match openDatabase around with
  | .error f => failed f []
  | .ok (settings, session) =>
    match session.migrate around.migrations with
    | (session, .error f) => failed f session.statements
    | (session, .ok _) =>
      let (session, answer, _) := session.createQueue settings.queueName
      written (answer.map fun _ => s!"Queue '{settings.queueName}' is ready\n") session.statements

def runSubmit (around : Surroundings) (text : String) (delay : Duration) : Result :=
  match openDatabase around with
  | .error f => failed f []
  | .ok (settings, session) =>
    let item : TextItem := ⟨around.freshId, text⟩
    let (session, answer, _) := session.produce settings.queueName item delay
    let line (r : Receipt) : String :=
      s!"Enqueued: {item.id} (queue: {r.queue}, msg_id: {r.id})\n"
    written (answer.map line) session.statements

def runControl (around : Surroundings) (endpoint : String) (call : ControlCall) : Result :=
  written ((ControlClient.call around.send endpoint call).map stateTable) []

/-- Makes ready to serve. -/
def runServe (around : Surroundings) (createQueue inMemory : Bool) : Ending :=
  let prepared : Except Failure Settings := do
    let settings ← Settings.ofLookup around.lookup
    Telemetry.setUp false settings.otelEndpoint
    return settings
  match prepared with
  | .error f => .finished (failed f [])
  | .ok settings =>
    let ready : List Database.Statement × Except Failure Unit :=
      if inMemory then ([], .ok ())
      else
        match openDatabase around with
        | .error f => ([], .error f)
        | .ok (_, session) =>
          match session.migrate around.migrations with
          | (session, .error f) => (session.statements, .error f)
          | (session, .ok _) =>
            if createQueue then
              let (session, answer, _) := session.createQueue settings.queueName
              (session.statements, answer)
            else (session.statements, .ok ())
    match ready with
    | (statements, .error f) => .finished (failed f statements)
    | (statements, .ok _) =>
      match around.listen settings.controlAddress with
      | .error reason => .finished (failed (.other reason) statements)
      | .ok _ => .serving settings inMemory

def run (around : Surroundings) (words : List String) : Ending :=
  match Invocation.read words with
  | .error ending => .finished (ofCommandLine ending)
  | .ok (.serve createQueue inMemory) => runServe around createQueue inMemory
  | .ok .createQueue => .finished (runCreateQueue around)
  | .ok (.submit text delay) => .finished (runSubmit around text delay)
  | .ok (.control endpoint call) => .finished (runControl around endpoint call)

end WorkQueue.Program
