import WorkQueue.CommandLine.Reader
import WorkQueue.ControlClient
import WorkQueue.Time.Duration

/-! # What the program is asked to do

The program serves, creates its queue, submits a text, or controls a running processor.
-/
namespace WorkQueue.Program
open WorkQueue.CommandLine (Command Switch Level)

inductive Invocation
  | serve (createQueue inMemory : Bool)
  | createQueue
  | submit (text : String) (delay : Duration)
  | control (endpoint : String) (call : ControlCall)
  deriving DecidableEq, Repr

def serveCommand : Command :=
  { name := "serve"
    about := "Run the work item consumer and its control surface"
    switches :=
      [{ name := "create-queue", about := "Create the work item queue if it does not exist" },
       { name := "in-memory"
         about := "Use an in-process queue and state store instead of Postgres" }] }

def queueCommand : Command :=
  { name := "queue"
    about := "Queue operations"
    subcommands :=
      [{ name := "create", about := "Create the configured work item queue (idempotent)" }] }

def delaySwitch : Switch :=
  { name := "delay"
    about := "Seconds before the work item becomes visible"
    value := some { name := "DELAY", kind := .count, fallback := "0" } }

def submitCommand : Command :=
  { name := "submit"
    about := "Enqueue a text work item"
    switches := [delaySwitch]
    argument := some
      { name := "TEXT", about := "Text to log when the work item is processed" } }

def endpointSwitch : Switch :=
  { name := "endpoint"
    about := "Base URL of the replica's control surface"
    value := some { name := "ENDPOINT", kind := .anyText, fallback := "http://localhost:8080" } }

def processorCommand : Command :=
  { name := "processor"
    about := "Control a running processor over HTTP"
    switches := [endpointSwitch]
    subcommands :=
      [{ name := "start", about := "Resume processing" },
       { name := "stop", about := "Finish the current work item, then stop" },
       { name := "status", about := "Show the state of every replica" }] }

def command : Command :=
  { name := "flowq"
    about := "Work item queue processor"
    subcommands := [serveCommand, queueCommand, submitCommand, processorCommand] }

def hasFlag (level : Level) (name : String) : Bool := (level.values.lookup name).isSome

def valueOf (level : Level) (switch : Switch) : String :=
  match level.values.lookup switch.name, switch.value with
  | some value, _ => value
  | none, some shape => shape.fallback
  | none, none => ""

def secondsOf (text : String) : Duration :=
  match Text.natural Text.limit64 text with
  | .ok n => .ofSeconds (UInt64.ofNat n)
  | .error _ => .zero

namespace Invocation

def ofLevels : List Level → Option Invocation
  | [_, level] =>
    match level.name with
    | "serve" => some (.serve (hasFlag level "create-queue") (hasFlag level "in-memory"))
    | "submit" =>
      some (.submit ((level.values.lookup "TEXT").getD "") (secondsOf (valueOf level delaySwitch)))
    | _ => none
  | [_, outer, inner] =>
    let control (call : ControlCall) : Option Invocation :=
      some (.control (valueOf outer endpointSwitch) call)
    match inner.name with
    | "create" => some .createQueue
    | "start" => control .start
    | "stop" => control .stop
    | "status" => control .status
    | _ => none
  | _ => none

def read (words : List String) : Except CommandLine.Ending Invocation :=
  match CommandLine.read command words with
  | .error ending => .error ending
  | .ok levels =>
    match ofLevels levels with
    | some invocation => .ok invocation
    | none => .error (.help (command.helpText command.name))

end Invocation
end WorkQueue.Program
