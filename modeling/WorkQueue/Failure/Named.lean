import WorkQueue.Failure
import WorkQueue.Json.Reader
import WorkQueue.Text.Split

/-! # Failures by name

A failure can be described by the name of its kind and a text. What the text means depends
on the kind: for the database it names an incident, for serialization it is a document that
may be broken, and for processing it is a chain of causes, the outermost first.
-/
namespace WorkQueue

/-- The database fault that a text names; any other text is the description of unexpected
data. -/
def DatabaseFault.named (text : String) : DatabaseFault :=
  if text = "RowNotFound" then .noRow
  else if text = "PoolTimedOut" then .poolTimedOut
  else if text = "PoolClosed" then .poolClosed
  else .unexpectedData text

/-- The error of reading a text as a document, or the error that the text states. -/
def Json.Error.named (text : String) : Json.Error :=
  match Json.parse text with
  | .error cause => cause
  | .ok _ => .ofText text

namespace Failure

/-- The failure of a chain of causes. -/
def ofChain (text : String) : Failure :=
  match (Text.splitBy (· == '|') text.toList).map String.ofList with
  | [] => .processing "" []
  | outermost :: causes => .processing outermost causes

def named? (kind text : String) : Option Failure :=
  match kind with
  | "Config" => some (.config (.stated text))
  | "Queue" => some (.queue (.named text))
  | "Serialization" => some (.serialization (.named text))
  | "Io" => some (.io text)
  | "MalformedWorkItem" => some (.malformed (.stated text))
  | "UnregisteredWorkItem" => some (.unregistered text)
  | "NonRetriable" => some (.nonRetriable text)
  | "Cancelled" => some .cancelled
  | "Processing" => some (.ofChain text)
  | "Other" => some (.other text)
  | _ => none

/-- The failure that a description gives: the name of a kind, and after a colon its text. -/
def described (description : String) : Failure :=
  let cs := description.toList
  let kind := String.ofList (cs.takeWhile (· ≠ ':'))
  let text := String.ofList ((cs.dropWhile (· ≠ ':')).drop 1)
  (named? kind text).getD (.other text)

end Failure
end WorkQueue
