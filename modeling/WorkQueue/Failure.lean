import WorkQueue.Json.Fault
import WorkQueue.Net.Host
import WorkQueue.Text.Decimal
import WorkQueue.Text.Utf8

/-! # Failures

A failure names its cause. What happens to a message whose handling failed depends on two
questions only: whether delivering it again may help, and whether the failure reports that
the service is being cancelled.
-/
namespace WorkQueue

/-- What is wrong with the settings or the registrations. -/
inductive SettingFault
  | notSet (name : String)
  | noAttempts (name : String)
  | invalid (name raw : String) (reason : Text.LiteralFault)
  | registeredTwice (types : List String)
  | stated (text : String)
  deriving DecidableEq, Repr

/-- Why nothing is heard from a host: its name cannot be looked up, or it cannot be connected
to. -/
inductive NetworkFault
  | lookup (reason : String)
  | connect (reason : String)
  deriving DecidableEq, Repr

inductive AddressFault
  | notUrl (fault : Net.UrlFault)
  | notUtf8 (fault : Text.Utf8Fault)
  | literal (fault : Text.LiteralFault)
  | unknownSecurity (name : String)
  deriving DecidableEq, Repr

inductive DatabaseFault
  | noRow
  | poolTimedOut
  | poolClosed
  | unexpectedData (text : String)
  | unfitColumn (index : Nat) (reason : String)
  | configuration (fault : AddressFault)
  | unreachable (fault : NetworkFault)
  | hungUp
  | refused (text : String)
  deriving DecidableEq, Repr

inductive HttpFault
  | invalidUrl (fault : Net.UrlFault)
  | schemeNotAllowed (url : String)
  | unreachable (url : String) (fault : NetworkFault)
  | clientStatus (url status : String)
  | serverStatus (url status : String)
  | undecodable (cause : Json.Error)
  deriving DecidableEq, Repr

inductive Malformation
  | notJson (cause : Json.Error)
  | notObject
  | fieldMissing (name : String)
  | fieldEmpty (name : String)
  | fieldNotText (name : String) (found : String)
  | stated (text : String)
  deriving DecidableEq, Repr

inductive Failure
  | config (fault : SettingFault)
  | queue (fault : DatabaseFault)
  | serialization (cause : Json.Error)
  | io (text : String)
  | http (fault : HttpFault)
  | malformed (fault : Malformation)
  | unregistered (workItemType : String)
  | nonRetriable (text : String)
  | cancelled
  | processing (outermost : String) (causes : List String)
  | other (text : String)
  deriving DecidableEq, Repr

def SettingFault.message : SettingFault → String
  | .notSet name => s!"required environment variable {name} is not set"
  | .noAttempts name => s!"{name} must be at least 1"
  | .invalid name raw reason =>
    s!"invalid value for {name} ({Text.quoted raw}): {reason.message}"
  | .registeredTwice types =>
    "work item types registered more than once: " ++ ", ".intercalate types
  | .stated text => text

def NetworkFault.reason : NetworkFault → String
  | .lookup reason => s!"failed to lookup address information: {reason}"
  | .connect reason => reason

def NetworkFault.causes (fault : NetworkFault) : List String :=
  match fault with
  | .lookup _ => ["dns error", fault.reason]
  | .connect _ => ["tcp connect error", fault.reason]

/-- What a fault of the settings of a connection is put after. -/
def configurationMark : String := "error with configuration: "

/-- What is wrong with an address, and what lies behind it. A security that is unknown is a
fault of the settings in its own right. -/
def AddressFault.causes : AddressFault → List String
  | .notUrl fault => [fault.message]
  | .notUtf8 fault => [fault.message]
  | .literal fault => [fault.message]
  | .unknownSecurity name =>
    let text := s!"unknown value {Text.quoted name} for \x60ssl_mode\x60"
    [configurationMark ++ text, text]

def AddressFault.message (fault : AddressFault) : String := fault.causes.headD ""

/-- What is said when a connection ends in the middle of an exchange. -/
def endOfStream : String := "expected to read 5 bytes, got 0 bytes at EOF"

def DatabaseFault.message : DatabaseFault → String
  | .noRow => "no rows returned by a query that expected to return at least one row"
  | .poolTimedOut => "pool timed out while waiting for an open connection"
  | .poolClosed => "attempted to acquire a connection on a closed pool"
  | .unexpectedData text => s!"encountered unexpected or invalid data: {text}"
  | .configuration fault => configurationMark ++ fault.message
  | .unfitColumn index reason => s!"error occurred while decoding column {index}: {reason}"
  | .unreachable fault => s!"error communicating with database: {fault.reason}"
  | .hungUp => s!"error communicating with database: {endOfStream}"
  | .refused text => s!"error returned from database: {text}"

def DatabaseFault.causes : DatabaseFault → List String
  | .configuration fault => fault.causes
  | .unfitColumn _ reason => [reason]
  | .unreachable fault => [fault.reason]
  | .hungUp => [endOfStream]
  | .refused text => [text]
  | _ => []

def HttpFault.message : HttpFault → String
  | .invalidUrl _ => "builder error"
  | .schemeNotAllowed url => s!"builder error for url ({url})"
  | .unreachable url _ => s!"error sending request for url ({url})"
  | .clientStatus url status => s!"HTTP status client error ({status}) for url ({url})"
  | .serverStatus url status => s!"HTTP status server error ({status}) for url ({url})"
  | .undecodable _ => "error decoding response body"

def HttpFault.causes : HttpFault → List String
  | .invalidUrl fault => [fault.message]
  | .schemeNotAllowed _ => ["URL scheme is not allowed"]
  | .unreachable _ fault => "client error (Connect)" :: fault.causes
  | .clientStatus _ _ => []
  | .serverStatus _ _ => []
  | .undecodable cause => [cause.message]

def Malformation.message : Malformation → String
  | .notJson cause => s!"body is not valid JSON: {cause.message}"
  | .notObject => "body is not a JSON object"
  | .fieldMissing name => s!"missing required field '{name}'"
  | .fieldEmpty name => s!"field '{name}' is empty"
  | .fieldNotText name found => s!"field '{name}' must be a string, got {found}"
  | .stated text => text

def Failure.message : Failure → String
  | .config fault => s!"configuration error: {fault.message}"
  | .queue fault => s!"queue error: {fault.message}"
  | .serialization cause => s!"serialization error: {cause.message}"
  | .io text => s!"io error: {text}"
  | .http fault => s!"http error: {fault.message}"
  | .malformed fault => s!"malformed work item: {fault.message}"
  | .unregistered workItemType =>
    s!"no processor registered for work item type '{workItemType}'"
  | .nonRetriable text => s!"non-retriable failure: {text}"
  | .cancelled => "operation cancelled"
  | .processing outermost _ => outermost
  | .other text => text

/-- What lies behind a failure, the nearest cause first. -/
def Failure.causes : Failure → List String
  | .queue fault => fault.message :: fault.causes
  | .serialization cause => [cause.message]
  | .io text => [text]
  | .http fault => fault.message :: fault.causes
  | .processing _ causes => causes
  | _ => []

/-- Whether the work item should stay on the queue for another delivery. -/
def Failure.isRetriable : Failure → Bool
  | .malformed _ => false
  | .nonRetriable _ => false
  | .cancelled => false
  | _ => true

def Failure.isCancellation : Failure → Bool
  | .cancelled => true
  | _ => false

/-- A cause on lines of its own, after a mark. Its further lines stand below its first one. -/
def causeLine (mark cause : String) : String :=
  let margin := String.ofList (List.replicate (4 + mark.length) ' ')
  "    " ++ mark ++ cause.replace "\n" ("\n" ++ margin) ++ "\n"

/-- A failure as a program reports it before it ends: its wording, and below it what lies
behind it, numbered where there is more than one cause. -/
def Failure.report (f : Failure) : String :=
  let causes := match f.causes with
    | [] => ""
    | [cause] => "\nCaused by:\n" ++ causeLine "" cause
    | all =>
      "\nCaused by:\n" ++ String.join (all.mapIdx fun n cause => causeLine s!"{n}: " cause)
  "Error: " ++ f.message ++ "\n" ++ causes

def Failure.kind : Failure → String
  | .config _ => "Config"
  | .queue _ => "Queue"
  | .serialization _ => "Serialization"
  | .io _ => "Io"
  | .http _ => "Http"
  | .malformed _ => "MalformedWorkItem"
  | .unregistered _ => "UnregisteredWorkItem"
  | .nonRetriable _ => "NonRetriable"
  | .cancelled => "Cancelled"
  | .processing _ _ => "Processing"
  | .other _ => "Other"

theorem Failure.isRetriable_of_isCancellation {f : Failure} (h : f.isCancellation = true) :
    f.isRetriable = false := by
  cases f <;> simp_all [isCancellation, isRetriable]

end WorkQueue
