import WorkQueue.ProcessorState
import WorkQueue.Time.Rfc3339

/-! # The recorded status of a replica

A record of the shared store: which replica, in what state, and when it was recorded.
-/
namespace WorkQueue

/-- The last recorded state of one replica. -/
structure ReplicaStatus where
  replica : String
  state : ProcessorState
  updatedAt : DateTime
  deriving DecidableEq, Repr

namespace ReplicaStatus

/-- Interprets a point in time inside a document. -/
def timeOf (text : String) : Except Json.Mismatch DateTime :=
  (DateTime.parse text).mapError fun fault => .custom fault.message

/-- Reads a point in time inside a document. -/
def readTime (cs : List Char) : Json.Reading DateTime :=
  Json.readText "an RFC 3339 formatted date and time string" timeOf cs

/-- What is known of a record while it is read. -/
abbrev Partial := Option String × Option ProcessorState × Option DateTime

/-- How the fields are read, in the order of their declaration. -/
def readers : List (Json.FieldReader Partial) :=
  [{ name := "replica_name"
     read := fun p cs => (Json.readText "a string" .ok cs).map fun r => ((some r.1, p.2), r.2) },
   { name := "state"
     read := fun p cs => (ProcessorState.read cs).map fun r => ((p.1, some r.1, p.2.2), r.2) },
   { name := "updated_at"
     read := fun p cs => (readTime cs).map fun r => ((p.1, p.2.1, some r.1), r.2) }]

def read (cs : List Char) : Json.Reading ReplicaStatus :=
  match Json.readRecord "ReplicaStatus" readers (none, none, none) cs with
  | .error stop => .error stop
  | .ok ((some replica, some state, some updatedAt), rest) => .ok (⟨replica, state, updatedAt⟩, rest)
  | .ok (_, rest) => .error (Json.mismatchAt (.missingField "replica_name") rest)

/-- A record as a document, its fields in the order of their declaration. -/
def toJson (s : ReplicaStatus) : Json.Value :=
  .object [("replica_name", .string s.replica), ("state", s.state.toJson),
    ("updated_at", .string s.updatedAt.render)]

end ReplicaStatus
end WorkQueue
