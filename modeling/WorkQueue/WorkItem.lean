import WorkQueue.Failure
import WorkQueue.Json.Reader

/-! # Work items

A work item is a record with an identity and a type, both nonempty strings, and whatever
else its producer put beside them. Parsing accepts exactly the JSON objects of that form
and keeps the whole record.
-/
namespace WorkQueue

structure WorkItem where
  id : String
  workItemType : String
  record : Json.Fields

namespace WorkItem

/-- The field that carries the identity. -/
def idField : String := "id"

def typeField : String := "type"

def requiredText (record : Json.Fields) (name : String) : Except Malformation String :=
  match record.get? name with
  | none => .error (.fieldMissing name)
  | some (.string s) => if s = "" then .error (.fieldEmpty name) else .ok s
  | some other => .error (.fieldNotText name other.render)

def ofRecord (record : Json.Fields) : Except Malformation WorkItem :=
  match requiredText record idField with
  | .error fault => .error fault
  | .ok id =>
    match requiredText record typeField with
    | .error fault => .error fault
    | .ok workItemType => .ok ⟨id, workItemType, record⟩

/-- Why a body is refused, or its work item. -/
def ofBody (body : String) : Except Malformation WorkItem :=
  match Json.parse body with
  | .error cause => .error (.notJson cause)
  | .ok (.object record) => ofRecord record
  | .ok _ => .error .notObject

def parse (body : String) : Except Failure WorkItem := (ofBody body).mapError Failure.malformed

def body (item : WorkItem) : Json.Value := .object item.record

end WorkItem
end WorkQueue
