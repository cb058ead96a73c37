import WorkQueue.WorkItem
import WorkQueue.Json.Schema

/-! # Typed payloads

A payload type owns one type name. Encoding writes the fields of a payload into a record and
stamps its identity and its type name over them; decoding reads the fields back and ignores
every field that the payload type does not declare.
-/
namespace WorkQueue

/-- A type of payload. Serializing may fail and need not give an object. -/
class Payload (α : Type) where
  typeName : String
  id : α → String
  serialize : α → Except Json.Error Json.Value
  deserialize : Json.Value → Except Json.Mismatch α

/-- A payload type whose values are records of a schema. -/
class RecordPayload (α : Type) where
  typeName : String
  recordName : String
  schema : Json.Schema
  toRecord : α → Json.Record schema
  ofRecord : Json.Record schema → α
  ofRecord_toRecord : ∀ p, ofRecord (toRecord p) = p
  id : α → String

instance [RecordPayload α] : Payload α where
  typeName := RecordPayload.typeName α
  id := RecordPayload.id
  serialize p :=
    .ok (.object (Json.Schema.encode (RecordPayload.schema α) (RecordPayload.toRecord p)))
  deserialize v :=
    (Json.Schema.decode (RecordPayload.schema α) (RecordPayload.recordName α) v).map
      RecordPayload.ofRecord

namespace Payload

def stamp (id typeName : String) (record : Json.Fields) : Json.Fields :=
  NameMap.insert WorkItem.typeField (.string typeName)
    (NameMap.insert WorkItem.idField (.string id) record)

def toRecord [Payload α] (p : α) : Except Failure Json.Fields :=
  match serialize p with
  | .error cause => .error (.serialization cause)
  | .ok (.object fields) => .ok (stamp (id p) (typeName α) (NameMap.ofBindings fields))
  | .ok _ => .error (.other s!"work item payload {typeName α} must serialize to a JSON object")

def encode [Payload α] (p : α) : Except Failure String :=
  (toRecord p).map fun record => (Json.Value.object record).render

def ofValue [Payload α] (v : Json.Value) : Except Failure α :=
  (deserialize v).mapError fun cause => .serialization ⟨.mismatch cause, none⟩

/-- The payload of a work item. A record that does not fit its type will never fit. -/
def decode (α : Type) [Payload α] (item : WorkItem) : Except Failure α :=
  (deserialize item.body).mapError fun cause =>
    .nonRetriable s!"work item {item.id} does not decode as {typeName α}: {cause.message}"

theorem decode_error [Payload α] {item : WorkItem} {failure : Failure}
    (h : decode α item = .error failure) : ∃ text, failure = .nonRetriable text := by
  unfold decode at h
  cases hd : deserialize (α := α) item.body with
  | error cause =>
    rw [hd] at h
    cases h
    exact ⟨_, rfl⟩
  | ok p =>
    rw [hd] at h
    cases h

end Payload
end WorkQueue
