import WorkQueue.Payload.Basic

/-! # The payload types at hand

The text item that smoke-tests a deployment, three items of a business, a job whose handler
is told how to behave, a form with whatever fields its producer likes, and one that cannot
be serialized.
-/
namespace WorkQueue

/-- A text to log. -/
structure TextItem where
  id : String
  text : String
  deriving DecidableEq, Repr

structure BuildFlow where
  id : String
  buildId : Int64
  targetBranch : Option String := none
  deriving DecidableEq, Repr

/-- An amount to charge. -/
structure SendInvoice where
  id : String
  customerId : String
  amountCents : UInt64
  deriving DecidableEq, Repr

structure ResizeImage where
  id : String
  width : UInt32
  deriving DecidableEq, Repr

/-- A job that says how its handling goes: how many attempts fail first, what failure comes
after that, how long it takes, and what it waits for. -/
structure Job where
  id : String
  failTimes : UInt32 := 0
  error : Option String := none
  sleepMs : UInt64 := 0
  blockUntilCancelled : Bool := false
  hold : Bool := false
  deriving DecidableEq, Repr

/-- A value that is serialized as it is, with an identity beside it. -/
structure FreeForm where
  id : String
  fields : Json.Value

/-- A payload that fails to serialize, with the given message. -/
structure Unserializable where
  id : String
  message : String
  deriving DecidableEq, Repr

instance : RecordPayload TextItem where
  typeName := "TextWorkItem"
  recordName := "TextWorkItem"
  schema := [{ name := "id", kind := .text }, { name := "text", kind := .text }]
  toRecord p := (p.id, p.text, ())
  ofRecord r := ⟨r.1, r.2.1⟩
  ofRecord_toRecord _ := rfl
  id := TextItem.id

instance : RecordPayload BuildFlow where
  typeName := "BuildFlow"
  recordName := "BuildFlow"
  schema :=
    [{ name := "id", kind := .text }, { name := "buildId", kind := .int64 },
      { name := "targetBranch", kind := .optionalText, fallback := some none }]
  toRecord p := (p.id, p.buildId, p.targetBranch, ())
  ofRecord r := ⟨r.1, r.2.1, r.2.2.1⟩
  ofRecord_toRecord _ := rfl
  id := BuildFlow.id

instance : RecordPayload SendInvoice where
  typeName := "SendInvoice"
  recordName := "SendInvoice"
  schema :=
    [{ name := "id", kind := .text }, { name := "customerId", kind := .text },
      { name := "amountCents", kind := .uint64 }]
  toRecord p := (p.id, p.customerId, p.amountCents, ())
  ofRecord r := ⟨r.1, r.2.1, r.2.2.1⟩
  ofRecord_toRecord _ := rfl
  id := SendInvoice.id

instance : RecordPayload ResizeImage where
  typeName := "ResizeImage"
  recordName := "ResizeImage"
  schema := [{ name := "id", kind := .text }, { name := "width", kind := .uint32 }]
  toRecord p := (p.id, p.width, ())
  ofRecord r := ⟨r.1, r.2.1⟩
  ofRecord_toRecord _ := rfl
  id := ResizeImage.id

instance : RecordPayload Job where
  typeName := "X"
  recordName := "Job"
  schema :=
    [{ name := "id", kind := .text },
      { name := "failTimes", kind := .uint32, fallback := some (0 : UInt32) },
      { name := "error", kind := .optionalText, fallback := some none },
      { name := "sleepMs", kind := .uint64, fallback := some (0 : UInt64) },
      { name := "blockUntilCancelled", kind := .flag, fallback := some false },
      { name := "hold", kind := .flag, fallback := some false }]
  toRecord p := (p.id, p.failTimes, p.error, p.sleepMs, p.blockUntilCancelled, p.hold, ())
  ofRecord r := ⟨r.1, r.2.1, r.2.2.1, r.2.2.2.1, r.2.2.2.2.1, r.2.2.2.2.2.1⟩
  ofRecord_toRecord _ := rfl
  id := Job.id

instance : Payload FreeForm where
  typeName := "FreeForm"
  id := FreeForm.id
  serialize p := .ok p.fields
  deserialize v :=
    match v with
    | .object fields =>
      match NameMap.get? fields WorkItem.idField with
      | some (.string id) => .ok ⟨id, v⟩
      | _ => .error (.custom "free-form item without id")
    | _ => .error (.custom "free-form item without id")

/-- The fields of a payload that fails to serialize. -/
def Unserializable.schema : Json.Schema :=
  [{ name := "id", kind := .text }, { name := "message", kind := .text }]

instance : Payload Unserializable where
  typeName := "Unserializable"
  id := Unserializable.id
  serialize p := .error (Json.Error.ofText p.message)
  deserialize v :=
    (Unserializable.schema.decode "Unserializable" v).map fun r => ⟨r.1, r.2.1⟩

/-- The payload types by kind. -/
inductive Kind
  | text
  | buildFlow
  | sendInvoice
  | resizeImage
  | job
  | freeForm
  | unserializable
  deriving DecidableEq, Repr

namespace Kind

abbrev Carrier : Kind → Type
  | .text => TextItem
  | .buildFlow => BuildFlow
  | .sendInvoice => SendInvoice
  | .resizeImage => ResizeImage
  | .job => Job
  | .freeForm => FreeForm
  | .unserializable => Unserializable

instance payload : (k : Kind) → Payload k.Carrier
  | .text => inferInstanceAs (Payload TextItem)
  | .buildFlow => inferInstanceAs (Payload BuildFlow)
  | .sendInvoice => inferInstanceAs (Payload SendInvoice)
  | .resizeImage => inferInstanceAs (Payload ResizeImage)
  | .job => inferInstanceAs (Payload Job)
  | .freeForm => inferInstanceAs (Payload FreeForm)
  | .unserializable => inferInstanceAs (Payload Unserializable)

def all : List Kind :=
  [.text, .buildFlow, .sendInvoice, .resizeImage, .job, .freeForm, .unserializable]

def typeName (k : Kind) : String := (k.payload).typeName

def ofTypeName? (name : String) : Option Kind := all.find? fun k => k.typeName == name

end Kind

structure AnyPayload where
  kind : Kind
  value : kind.Carrier

namespace AnyPayload

def id (p : AnyPayload) : String := Payload.id p.value

def decode (kind : Kind) (item : WorkItem) : Except Failure AnyPayload :=
  (Payload.decode kind.Carrier item).map fun p => ⟨kind, p⟩

theorem decode_error {kind : Kind} {item : WorkItem} {failure : Failure}
    (h : decode kind item = .error failure) : ∃ text, failure = .nonRetriable text := by
  unfold decode at h
  cases hd : Payload.decode kind.Carrier item with
  | error cause =>
    rw [hd] at h
    cases h
    exact Payload.decode_error hd
  | ok p => simp [hd, Except.map] at h

/-- Reads a payload of a kind from a value. A free form takes the value as it is. -/
def ofValue (kind : Kind) (id : String) (v : Json.Value) : Except Failure AnyPayload :=
  match kind with
  | .freeForm => .ok ⟨.freeForm, { id := id, fields := v }⟩
  | kind => (Payload.ofValue (α := kind.Carrier) v).map fun p => ⟨kind, p⟩

def encode (p : AnyPayload) : Except Failure String := Payload.encode p.value

/-- The payload's own text, its fields in the order of their declaration. -/
def text (p : AnyPayload) : Except Failure String :=
  match Payload.serialize p.value with
  | .ok v => .ok v.render
  | .error cause => .error (.serialization cause)

end AnyPayload
end WorkQueue
