import WorkQueue.Json.Fault

/-! # Records with a schema

A schema lists the fields of a record in the order of their declaration. Reading a record
from an object looks only at the fields that the schema names: the first of them, by
ascending name, that does not fit is reported, and after that the first declared field that
is missing. Other fields are ignored. An array is read by position.
-/
namespace WorkQueue.Json

inductive FieldKind
  | text
  | int64
  | uint64
  | uint32
  | flag
  | optionalText
  deriving DecidableEq, Repr

abbrev FieldKind.Carrier : FieldKind → Type
  | .text => String
  | .int64 => Int64
  | .uint64 => UInt64
  | .uint32 => UInt32
  | .flag => Bool
  | .optionalText => Option String

/-- A declared field: its name, its kind, and the value that stands for its absence. -/
structure Field where
  name : String
  kind : FieldKind
  fallback : Option kind.Carrier := none

abbrev Schema := List Field

def Record : Schema → Type
  | [] => Unit
  | field :: rest => field.kind.Carrier × Record rest

def Value.found : Value → Found
  | .null => .null
  | .bool b => .bool b
  | .number n => .number n
  | .string s => .string s
  | .array _ => .sequence
  | .object _ => .map

/-- Reads an integer between two limits. -/
def Value.toInteger (low high : Int) (expected : String) (v : Value) : Except Mismatch Int :=
  match v with
  | .number (.integer n) =>
    if low ≤ n ∧ n ≤ high then .ok n else .error (.invalidValue v.found expected)
  | _ => .error (.invalidType v.found expected)

def Value.toText (v : Value) : Except Mismatch String :=
  match v with
  | .string s => .ok s
  | _ => .error (.invalidType v.found "a string")

/-- Reads a truth value. -/
def Value.toFlag (v : Value) : Except Mismatch Bool :=
  match v with
  | .bool b => .ok b
  | _ => .error (.invalidType v.found "a boolean")

def FieldKind.decode (kind : FieldKind) (v : Value) : Except Mismatch kind.Carrier :=
  match kind with
  | .text => v.toText
  | .int64 => (v.toInteger (-(Text.limit63 + 1)) Text.limit63 "i64").map Int64.ofInt
  | .uint64 => (v.toInteger 0 Text.limit64 "u64").map fun n => UInt64.ofNat n.toNat
  | .uint32 => (v.toInteger 0 Text.limit32 "u32").map fun n => UInt32.ofNat n.toNat
  | .flag => v.toFlag
  | .optionalText =>
    match v with
    | .null => .ok none
    | _ => v.toText.map some

/-- The value of a field as a document holds it. -/
def FieldKind.encode (kind : FieldKind) (x : kind.Carrier) : Value :=
  match kind with
  | .text => .string x
  | .int64 => .number (.integer (Int64.toInt x))
  | .uint64 => .number (.integer (UInt64.toNat x))
  | .uint32 => .number (.integer (UInt32.toNat x))
  | .flag => .bool x
  | .optionalText =>
    match (x : Option String) with
    | none => .null
    | some s => .string s

/-- What a message calls a record of a name and a number of fields. -/
def recordOf (name : String) (count : Nat) : String :=
  s!"struct {name} with {count} element" ++ (if count = 1 then "" else "s")

namespace Schema

def field? (schema : Schema) (name : String) : Option Field :=
  schema.find? fun field => field.name == name

def restrict (schema : Schema) (fields : Fields) : Fields :=
  fields.filter fun f => (schema.field? f.1).isSome

def firstMismatch (schema : Schema) : Fields → Option Mismatch
  | [] => none
  | (name, v) :: rest =>
    match schema.field? name with
    | none => firstMismatch schema rest
    | some field =>
      match field.kind.decode v with
      | .error cause => some cause
      | .ok _ => firstMismatch schema rest

/-- The value of one field of an object, or what stands for its absence. -/
def take (field : Field) (fields : Fields) : Except Mismatch field.kind.Carrier :=
  match fields.get? field.name with
  | some v => field.kind.decode v
  | none =>
    match field.fallback with
    | some x => .ok x
    | none => .error (.missingField field.name)

def collect : (schema : Schema) → Fields → Except Mismatch (Record schema)
  | [], _ => .ok ()
  | field :: rest, fields =>
    match take field fields with
    | .error cause => .error cause
    | .ok x => (collect rest fields).map fun xs => (x, xs)

def ofFields (schema : Schema) (fields : Fields) : Except Mismatch (Record schema) :=
  match firstMismatch schema (restrict schema fields) with
  | some cause => .error cause
  | none => collect schema (restrict schema fields)

/-- Reads a record by position: the record, and how many items are left. -/
def ofItems (tooShort : Nat → Mismatch) :
    Nat → (schema : Schema) → List Value → Except Mismatch (Record schema × Nat)
  | _, [], items => .ok ((), items.length)
  | index, field :: rest, [] =>
    match field.fallback with
    | some x => (ofItems tooShort (index + 1) rest []).map fun r => ((x, r.1), r.2)
    | none => .error (tooShort index)
  | index, field :: rest, v :: items =>
    match field.kind.decode v with
    | .error cause => .error cause
    | .ok x => (ofItems tooShort (index + 1) rest items).map fun r => ((x, r.1), r.2)

def expectation (schema : Schema) (name : String) : String := recordOf name schema.length

def decode (schema : Schema) (name : String) (v : Value) : Except Mismatch (Record schema) :=
  match v with
  | .object fields => schema.ofFields fields
  | .array items =>
    match ofItems (fun n => .invalidLength n (schema.expectation name)) 0 schema items with
    | .error cause => .error cause
    | .ok (record, 0) => .ok record
    | .ok (_, _ + 1) => .error (.invalidLength items.length "fewer elements in array")
  | _ => .error (.invalidType v.found s!"struct {name}")

/-- The fields of a record, in the order of their declaration. -/
def encode : (schema : Schema) → Record schema → List (String × Value)
  | [], _ => []
  | field :: rest, (x, xs) => (field.name, field.kind.encode x) :: encode rest xs

end Schema
end WorkQueue.Json
