import WorkQueue.Json.Reader
import WorkQueue.Json.Schema

/-! # Typed documents

A document whose type is known is read without building its value first. A value of the
wrong kind is read to its end before it is reported; a field that is missing or doubled is
reported where reading stood when that was noticed.
-/
namespace WorkQueue.Json

/-- A mismatch noticed with the given characters left. -/
def mismatchAt (cause : Mismatch) (cs : List Char) : Stop := stopAt (.mismatch cause) cs

/-- Reports a value that is not of the expected kind. Containers are not entered. -/
def refuseValue (expected : String) (cs : List Char) : Stop :=
  match cs with
  | [] => ⟨.endOfValue, 0⟩
  | c :: rest =>
    if c = '[' then mismatchAt (.invalidType .sequence expected) cs
    else if c = '\x7b' then mismatchAt (.invalidType .map expected) cs
    else match readScalar c rest with
      | .error stop => stop
      | .ok (v, after) => mismatchAt (.invalidType v.found expected) after

def readText (expected : String) (interpret : String → Except Mismatch α) (cs : List Char) :
    Reading α :=
  match skipSpace cs with
  | '"' :: rest =>
    match readString rest with
    | .error stop => .error stop
    | .ok (s, after) =>
      match interpret s with
      | .ok x => .ok (x, after)
      | .error cause => .error (mismatchAt cause after)
  | rest => .error (refuseValue expected rest)

def readNull (cs : List Char) : Except Stop (List Char) :=
  match skipSpace cs with
  | 'n' :: rest => readWord ['u', 'l', 'l'] rest
  | rest => .error (refuseValue "unit" rest)

/-- Reads one of a list of variants: its name, or an object that maps its name to null. -/
def readVariant (interpret : String → Except Mismatch α) (cs : List Char) : Reading α :=
  let name := readText "variant identifier" interpret
  match skipSpace cs with
  | [] => .error ⟨.endOfValue, 0⟩
  | c :: rest =>
    if c = '"' then name (c :: rest)
    else if c = '\x7b' then
      match name rest with
      | .error stop => .error stop
      | .ok (x, afterName) =>
        match readColon afterName with
        | .error stop => .error stop
        | .ok body =>
          match readNull body with
          | .error stop => .error stop
          | .ok after =>
            match skipSpace after with
            | [] => .error ⟨.endOfObject, 0⟩
            | d :: end_ =>
              if d = '\x7d' then .ok (x, end_) else .error (stopAt .expectedValue (d :: end_))
    else .error (stopAfterByte .expectedValue (c :: rest))

/-- How one field of a record is read into what is known so far. -/
structure FieldReader (σ : Type) where
  name : String
  read : σ → List Char → Reading σ

def firstMissing (readers : List (FieldReader σ)) (seen : List String) : Option String :=
  (readers.find? fun r => !seen.contains r.name).map FieldReader.name

/-- Reads the fields of an object, in any order, each declared one at most once. -/
def readRecordFields (readers : List (FieldReader σ)) :
    Nat → Bool → List String → σ → List Char → Reading σ
  | 0, _, _, _, cs => .error (stopAt .endOfObject cs)
  | fuel + 1, first, seen, state, cs =>
    match nextField first cs with
    | .error stop => .error stop
    | .ok (.last rest) =>
      match firstMissing readers seen with
      | some name => .error (mismatchAt (.missingField name) rest)
      | none => .ok (state, rest)
    | .ok (.more start) =>
      match readString start with
      | .error stop => .error stop
      | .ok (name, afterName) =>
        match readers.find? fun r => r.name == name with
        | none =>
          match readColon afterName with
          | .error stop => .error stop
          | .ok body =>
            match readValue (2 * body.length + 2) nestingLimit body with
            | .error stop => .error stop
            | .ok (_, rest) => readRecordFields readers fuel false seen state rest
        | some reader =>
          if seen.contains name then
            .error (mismatchAt (.duplicateField name) (skipSpace afterName))
          else
            match readColon afterName with
            | .error stop => .error stop
            | .ok body =>
              match reader.read state body with
              | .error stop => .error stop
              | .ok (state, rest) =>
                readRecordFields readers fuel false (name :: seen) state rest

/-- Expects the end of an array. -/
def readItemsEnd (cs : List Char) : Except Stop (List Char) :=
  match skipSpace cs with
  | [] => .error ⟨.endOfList, 0⟩
  | ']' :: rest => .ok rest
  | ',' :: rest =>
    match skipSpace rest with
    | ']' :: after => .error (stopAfterByte .trailingComma (']' :: after))
    | after => .error (stopAfterByte .trailingCharacters after)
  | rest => .error (stopAfterByte .trailingCharacters rest)

/-- Reads the fields of a record from the items of an array. -/
def readRecordItems (expected : String) :
    List (FieldReader σ) → Nat → σ → List Char → Reading σ
  | [], _, state, cs => (readItemsEnd cs).map fun rest => (state, rest)
  | reader :: readers, index, state, cs =>
    match nextItem (index == 0) cs with
    | .error stop => .error stop
    | .ok (.last rest) => .error (mismatchAt (.invalidLength index expected) rest)
    | .ok (.more start) =>
      match reader.read state start with
      | .error stop => .error stop
      | .ok (state, rest) => readRecordItems expected readers (index + 1) state rest

/-- Reads a record, as an object or as an array of its fields in order. -/
def readRecord (name : String) (readers : List (FieldReader σ)) (start : σ) (cs : List Char) :
    Reading σ :=
  match skipSpace cs with
  | '\x7b' :: rest => readRecordFields readers (rest.length + 1) true [] start rest
  | '[' :: rest => readRecordItems (recordOf name readers.length) readers 0 start rest
  | rest => .error (refuseValue s!"struct {name}" rest)

/-- Reads the bindings of an object whose values are of one type, in the order of the text. -/
def readBindings (read : List Char → Reading α) : Nat → Bool → List Char →
    Reading (List (String × α))
  | 0, _, cs => .error (stopAt .endOfObject cs)
  | fuel + 1, first, cs =>
    match nextField first cs with
    | .error stop => .error stop
    | .ok (.last rest) => .ok ([], rest)
    | .ok (.more start) =>
      match readName start with
      | .error stop => .error stop
      | .ok (name, body) =>
        match read body with
        | .error stop => .error stop
        | .ok (x, rest) =>
          (readBindings read fuel false rest).map fun r => ((name, x) :: r.1, r.2)

def readMap (read : List Char → Reading α) (cs : List Char) : Reading (List (String × α)) :=
  match skipSpace cs with
  | '\x7b' :: rest => readBindings read (rest.length + 1) true rest
  | rest => .error (refuseValue "a map" rest)

def parseAs (read : List Char → Reading α) (text : String) : Except Error α :=
  let outcome : Except Stop α :=
    match read text.toList with
    | .error stop => .error stop
    | .ok (x, rest) => (readEnd rest).map fun _ => x
  outcome.mapError (Stop.locate text.toList)

end WorkQueue.Json
