import WorkQueue.Json.Printer
import WorkQueue.Text.Decimal

/-! # What can be wrong with a JSON text

A fault names its cause. A text that is no document, or that does not fit the type it is
read as, is reported with the line and the column where reading stopped; columns count
bytes. A value that does not fit is reported without a place.
-/
namespace WorkQueue.Json
open WorkQueue.Text

inductive Found
  | null
  | bool (b : Bool)
  | number (n : Number)
  | string (s : String)
  | sequence
  | map
  deriving DecidableEq, Repr

inductive Mismatch
  | invalidType (found : Found) (expected : String)
  | invalidValue (found : Found) (expected : String)
  | invalidLength (length : Nat) (expected : String)
  | missingField (name : String)
  | duplicateField (name : String)
  | unknownVariant (found : String) (expected : List String)
  | custom (text : String)
  deriving DecidableEq, Repr

inductive Fault
  | endOfList
  | endOfObject
  | endOfString
  | endOfValue
  | expectedColon
  | expectedListCommaOrEnd
  | expectedObjectCommaOrEnd
  | expectedWord
  | expectedValue
  | invalidEscape
  | invalidNumber
  | numberOutOfRange
  | loneSurrogate
  | endOfHexEscape
  | controlCharacter
  | keyNotString
  | trailingComma
  | trailingCharacters
  | tooDeep
  | mismatch (cause : Mismatch)
  deriving DecidableEq, Repr

/-- A line, counted from one, and a column in bytes. -/
structure Place where
  line : Nat
  column : Nat
  deriving DecidableEq, Repr

/-- A refused text or value. -/
structure Error where
  fault : Fault
  place : Option Place
  deriving DecidableEq, Repr

/-- How messages show what was found. -/
def Found.message : Found → String
  | .null => "null"
  | .bool b => s!"boolean `{b}`"
  | .number (.integer n) => s!"integer `{(Number.integer n).render}`"
  | .number (.real x) => s!"floating point `{(Number.real x).render}`"
  | .string s => s!"string {Text.quoted s}"
  | .sequence => "sequence"
  | .map => "map"

/-- The alternatives of an unknown variant. -/
def oneOf (names : List String) : String :=
  match names.map fun n => s!"`{n}`" with
  | [] => "there are no variants"
  | [a] => "expected " ++ a
  | [a, b] => "expected " ++ a ++ " or " ++ b
  | all => "expected one of " ++ ", ".intercalate all

def Mismatch.message : Mismatch → String
  | .invalidType found expected => s!"invalid type: {found.message}, expected {expected}"
  | .invalidValue found expected => s!"invalid value: {found.message}, expected {expected}"
  | .invalidLength length expected => s!"invalid length {length}, expected {expected}"
  | .missingField name => s!"missing field `{name}`"
  | .duplicateField name => s!"duplicate field `{name}`"
  | .unknownVariant found expected => s!"unknown variant `{found}`, {oneOf expected}"
  | .custom text => text

def Fault.message : Fault → String
  | .endOfList => "EOF while parsing a list"
  | .endOfObject => "EOF while parsing an object"
  | .endOfString => "EOF while parsing a string"
  | .endOfValue => "EOF while parsing a value"
  | .expectedColon => "expected `:`"
  | .expectedListCommaOrEnd => "expected `,` or `]`"
  | .expectedObjectCommaOrEnd => "expected `,` or `\x7d`"
  | .expectedWord => "expected ident"
  | .expectedValue => "expected value"
  | .invalidEscape => "invalid escape"
  | .invalidNumber => "invalid number"
  | .numberOutOfRange => "number out of range"
  | .loneSurrogate => "lone leading surrogate in hex escape"
  | .endOfHexEscape => "unexpected end of hex escape"
  | .controlCharacter => "control character (\\u0000-\\u001F) found while parsing a string"
  | .keyNotString => "key must be a string"
  | .trailingComma => "trailing comma"
  | .trailingCharacters => "trailing characters"
  | .tooDeep => "recursion limit exceeded"
  | .mismatch cause => cause.message

/-- The wording of an error, with its place where it has one. -/
def Error.message (e : Error) : String :=
  match e.place with
  | none => e.fault.message
  | some p => s!"{e.fault.message} at line {p.line} column {p.column}"

/-- The characters before the last occurrence of a pattern, and those after it. -/
def splitAtLast (pattern : List Char) : List Char → Option (List Char × List Char)
  | [] => none
  | c :: rest =>
    match splitAtLast pattern rest with
    | some (before, after) => some (c :: before, after)
    | none =>
      if pattern.isPrefixOf (c :: rest) then some ([], (c :: rest).drop pattern.length) else none

/-- Reads the two numbers of a place that ends a text. -/
def readPlace (cs : List Char) : Option Place :=
  let between := " column ".toList
  let line := cs.takeWhile Char.isDigit
  let rest := cs.dropWhile Char.isDigit
  if between.isPrefixOf rest then
    let column := rest.drop between.length
    if column.all Char.isDigit then
      match natural limit64 (String.ofList line), natural limit64 (String.ofList column) with
      | .ok l, .ok c => some ⟨l, c⟩
      | _, _ => none
    else none
  else none

/-- The error that a text states. A place at the end of the text is taken as its place; lines
count from one, so a place in line zero is none. -/
def Error.ofText (text : String) : Error :=
  match splitAtLast " at line ".toList text.toList with
  | none => ⟨.mismatch (.custom text), none⟩
  | some (before, after) =>
    match readPlace after with
    | none => ⟨.mismatch (.custom text), none⟩
    | some place =>
      ⟨.mismatch (.custom (String.ofList before)), if place.line = 0 then none else some place⟩

def byteCount : List Char → Nat
  | [] => 0
  | c :: rest => c.utf8Size + byteCount rest

/-- The place that is a number of bytes into a text. -/
def placeAt (text : List Char) (offset : Nat) : Place := go text offset 1 0
where
  /-- Walks over the text while a character starts before the offset. -/
  go : List Char → Nat → Nat → Nat → Place
    | [], _, line, column => ⟨line, column⟩
    | c :: rest, left, line, column =>
      if left = 0 then ⟨line, column⟩
      else if c = '\n' then go rest (left - 1) (line + 1) 0
      else if left < c.utf8Size then ⟨line, column + left⟩
      else go rest (left - c.utf8Size) line (column + c.utf8Size)

end WorkQueue.Json
