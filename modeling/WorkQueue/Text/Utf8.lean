/-! # UTF-8

Bytes are read character by character. Where they are no character, those that could still
have begun one are taken together. A text is refused at the first such place, or read with a
replacement character at each of them.
-/
namespace WorkQueue.Text

/-- The ranges of the bytes that follow a first byte, if it can begin a character. -/
def following? (first : Nat) : Option (List (Nat × Nat)) :=
  let any := (0x80, 0xBF)
  if first ≤ 0x7F then some []
  else if 0xC2 ≤ first ∧ first ≤ 0xDF then some [any]
  else if first = 0xE0 then some [(0xA0, 0xBF), any]
  else if first = 0xED then some [(0x80, 0x9F), any]
  else if 0xE1 ≤ first ∧ first ≤ 0xEF then some [any, any]
  else if first = 0xF0 then some [(0x90, 0xBF), any, any]
  else if 0xF1 ≤ first ∧ first ≤ 0xF3 then some [any, any, any]
  else if first = 0xF4 then some [(0x80, 0x8F), any, any]
  else none

/-- How many of some bytes fit ranges, one after the other. -/
def fitting : List (Nat × Nat) → List UInt8 → Nat
  | (low, high) :: ranges, b :: rest =>
    if low ≤ b.toNat ∧ b.toNat ≤ high then fitting ranges rest + 1 else 0
  | _, _ => 0

/-- The character of a first byte and of those that follow it. -/
def characterOf (first : Nat) (tail : List UInt8) : Char :=
  let bits := match tail.length with
    | 0 => first
    | 1 => first % 32
    | 2 => first % 16
    | _ => first % 8
  Char.ofNat (tail.foldl (fun n b => n * 64 + b.toNat % 64) bits)

/-- A character, or a number of bytes that are none. -/
inductive Utf8Piece
  | character (c : Char)
  | broken (size : Nat)
  | unfinished (size : Nat)
  deriving DecidableEq, Repr

def Utf8Piece.size : Utf8Piece → Nat
  | character c => c.utf8Size
  | broken size => size
  | unfinished size => size

/-- The piece that a byte begins, and how many of the bytes after it belong to it. -/
def utf8Piece (first : UInt8) (rest : List UInt8) : Utf8Piece × Nat :=
  match following? first.toNat with
  | none => (.broken 1, 0)
  | some ranges =>
    let count := fitting ranges rest
    if count = ranges.length then (.character (characterOf first.toNat (rest.take count)), count)
    else if count = rest.length then (.unfinished (count + 1), count)
    else (.broken (count + 1), count)

def utf8Pieces : List UInt8 → List Utf8Piece
  | [] => []
  | first :: rest =>
    let piece := utf8Piece first rest
    piece.1 :: utf8Pieces (rest.drop piece.2)
  termination_by bytes => bytes.length
  decreasing_by simp only [List.length_drop, List.length_cons]; omega

inductive Utf8Fault
  | invalid (size index : Nat)
  | incomplete (index : Nat)
  deriving DecidableEq, Repr

def Utf8Fault.message : Utf8Fault → String
  | .invalid size index => s!"invalid utf-8 sequence of {size} bytes from index {index}"
  | .incomplete index => s!"incomplete utf-8 byte sequence from index {index}"

/-- The characters of pieces, the first of which is at an index. -/
def charactersFrom : Nat → List Utf8Piece → Except Utf8Fault (List Char)
  | _, [] => .ok []
  | index, piece :: rest =>
    match piece with
    | .character c => (charactersFrom (index + piece.size) rest).map (c :: ·)
    | .broken size => .error (.invalid size index)
    | .unfinished _ => .error (.incomplete index)

def ofUtf8 (bytes : List UInt8) : Except Utf8Fault String :=
  (charactersFrom 0 (utf8Pieces bytes)).map String.ofList

/-- The text of some bytes, with a replacement for what is no character. -/
def ofUtf8Lossy (bytes : List UInt8) : String :=
  String.ofList ((utf8Pieces bytes).map fun piece => match piece with
    | .character c => c
    | _ => Char.ofNat 0xFFFD)

end WorkQueue.Text
