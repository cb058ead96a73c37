import WorkQueue.Json.Lexeme

/-! # Reading JSON documents

The reader follows the grammar. It takes fuel for each value and bounds how deep arrays and
objects may nest. A container takes two units of fuel for each of its items, so that twice
the number of characters is enough for any document.
-/
namespace WorkQueue.Json

/-- How deep arrays and objects may nest, counting one level that is never entered. -/
def nestingLimit : Nat := 128

inductive Next
  | last (rest : List Char)
  | more (rest : List Char)

/-- Looks for the next item of an array: the end of the array, or where an item starts. -/
def nextItem (first : Bool) (cs : List Char) : Except Stop Next :=
  match skipSpace cs with
  | [] => .error ⟨.endOfList, 0⟩
  | c :: rest =>
    if c = ']' then .ok (.last rest)
    else if first then .ok (.more (c :: rest))
    else if c = ',' then
      match skipSpace rest with
      | [] => .error ⟨.endOfValue, 0⟩
      | d :: after =>
        if d = ']' then .error (stopAfterByte .trailingComma (d :: after))
        else .ok (.more (d :: after))
    else .error (stopAfterByte .expectedListCommaOrEnd (c :: rest))

/-- Looks for the next field of an object: the end of the object, or the characters after
the quote that opens a name. -/
def nextField (first : Bool) (cs : List Char) : Except Stop Next :=
  match skipSpace cs with
  | [] => .error ⟨.endOfObject, 0⟩
  | c :: rest =>
    if c = '\x7d' then .ok (.last rest)
    else if first then
      if c = '"' then .ok (.more rest) else .error (stopAfterByte .keyNotString (c :: rest))
    else if c = ',' then
      match skipSpace rest with
      | [] => .error ⟨.endOfValue, 0⟩
      | d :: after =>
        if d = '"' then .ok (.more after)
        else if d = '\x7d' then .error (stopAfterByte .trailingComma (d :: after))
        else .error (stopAfterByte .keyNotString (d :: after))
    else .error (stopAfterByte .expectedObjectCommaOrEnd (c :: rest))

def readColon (cs : List Char) : Except Stop (List Char) :=
  match skipSpace cs with
  | [] => .error ⟨.endOfObject, 0⟩
  | c :: rest => if c = ':' then .ok rest else .error (stopAfterByte .expectedColon (c :: rest))

def readName (cs : List Char) : Reading String :=
  match readString cs with
  | .error stop => .error stop
  | .ok (name, rest) =>
    match readColon rest with
    | .error stop => .error stop
    | .ok after => .ok (name, after)

/-- Reads the values that are no containers, from their first character. -/
def readScalar (c : Char) (rest : List Char) : Reading Value :=
  if c = 'n' then (readWord ['u', 'l', 'l'] rest).map fun r => (.null, r)
  else if c = 't' then (readWord ['r', 'u', 'e'] rest).map fun r => (.bool true, r)
  else if c = 'f' then (readWord ['a', 'l', 's', 'e'] rest).map fun r => (.bool false, r)
  else if c = '-' then (readNumber true rest).map fun r => (.number r.1, r.2)
  else if c.isDigit then (readNumber false (c :: rest)).map fun r => (.number r.1, r.2)
  else if c = '"' then (readString rest).map fun r => (.string r.1, r.2)
  else .error (stopAfterByte .expectedValue (c :: rest))

mutual
/-- Reads one value. Containers may still nest below `depth`. -/
def readValue : Nat → Nat → List Char → Reading Value
  | 0, _, cs => .error (stopAt .endOfValue cs)
  | fuel + 1, depth, cs =>
    match skipSpace cs with
    | [] => .error ⟨.endOfValue, 0⟩
    | c :: rest =>
      if c = '[' then
        if depth ≤ 1 then .error (stopAfterByte .tooDeep (c :: rest))
        else (readItems fuel (depth - 1) true rest).map fun r => (.array r.1, r.2)
      else if c = '\x7b' then
        if depth ≤ 1 then .error (stopAfterByte .tooDeep (c :: rest))
        else (readFields fuel (depth - 1) true rest).map fun r =>
          (.object (NameMap.ofBindings r.1), r.2)
      else readScalar c rest

/-- Reads the items of an array up to its end. -/
def readItems : Nat → Nat → Bool → List Char → Reading (List Value)
  | 0, _, _, cs => .error (stopAt .endOfList cs)
  | fuel + 1, depth, first, cs =>
    match nextItem first cs with
    | .error stop => .error stop
    | .ok (.last rest) => .ok ([], rest)
    | .ok (.more start) =>
      match readValue fuel depth start with
      | .error stop => .error stop
      | .ok (item, rest) =>
        (readItems fuel depth false rest).map fun r => (item :: r.1, r.2)

/-- Reads the fields of an object up to its end, in the order of the text. -/
def readFields : Nat → Nat → Bool → List Char → Reading (List (String × Value))
  | 0, _, _, cs => .error (stopAt .endOfObject cs)
  | fuel + 1, depth, first, cs =>
    match nextField first cs with
    | .error stop => .error stop
    | .ok (.last rest) => .ok ([], rest)
    | .ok (.more start) =>
      match readName start with
      | .error stop => .error stop
      | .ok (name, body) =>
        match readValue fuel depth body with
        | .error stop => .error stop
        | .ok (item, rest) =>
          (readFields fuel depth false rest).map fun r => ((name, item) :: r.1, r.2)
end

def readEnd (cs : List Char) : Except Stop Unit :=
  match skipSpace cs with
  | [] => .ok ()
  | c :: rest => .error (stopAfterByte .trailingCharacters (c :: rest))

def readDocument (limit : Nat) (cs : List Char) : Except Stop Value :=
  match readValue (2 * cs.length + 2) limit cs with
  | .error stop => .error stop
  | .ok (v, rest) => (readEnd rest).map fun _ => v

def parseWithin (limit : Nat) (text : String) : Except Error Value :=
  (readDocument limit text.toList).mapError (Stop.locate text.toList)

def parse (text : String) : Except Error Value := parseWithin nestingLimit text

end WorkQueue.Json
