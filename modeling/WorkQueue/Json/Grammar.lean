import WorkQueue.Json.Reader

/-! # The grammar of JSON

What a text says, apart from how it is read. Each relation is between a text, what it begins with,
and the text that follows.
-/
namespace WorkQueue.Json
open WorkQueue.Text

/-- Blanks, if any. -/
def Blanks (cs rest : List Char) : Prop := ∃ bs, (∀ c ∈ bs, isSpace c = true) ∧ cs = bs ++ rest

/-! ## Strings -/

/-- Four hexadecimal digits. -/
inductive HexUnit : List Char → Nat → List Char → Prop
  | mk {a b c d : Char} {i j k l : Nat} {rest : List Char} (first : hexValue a = some i)
      (second : hexValue b = some j) (third : hexValue c = some k) (fourth : hexValue d = some l) :
      HexUnit (a :: b :: c :: d :: rest) (((i * 16 + j) * 16 + k) * 16 + l) rest

/-- The letters that stand for one character after a backslash. -/
def shortEscapes : List (Char × Char) :=
  [('"', '"'), ('\\', '\\'), ('/', '/'), ('b', '\x08'), ('f', '\x0c'), ('n', '\n'), ('r', '\r'),
    ('t', '\t')]

/-- What follows a backslash. A surrogate stands only in a pair. -/
inductive Escape : List Char → Char → List Char → Prop
  | short {letter meant : Char} {rest : List Char} (known : (letter, meant) ∈ shortEscapes) :
      Escape (letter :: rest) meant rest
  | unit {cs rest : List Char} {n : Nat} (unit : HexUnit cs n rest)
      (plain : n < 0xD800 ∨ 0xDFFF < n) : Escape ('u' :: cs) (Char.ofNat n) rest
  | pair {cs mid rest : List Char} {high low : Nat} (first : HexUnit cs high ('\\' :: 'u' :: mid))
      (second : HexUnit mid low rest) (leads : 0xD800 ≤ high ∧ high ≤ 0xDBFF)
      (trails : 0xDC00 ≤ low ∧ low ≤ 0xDFFF) :
      Escape ('u' :: cs) (Char.ofNat (0x10000 + (high - 0xD800) * 0x400 + (low - 0xDC00))) rest

/-- The characters of a string up to and with its closing quote. -/
inductive Chars : List Char → List Char → List Char → Prop
  | close {rest : List Char} : Chars ('"' :: rest) [] rest
  | plain {c : Char} {cs s rest : List Char} (bare : c ≠ '"' ∧ c ≠ '\\' ∧ 0x20 ≤ c.toNat)
      (later : Chars cs s rest) : Chars (c :: cs) (c :: s) rest
  | escape {c : Char} {cs mid s rest : List Char} (escape : Escape cs c mid)
      (later : Chars mid s rest) : Chars ('\\' :: cs) (c :: s) rest

/-! ## Numbers -/

/-- Digits, at least one. -/
structure Digits (ds : List Char) : Prop where
  nonempty : ds ≠ []
  digits : ∀ c ∈ ds, c.isDigit = true

/-- An exponent: its letter, its sign if it has one, and its digits. -/
structure Exponent where
  letter : Char
  sign : Option Char
  digits : List Char

structure Exponent.WellFormed (x : Exponent) : Prop where
  letter : x.letter = 'e' ∨ x.letter = 'E'
  sign : ∀ c ∈ x.sign, c = '+' ∨ c = '-'
  digits : Digits x.digits

/-- A number as it is written. -/
structure Numeral where
  negative : Bool
  whole : List Char
  fraction : Option (List Char)
  exponent : Option Exponent

/-- No digit follows a leading zero. -/
structure Numeral.WellFormed (p : Numeral) : Prop where
  whole : Digits p.whole
  zero : p.whole.head? = some '0' → p.whole = ['0']
  fraction : ∀ ds ∈ p.fraction, Digits ds
  exponent : ∀ x ∈ p.exponent, x.WellFormed

def Exponent.down (x : Exponent) : Bool := x.sign == some '-'

def Exponent.chars (x : Exponent) : List Char := x.letter :: (x.sign.toList ++ x.digits)

namespace Numeral

/-- What follows the whole part. -/
def tail (p : Numeral) : List Char :=
  (p.fraction.elim [] fun ds => '.' :: ds) ++ p.exponent.elim [] Exponent.chars

def chars (p : Numeral) : List Char :=
  (if p.negative then ['-'] else []) ++ p.whole ++ p.tail

/-- The double of a significand and a power of ten that goes up or down by an exponent, if it is in
range. An exponent of more than 31 bits gives zero or nothing. -/
def scaledBy? (negative : Bool) (significand : Nat) (e : Int) (down : Bool) (n : Nat) :
    Option Number :=
  if n ≤ limit31 then
    (Binary64.ofDecimal negative significand (if down then e - n else e + n)).map .real
  else if significand ≠ 0 && !down then none
  else some (.real (Binary64.zero negative))

def scaled? (negative : Bool) (significand : Nat) (e : Int) : Option Exponent → Option Number
  | none => (Binary64.ofDecimal negative significand e).map .real
  | some x => scaledBy? negative significand e x.down (Nat.ofDigitChars 10 x.digits 0)

/-- The number without a fraction and an exponent whose digits all fit the significand. -/
def whole? (negative : Bool) (significand : Nat) : Option Number :=
  if !negative then some (.integer significand)
  else if significand = 0 then some (.real (Binary64.zero true))
  else if significand ≤ limit63 + 1 then some (.integer (-(significand : Int)))
  else (Binary64.ofDecimal true significand 0).map .real

/-- The number that is written, if it is in range. The significand takes as many digits as fit 64
bits; the digits of the whole part beyond them count for the power of ten only, and those of the
fraction not at all. -/
def value? (p : Numeral) : Option Number :=
  let whole := extendSignificand 0 p.whole
  let beyond := whole.2.2.length
  match p.fraction, p.exponent with
  | none, none =>
    if beyond = 0 then whole? p.negative whole.1 else scaled? p.negative whole.1 beyond none
  | none, some x => scaled? p.negative whole.1 beyond (some x)
  | some ds, x =>
    let all := extendSignificand whole.1 ds
    scaled? p.negative all.1 ((beyond : Int) - all.2.1) x

end Numeral

/-! ## Values -/

/-- The values that are words. -/
def words : List (List Char × Value) :=
  [(['n', 'u', 'l', 'l'], .null), (['t', 'r', 'u', 'e'], .bool true),
    (['f', 'a', 'l', 's', 'e'], .bool false)]

/-- What stands before an item: blanks, and before any but the first a comma. -/
def Opens (first : Bool) (cs rest : List Char) : Prop :=
  if first then Blanks cs rest else ∃ mid, Blanks cs (',' :: mid) ∧ Blanks mid rest

mutual
/-- A value in which arrays and objects nest at most so deep. The last of several fields of a name
counts. -/
inductive Spells : Nat → List Char → Value → List Char → Prop
  | word {depth : Nat} {word rest : List Char} {v : Value} (known : (word, v) ∈ words) :
      Spells depth (word ++ rest) v rest
  | number {depth : Nat} {p : Numeral} {n : Number} {rest : List Char} (form : p.WellFormed)
      (value : p.value? = some n) : Spells depth (p.chars ++ rest) (.number n) rest
  | string {depth : Nat} {cs s rest : List Char} (chars : Chars cs s rest) :
      Spells depth ('"' :: cs) (.string (String.ofList s)) rest
  | array {depth : Nat} {cs rest : List Char} {items : List Value}
      (inside : SpellsItems depth true cs items rest) :
      Spells (depth + 1) ('[' :: cs) (.array items) rest
  | object {depth : Nat} {cs rest : List Char} {fields : List (String × Value)}
      (inside : SpellsFields depth true cs fields rest) :
      Spells (depth + 1) ('\x7b' :: cs) (.object (NameMap.ofBindings fields)) rest

/-- The items that are left of an array, after its bracket or after an item, and its end. -/
inductive SpellsItems : Nat → Bool → List Char → List Value → List Char → Prop
  | done {depth : Nat} {first : Bool} {cs rest : List Char} (closes : Blanks cs (']' :: rest)) :
      SpellsItems depth first cs [] rest
  | item {depth : Nat} {first : Bool} {cs text mid rest : List Char} {v : Value}
      {later : List Value} (opens : Opens first cs text) (value : Spells depth text v mid)
      (others : SpellsItems depth false mid later rest) :
      SpellsItems depth first cs (v :: later) rest

/-- The fields that are left of an object, in the order of the text, and its end. -/
inductive SpellsFields : Nat → Bool → List Char → List (String × Value) → List Char → Prop
  | done {depth : Nat} {first : Bool} {cs rest : List Char} (closes : Blanks cs ('\x7d' :: rest)) :
      SpellsFields depth first cs [] rest
  | field {depth : Nat} {first : Bool} {cs quoted name after body text mid rest : List Char}
      {v : Value} {later : List (String × Value)} (opens : Opens first cs ('"' :: quoted))
      (chars : Chars quoted name after) (colon : Blanks after (':' :: body))
      (blanks : Blanks body text) (value : Spells depth text v mid)
      (others : SpellsFields depth false mid later rest) :
      SpellsFields depth first cs ((String.ofList name, v) :: later) rest
end

/-- A text that is one value with blanks around it. -/
def Document (depth : Nat) (text : String) (v : Value) : Prop :=
  ∃ start rest, Blanks text.toList start ∧ Spells depth start v rest ∧ Blanks rest []

/-- A text that is one object with blanks around it, with the fields in the order of the text. -/
def RecordText (depth : Nat) (text : String) (fields : List (String × Value)) : Prop :=
  ∃ start rest, Blanks text.toList ('\x7b' :: start) ∧
    SpellsFields depth true start fields rest ∧ Blanks rest []

end WorkQueue.Json
