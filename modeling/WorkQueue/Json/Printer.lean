import WorkQueue.Json.Value
import WorkQueue.Binary64.Shortest
import WorkQueue.Text.Quoted

/-! # Compact JSON text

One text per value: no blanks, fields in the order of the object, and a string escapes only
quotes, backslashes and the characters below the space. A double shows the fewest digits
that read back; it is positional from `1e-5` up to below `1e16` and always has a point or
an exponent.
-/
namespace WorkQueue.Json
open WorkQueue.Text

/-- How a character stands inside a JSON string. -/
def escapeChar (c : Char) : List Char :=
  if c = '"' then ['\\', '"']
  else if c = '\\' then ['\\', '\\']
  else if c = '\x08' then ['\\', 'b']
  else if c = '\x0c' then ['\\', 'f']
  else if c = '\n' then ['\\', 'n']
  else if c = '\r' then ['\\', 'r']
  else if c = '\t' then ['\\', 't']
  else if c.toNat < 0x20 then
    ['\\', 'u', '0', '0', hexDigit (c.toNat / 16), hexDigit (c.toNat % 16)]
  else [c]

/-- A string between quotes. -/
def stringChars (s : List Char) : List Char := '"' :: s.flatMap escapeChar ++ ['"']

def naturalChars (n : Nat) : List Char := Nat.toDigits 10 n

def integerChars : Int → List Char
  | .ofNat n => naturalChars n
  | .negSucc n => '-' :: naturalChars (n + 1)

/-- The digits of a decimal with its point or exponent. `point` digits stand before the
point when the notation is positional. -/
def decimalChars (d : Binary64.Decimal) : List Char :=
  let digits := naturalChars d.digits
  let point : Int := digits.length + d.exponent
  if -5 < point && point ≤ 0 then
    ['0', '.'] ++ List.replicate (-point).toNat '0' ++ digits
  else if 0 < point && point ≤ 16 then
    if digits.length ≤ point.toNat then
      digits ++ List.replicate (point.toNat - digits.length) '0' ++ ['.', '0']
    else digits.take point.toNat ++ ['.'] ++ digits.drop point.toNat
  else
    let fraction := if digits.length = 1 then [] else '.' :: digits.drop 1
    let e := point - 1
    let sign := if e < 0 then '-' else '+'
    digits.take 1 ++ fraction ++ ['e', sign] ++ naturalChars e.natAbs

def realChars (x : Binary64) : List Char :=
  let sign := if x.negative then ['-'] else []
  if x.isZero then sign ++ ['0', '.', '0'] else sign ++ decimalChars x.shortest

def Number.chars : Number → List Char
  | .integer n => integerChars n
  | .real x => realChars x

mutual
def Value.chars : Value → List Char
  | .null => ['n', 'u', 'l', 'l']
  | .bool true => ['t', 'r', 'u', 'e']
  | .bool false => ['f', 'a', 'l', 's', 'e']
  | .number n => n.chars
  | .string s => stringChars s.toList
  | .array items => '[' :: itemsChars items ++ [']']
  | .object fields => '\x7b' :: fieldsChars fields ++ ['\x7d']

def itemsChars : List Value → List Char
  | [] => []
  | [v] => v.chars
  | v :: w :: rest => v.chars ++ ',' :: itemsChars (w :: rest)

def fieldsChars : List (String × Value) → List Char
  | [] => []
  | [(k, v)] => stringChars k.toList ++ ':' :: v.chars
  | (k, v) :: f :: rest => stringChars k.toList ++ ':' :: (v.chars ++ ',' :: fieldsChars (f :: rest))
end

def Value.render (v : Value) : String := String.ofList v.chars

def Number.render (n : Number) : String := String.ofList n.chars

end WorkQueue.Json
