import WorkQueue.Text.Unprintable

/-! # Quoted diagnostics

A text inside an error message is written between double quotes. Quotes, backslashes and
the three common controls get a backslash, every other unprintable character is named by
its code point, and all else stands for itself.
-/
namespace WorkQueue.Text

/-- The lower case digit of a value below sixteen. -/
def hexDigit (n : Nat) : Char :=
  if n < 10 then Char.ofNat (0x30 + n) else Char.ofNat (0x57 + n)

/-- The lower case hexadecimal digits of a number, without leading zeros. -/
def hexDigits (n : Nat) : List Char := go 16 n []
where
  /-- Puts the digits of the number before those already found, sixteen at the most. -/
  go : Nat → Nat → List Char → List Char
    | 0, _, found => found
    | fuel + 1, n, found =>
      if n < 16 then hexDigit n :: found else go fuel (n / 16) (hexDigit (n % 16) :: found)

def quoteChar (c : Char) : List Char :=
  if c = '"' then ['\\', '"']
  else if c = '\\' then ['\\', '\\']
  else if c = '\t' then ['\\', 't']
  else if c = '\n' then ['\\', 'n']
  else if c = '\r' then ['\\', 'r']
  else if c.toNat = 0 then ['\\', '0']
  else if isUnprintable c then ['\\', 'u', '\x7b'] ++ hexDigits c.toNat ++ ['\x7d']
  else [c]

def quoted (s : String) : String :=
  String.ofList (['"'] ++ s.toList.flatMap quoteChar ++ ['"'])

def quotedList (xs : List String) : String :=
  "[" ++ ", ".intercalate (xs.map quoted) ++ "]"

end WorkQueue.Text
