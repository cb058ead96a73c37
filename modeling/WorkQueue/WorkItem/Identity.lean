import WorkQueue.Text.Quoted

/-! # Fresh identities

A fresh work item gets a random identity of 128 bits, six of which are fixed: four say that
the identity is random and two say which layout it has. It is written as groups of lower
case hexadecimal digits.
-/
namespace WorkQueue.WorkItem

/-- The last digits of a number, as many as asked for. -/
def lastHexDigits : Nat → Nat → List Char
  | 0, _ => []
  | count + 1, n => lastHexDigits count (n / 16) ++ [Text.hexDigit (n % 16)]

/-- The identity made of random bits. -/
def freshId (bits : Nat) : String :=
  let variant := 8 + bits / Nat.pow 2 60 % 4
  String.ofList <|
    lastHexDigits 8 (bits / Nat.pow 2 96) ++ ['-'] ++
      lastHexDigits 4 (bits / Nat.pow 2 80) ++ ['-'] ++
      '4' :: lastHexDigits 3 (bits / Nat.pow 2 64) ++ ['-'] ++
      Text.hexDigit variant :: lastHexDigits 3 (bits / Nat.pow 2 48) ++ ['-'] ++
      lastHexDigits 12 bits

end WorkQueue.WorkItem
