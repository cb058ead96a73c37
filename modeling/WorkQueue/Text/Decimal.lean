/-! # Decimal literals

Reading of the numbers and truth values that settings and command lines carry. A literal
is an optional plus sign and ASCII digits; the first character that is no digit or that
takes the value past the limit decides which error is reported.
-/
namespace WorkQueue.Text

inductive LiteralFault
  | empty
  | invalidDigit
  | tooLarge
  | notBoolean
  | notSocketAddress
  | notNetAddress
  deriving DecidableEq, Repr

def LiteralFault.message : LiteralFault → String
  | .empty => "cannot parse integer from empty string"
  | .invalidDigit => "invalid digit found in string"
  | .tooLarge => "number too large to fit in target type"
  | .notBoolean => "provided string was not `true` or `false`"
  | .notSocketAddress => "invalid socket address syntax"
  | .notNetAddress => "invalid IP address syntax"

def limit16 : Nat := 65535

def limit31 : Nat := 2147483647

def limit32 : Nat := 4294967295

def limit63 : Nat := 9223372036854775807

def limit64 : Nat := 18446744073709551615

def digitValue (c : Char) : Nat := c.toNat - 0x30

/-- Reads digits after a prefix whose value is known, refusing any value above the limit. -/
def naturalFrom (limit : Nat) : Nat → List Char → Except LiteralFault Nat
  | value, [] => .ok value
  | value, c :: rest =>
    if c.isDigit then
      if value * 10 + digitValue c ≤ limit then
        naturalFrom limit (value * 10 + digitValue c) rest
      else .error .tooLarge
    else .error .invalidDigit

/-- Reads an unsigned literal of at most the limit. A sign alone is an invalid digit. -/
def natural (limit : Nat) (s : String) : Except LiteralFault Nat :=
  match s.toList with
  | [] => .error .empty
  | ['+'] => .error .invalidDigit
  | '+' :: digits => naturalFrom limit 0 digits
  | digits => naturalFrom limit 0 digits

def boolean (s : String) : Except LiteralFault Bool :=
  if s = "true" then .ok true else if s = "false" then .ok false else .error .notBoolean

def integer64 (s : String) : Except LiteralFault Int :=
  match s.toList with
  | ['-'] => .error .invalidDigit
  | '-' :: digits => (naturalFrom (limit63 + 1) 0 digits).map fun n => -(n : Int)
  | _ => (natural limit63 s).map Int.ofNat

/-- An accepted literal is within the limit. -/
theorem naturalFrom_le {limit value n : Nat} {cs : List Char} (hv : value ≤ limit)
    (h : naturalFrom limit value cs = .ok n) : n ≤ limit := by
  induction cs generalizing value with
  | nil => cases h; exact hv
  | cons c rest ih =>
    rw [naturalFrom] at h
    split at h
    · split at h
      · exact ih ‹_› h
      · cases h
    · cases h

end WorkQueue.Text
