import WorkQueue.Net.SocketAddress

/-! # Percent-encoding

A byte is written as a percent sign and two hexadecimal digits. Which characters of ASCII are
encoded depends on where they stand; what is beyond ASCII always is.
-/
namespace WorkQueue.Net

def capitalDigit (n : Nat) : Char :=
  if n < 10 then Char.ofNat (0x30 + n) else Char.ofNat (0x37 + n)

def encodedByte (b : UInt8) : List Char :=
  ['%', capitalDigit (b.toNat / 16), capitalDigit (b.toNat % 16)]

/-- Whether a character is a control or beyond ASCII. -/
def isControl (c : Char) : Bool := c.toNat < 0x20 || 0x7F ≤ c.toNat

def percentEncode (mustEncode : Char → Bool) (cs : List Char) : List Char :=
  cs.flatMap fun c =>
    if isControl c || mustEncode c then (String.utf8EncodeChar c).flatMap encodedByte else [c]

/-- The bytes of a text whose encoded bytes are decoded. A percent sign without two digits
stands for itself. -/
def percentDecode : List Char → List UInt8
  | [] => []
  | '%' :: a :: b :: rest =>
    match digit? 16 a, digit? 16 b with
    | some high, some low => UInt8.ofNat (high * 16 + low) :: percentDecode rest
    | _, _ => 0x25 :: percentDecode (a :: b :: rest)
  | c :: rest => String.utf8EncodeChar c ++ percentDecode rest

/-- The characters that are encoded in the name and the password of a user. -/
def encodedInUser (c : Char) : Bool :=
  c ∈ [' ', '"', '#', '<', '>', '?', '\x60', '\x7b', '\x7d', '/', ':', ';', '=', '@', '[', '\\',
    ']', '^', '|']

def encodedInPath (c : Char) : Bool :=
  c ∈ [' ', '"', '#', '<', '>', '?', '\x60', '\x7b', '\x7d']

def encodedInQuery (c : Char) : Bool := c ∈ [' ', '"', '#', '<', '>']

def encodedInFragment (c : Char) : Bool := c ∈ [' ', '"', '<', '>', '\x60']

end WorkQueue.Net
