import WorkQueue.Json.Fault
import WorkQueue.Text.Decimal

/-! # The lexemes of JSON

Readers of words, strings and numbers on the characters that are left. A reader that stops
says how many bytes were then left, which fixes the place of the fault: a byte just taken
is no longer left, and a fault about the next byte counts that byte as taken.
-/
namespace WorkQueue.Json
open WorkQueue.Text

/-- A fault and the number of bytes that were left. -/
structure Stop where
  fault : Fault
  left : Nat
  deriving DecidableEq, Repr

/-- A result and the characters after it. -/
abbrev Reading (α : Type) := Except Stop (α × List Char)

/-- A fault in a text, with its place. -/
def Stop.locate (text : List Char) (s : Stop) : Error :=
  ⟨s.fault, some (placeAt text (byteCount text - s.left))⟩

/-- Stops with the next byte taken, if there is one. -/
def stopAfterByte (fault : Fault) (cs : List Char) : Stop := ⟨fault, byteCount cs - 1⟩

/-- Stops before the characters that are left. -/
def stopAt (fault : Fault) (cs : List Char) : Stop := ⟨fault, byteCount cs⟩

def isSpace (c : Char) : Bool := c = ' ' || c = '\n' || c = '\t' || c = '\r'

def skipSpace (cs : List Char) : List Char := cs.dropWhile isSpace

def readWord : List Char → List Char → Except Stop (List Char)
  | [], cs => .ok cs
  | _ :: _, [] => .error ⟨.endOfValue, 0⟩
  | w :: word, c :: cs =>
    if c = w then readWord word cs else .error (stopAfterByte .expectedWord (c :: cs))

/-! ## Strings -/

def hexValue (c : Char) : Option Nat :=
  if '0' ≤ c && c ≤ '9' then some (c.toNat - 0x30)
  else if 'a' ≤ c && c ≤ 'f' then some (c.toNat - 0x57)
  else if 'A' ≤ c && c ≤ 'F' then some (c.toNat - 0x37)
  else none

/-- Reads four hexadecimal digits. Four bytes are taken before they are looked at. -/
def readUnit (cs : List Char) : Except Stop Nat :=
  match cs with
  | a :: b :: c :: d :: rest =>
    match hexValue a, hexValue b, hexValue c, hexValue d with
    | some a, some b, some c, some d => .ok (((a * 16 + b) * 16 + c) * 16 + d)
    | _, _, _, _ => .error ⟨.invalidEscape, byteCount (a :: b :: c :: d :: rest) - 4⟩
  | _ =>
    if 4 ≤ byteCount cs then .error ⟨.invalidEscape, byteCount cs - 4⟩
    else .error ⟨.endOfString, 0⟩

/-- Expects one character after the first half of a surrogate pair. -/
def expectPair (wanted : Char) : List Char → Except Stop (List Char)
  | [] => .error ⟨.endOfString, 0⟩
  | c :: cs => if c = wanted then .ok cs else .error (stopAfterByte .endOfHexEscape (c :: cs))

/-- Reads what follows a backslash: the character meant, and how many characters it took. -/
def readEscape (cs : List Char) : Except Stop (Char × Nat) :=
  match cs with
  | [] => .error ⟨.endOfString, 0⟩
  | c :: rest =>
    if c = '"' || c = '\\' || c = '/' then .ok (c, 1)
    else if c = 'b' then .ok ('\x08', 1)
    else if c = 'f' then .ok ('\x0c', 1)
    else if c = 'n' then .ok ('\n', 1)
    else if c = 'r' then .ok ('\r', 1)
    else if c = 't' then .ok ('\t', 1)
    else if c = 'u' then do
      let unit ← readUnit rest
      if 0xDC00 ≤ unit && unit ≤ 0xDFFF then .error (stopAt .loneSurrogate (rest.drop 4))
      else if unit < 0xD800 || 0xDBFF < unit then .ok (Char.ofNat unit, 5)
      else do
        let afterSlash ← expectPair '\\' (rest.drop 4)
        let afterMark ← expectPair 'u' afterSlash
        let second ← readUnit afterMark
        if second < 0xDC00 || 0xDFFF < second then
          .error (stopAt .loneSurrogate (afterMark.drop 4))
        else .ok (Char.ofNat (0x10000 + (unit - 0xD800) * 0x400 + (second - 0xDC00)), 11)
    else .error (stopAfterByte .invalidEscape (c :: rest))

/-- Reads a string after its opening quote. The first argument counts characters that an
escape has already taken. -/
def readChars : Nat → List Char → Reading (List Char)
  | _, [] => .error ⟨.endOfString, 0⟩
  | taken + 1, _ :: rest => readChars taken rest
  | 0, c :: rest =>
    if c = '"' then .ok ([], rest)
    else if c = '\\' then
      match readEscape rest with
      | .error stop => .error stop
      | .ok (meant, taken) =>
        (readChars taken rest).map fun r => (meant :: r.1, r.2)
    else if c.toNat < 0x20 then .error (stopAt .controlCharacter rest)
    else (readChars 0 rest).map fun r => (c :: r.1, r.2)

def readString (cs : List Char) : Reading String :=
  (readChars 0 cs).map fun r => (String.ofList r.1, r.2)

/-! ## Numbers -/

/-- Extends a significand by the digits that keep it within 64 bits: the significand, how
many digits it took, and the characters after them. -/
def extendSignificand : Nat → List Char → Nat × Nat × List Char
  | value, [] => (value, 0, [])
  | value, c :: rest =>
    if c.isDigit && value * 10 + digitValue c ≤ limit64 then
      let r := extendSignificand (value * 10 + digitValue c) rest
      (r.1, r.2.1 + 1, r.2.2)
    else (value, 0, c :: rest)

def skipDigits : List Char → Nat × List Char
  | [] => (0, [])
  | c :: rest =>
    if c.isDigit then let r := skipDigits rest; (r.1 + 1, r.2) else (0, c :: rest)

def readReal (negative : Bool) (significand : Nat) (e : Int) (cs : List Char) : Reading Number :=
  match Binary64.ofDecimal negative significand e with
  | some x => .ok (.real x, cs)
  | none => .error (stopAt .numberOutOfRange cs)

/-- Reads the digits of an exponent. Past 31 bits the value is out of range, or zero. -/
def readExponentDigits (negative down : Bool) (significand : Nat) (start : Int) :
    Nat → List Char → Reading Number
  | e, [] => readReal negative significand (if down then start - e else start + e) []
  | e, c :: rest =>
    if c.isDigit then
      if e * 10 + digitValue c ≤ limit31 then
        readExponentDigits negative down significand start (e * 10 + digitValue c) rest
      else if significand ≠ 0 && !down then .error (stopAt .numberOutOfRange rest)
      else .ok (.real (Binary64.zero negative), (skipDigits rest).2)
    else readReal negative significand (if down then start - e else start + e) (c :: rest)

def readExponent (negative : Bool) (significand : Nat) (start : Int) (cs : List Char) :
    Reading Number :=
  let down := cs.head? == some '-'
  let digits := if cs.head? == some '+' || down then cs.drop 1 else cs
  match digits with
  | [] => .error ⟨.endOfValue, 0⟩
  | c :: rest =>
    if c.isDigit then readExponentDigits negative down significand start (digitValue c) rest
    else .error (stopAfterByte .invalidNumber (c :: rest))

/-- Goes on after the digits of a number that is not an integer. -/
def readScale (negative : Bool) (significand : Nat) (e : Int) (cs : List Char) : Reading Number :=
  match cs with
  | c :: rest =>
    if c = 'e' || c = 'E' then readExponent negative significand e rest
    else readReal negative significand e cs
  | [] => readReal negative significand e []

/-- Reads a fraction after its point. Digits that do not fit the significand are ignored. -/
def readFraction (negative : Bool) (significand : Nat) (e : Int) (cs : List Char) :
    Reading Number :=
  match extendSignificand significand cs with
  | (value, count, []) =>
    if count = 0 then .error ⟨.endOfValue, 0⟩ else readScale negative value (e - count) []
  | (value, count, c :: rest) =>
    if c.isDigit then readScale negative value (e - count) (skipDigits rest).2
    else if count = 0 then .error (stopAfterByte .invalidNumber (c :: rest))
    else readScale negative value (e - count) (c :: rest)

/-- The number of a whole significand: negative zero and whatever passes 64 signed bits
below is a double. -/
def wholeNumber (negative : Bool) (significand : Nat) (cs : List Char) : Reading Number :=
  if !negative then .ok (.integer significand, cs)
  else if significand = 0 then .ok (.real (Binary64.zero true), cs)
  else if significand ≤ limit63 + 1 then .ok (.integer (-(significand : Int)), cs)
  else readReal true significand 0 cs

/-- Goes on after a significand of which `dropped` digits did not fit. -/
def readRest (negative : Bool) (significand dropped : Nat) (cs : List Char) : Reading Number :=
  match cs with
  | '.' :: rest => readFraction negative significand dropped rest
  | _ =>
    match cs with
    | c :: rest =>
      if c = 'e' || c = 'E' then readExponent negative significand dropped rest
      else if dropped = 0 then wholeNumber negative significand cs
      else readReal negative significand dropped cs
    | [] =>
      if dropped = 0 then wholeNumber negative significand []
      else readReal negative significand dropped []

/-- Reads a number after its sign. A zero is not followed by a digit. -/
def readNumber (negative : Bool) (cs : List Char) : Reading Number :=
  match cs with
  | [] => .error ⟨.endOfValue, 0⟩
  | c :: rest =>
    if c = '0' then
      match rest with
      | d :: _ =>
        if d.isDigit then .error (stopAfterByte .invalidNumber rest)
        else readRest negative 0 0 rest
      | [] => readRest negative 0 0 []
    else if c.isDigit then
      let r := extendSignificand (digitValue c) rest
      let dropped := skipDigits r.2.2
      readRest negative r.1 dropped.1 dropped.2
    else .error (stopAfterByte .invalidNumber (c :: rest))

end WorkQueue.Json
