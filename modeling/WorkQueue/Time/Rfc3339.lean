import WorkQueue.Text.Blank
import WorkQueue.Text.Decimal
import WorkQueue.Time.Calendar
import WorkQueue.Time.Duration

/-! # Points in time as text

A point in time is read from a date, a time of day and an offset from universal time, and is
kept and written in universal time. Reading is lenient about blanks between the parts. The
second 60 is a leap second, which counts as a second and more of the second before it.
-/
namespace WorkQueue
open WorkQueue.Text (isBlank digitValue limit31)

structure DateTime where
  date : Date
  second : Nat
  nanos : Nat
  deriving DecidableEq, Repr

inductive DateTimeFault
  | outOfRange
  | impossible
  | invalid
  | tooShort
  | tooLong
  deriving DecidableEq, Repr

def DateTimeFault.message : DateTimeFault → String
  | .outOfRange => "input is out of range"
  | .impossible => "no possible date and time matching input"
  | .invalid => "input contains invalid characters"
  | .tooShort => "premature end of input"
  | .tooLong => "trailing input"

namespace DateTime

abbrev Reading (α : Type) := Except DateTimeFault (α × List Char)

/-- The number that digits denote. -/
def valueOf (digits : List Char) : Nat := digits.foldl (fun n c => n * 10 + digitValue c) 0

def readNumber (width : Nat) (cs : List Char) : Reading Nat :=
  match cs, (cs.take width).takeWhile Char.isDigit with
  | [], _ => .error .tooShort
  | _, [] => .error .invalid
  | _, digits => .ok (valueOf digits, cs.drop digits.length)

/-- Reads a number after blanks, within limits. -/
def readWithin (low high width : Nat) (cs : List Char) : Reading Nat :=
  match readNumber width (cs.dropWhile isBlank) with
  | .error fault => .error fault
  | .ok (n, rest) => if low ≤ n ∧ n ≤ high then .ok (n, rest) else .error .outOfRange

/-- Reads a year: four digits, or any number of them after a sign. -/
def readYear (cs : List Char) : Reading Int :=
  let unbounded (negative : Bool) (cs : List Char) : Reading Int :=
    match readNumber cs.length cs with
    | .error fault => .error fault
    | .ok (n, rest) =>
      if n ≤ limit31 then .ok (if negative then -(n : Int) else n, rest)
      else if negative && n == limit31 + 1 then .ok (-(n : Int), rest)
      else .error .outOfRange
  match cs.dropWhile isBlank with
  | '-' :: rest => unbounded true rest
  | '+' :: rest => unbounded false rest
  | rest => (readNumber 4 rest).map fun r => ((r.1 : Int), r.2)

def readMark (mark : Char) (cs : List Char) : Except DateTimeFault (List Char) :=
  match cs.dropWhile isBlank with
  | [] => .error .tooShort
  | c :: rest => if c = mark then .ok rest else .error .invalid

def readSeparator : List Char → Except DateTimeFault (List Char)
  | [] => .error .tooShort
  | c :: rest => if c = 't' ∨ c = 'T' ∨ c = ' ' then .ok rest else .error .invalid

/-- Reads a fraction of a second, if there is one. Digits after the ninth are dropped. -/
def readFraction : List Char → Reading Nat
  | '.' :: rest =>
    match readNumber 9 rest with
    | .error fault => .error fault
    | .ok (n, after) =>
      .ok (n * Nat.pow 10 (9 - (rest.length - after.length)), after.dropWhile Char.isDigit)
  | rest => .ok (0, rest)

def readPair (greatestTen : Char) (cs : List Char) : Reading Nat :=
  match cs with
  | a :: b :: rest =>
    if a.isDigit && b.isDigit then
      if a ≤ greatestTen then .ok (valueOf [a, b], rest) else .error .outOfRange
    else .error .invalid
  | [c] => .error (if c.utf8Size < 2 then .tooShort else .invalid)
  | [] => .error .tooShort

def readOffsetSpan (cs : List Char) : Reading Nat :=
  match readPair '9' cs with
  | .error fault => .error fault
  | .ok (hours, rest) =>
    match readPair '5' (rest.dropWhile fun c => c == ':' || isBlank c) with
    | .error fault => .error fault
    | .ok (minutes, rest) => .ok (hours * 3600 + minutes * 60, rest)

def readOffset (cs : List Char) : Reading Int :=
  match cs with
  | [] => .error .tooShort
  | c :: rest =>
    if (cs.take 3).map Char.toLower = ['u', 't', 'c'] then .ok (0, cs.drop 3)
    else if c = 'Z' ∨ c = 'z' then .ok (0, rest)
    else if c = '+' then (readOffsetSpan rest).map fun r => ((r.1 : Int), r.2)
    else if c = '-' ∨ c = '\u2212' then (readOffsetSpan rest).map fun r => (-(r.1 : Int), r.2)
    else .error .invalid

/-- Shifts a local time by its offset into universal time. -/
def ofLocal (date : Date) (second nanos : Nat) (offset : Int) : Except DateTimeFault DateTime :=
  let shifted := (second : Int) - offset
  let day := if shifted < 0 then date.previous?
    else if 86400 ≤ shifted then date.next?
    else some date
  match day with
  | none => .error .impossible
  | some day => .ok ⟨day, (shifted % 86400).toNat, nanos⟩

def secondOfDay (hour minute second : Nat) : Nat := hour * 3600 + minute * 60 + second

def parse (text : String) : Except DateTimeFault DateTime := do
  let (year, cs) ← readYear text.toList
  let cs ← readMark '-' cs
  let (month, cs) ← readWithin 1 12 2 cs
  let cs ← readMark '-' cs
  let (day, cs) ← readWithin 1 31 2 cs
  let cs ← readSeparator cs
  let (hour, cs) ← readWithin 0 23 2 cs
  let cs ← readMark ':' cs
  let (minute, cs) ← readWithin 0 59 2 cs
  let cs ← readMark ':' cs
  let (second, cs) ← readWithin 0 60 2 cs
  let (fraction, cs) ← readFraction cs
  let (offset, cs) ← readOffset (cs.dropWhile isBlank)
  if !(cs.all isBlank) then throw .tooLong
  let some date := Date.make? year month day | throw .outOfRange
  if 86400 ≤ offset.natAbs then throw .outOfRange
  let leap := if second = 60 then nanosPerSecond else 0
  ofLocal date (secondOfDay hour minute (min second 59)) (fraction + leap) offset

def padded (width n : Nat) : String :=
  let digits := toString n
  "".pushn '0' (width - digits.length) ++ digits

/-- A year of four digits; other years carry a sign. -/
def yearText (year : Int) : String :=
  if 0 ≤ year ∧ year ≤ 9999 then padded 4 year.toNat
  else (if year < 0 then "-" else "+") ++ padded 4 year.natAbs

/-- A fraction of a second, in none, three, six or nine digits. -/
def fractionText (nanos : Nat) : String :=
  if nanos = 0 then ""
  else if nanos % 1000000 = 0 then "." ++ padded 3 (nanos / 1000000)
  else if nanos % 1000 = 0 then "." ++ padded 6 (nanos / 1000)
  else "." ++ padded 9 nanos

def render (t : DateTime) : String :=
  let leap := t.nanos / nanosPerSecond
  yearText t.date.year ++ "-" ++ padded 2 t.date.month ++ "-" ++ padded 2 t.date.day ++ "T" ++
    padded 2 (t.second / 3600) ++ ":" ++ padded 2 (t.second / 60 % 60) ++ ":" ++
    padded 2 (t.second % 60 + leap) ++ fractionText (t.nanos % nanosPerSecond) ++ "Z"

end DateTime
end WorkQueue
