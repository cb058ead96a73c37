import WorkQueue.Text.Decimal
import WorkQueue.Text.Quoted

/-! # Socket addresses

An address of version four with a port, or one of version six in brackets with a port. Parts
of version four have at most three digits and no leading zero; groups of version six have at
most four, one run of zero groups may be left out, and the last two groups may be written as
an address of version four. Written out, the first of the longest runs of at least two zero
groups is left out.
-/
namespace WorkQueue.Net

/-- An address with a port. -/
inductive SocketAddress
  | v4 (octets : List Nat) (port : Nat)
  | v6 (groups : List Nat) (scope : Nat) (port : Nat)
  deriving DecidableEq, Repr

/-- What is read, and the characters that are left. -/
abbrev Scan (α : Type) := Option (α × List Char)

def digit? (base : Nat) (c : Char) : Option Nat :=
  let n := c.toNat
  let value :=
    if c.isDigit then some (n - 0x30)
    else if 'a' ≤ c && c ≤ 'f' then some (n - 0x57)
    else if 'A' ≤ c && c ≤ 'F' then some (n - 0x37)
    else none
  value.filter (· < base)

def valueOf (base : Nat) (digits : List Char) : Nat :=
  digits.foldl (fun n c => n * base + (digit? base c).getD 0) 0

/-- Reads a number of at most the limit. A leading zero may be forbidden and the number of
digits bounded. -/
def readNumber (base limit : Nat) (maxDigits : Option Nat) (leadingZero : Bool) (cs : List Char) :
    Scan Nat :=
  let digits := cs.takeWhile fun c => (digit? base c).isSome
  let value := valueOf base digits
  let tooLong := match maxDigits with
    | some n => n < digits.length
    | none => false
  if digits.isEmpty || tooLong || (!leadingZero && digits.head? == some '0' && 1 < digits.length) ||
      limit < value then none
  else some (value, cs.drop digits.length)

def readChar (expected : Char) : List Char → Option (List Char)
  | [] => none
  | c :: rest => if c = expected then some rest else none

/-- Reads something that follows a separator, unless it comes first. -/
def afterSeparator (separator : Char) (index : Nat) (read : List Char → Scan α) (cs : List Char) :
    Scan α :=
  if index = 0 then read cs else (readChar separator cs).bind read

/-- Reads the rest of an address of version four, from a part on. -/
def readOctets : Nat → Nat → List Char → Scan (List Nat)
  | 0, _, cs => some ([], cs)
  | count + 1, index, cs =>
    match afterSeparator '.' index (readNumber 10 255 (some 3) false) cs with
    | none => none
    | some (octet, rest) =>
      (readOctets count (index + 1) rest).map fun r => (octet :: r.1, r.2)

def readV4 (cs : List Char) : Scan (List Nat) := readOctets 4 0 cs

def groupsOfOctets : List Nat → List Nat
  | a :: b :: rest => (a * 256 + b) :: groupsOfOctets rest
  | _ => []

/-- Reads groups as long as there are any, at most a number of them. An address of version four
takes the place of two groups and ends them; the answer says whether it did. -/
def readGroups : Nat → Nat → List Char → List Nat × Bool × List Char
  | 0, _, cs => ([], false, cs)
  | room + 1, index, cs =>
    match if room = 0 then none else afterSeparator ':' index readV4 cs with
    | some (octets, rest) => (groupsOfOctets octets, true, rest)
    | none =>
      match afterSeparator ':' index (readNumber 16 65535 (some 4) true) cs with
      | none => ([], false, cs)
      | some (group, rest) =>
        let (groups, embedded, after) := readGroups room (index + 1) rest
        (group :: groups, embedded, after)

def readV6 (cs : List Char) : Scan (List Nat) :=
  let (front, embedded, rest) := readGroups 8 0 cs
  if front.length = 8 then some (front, rest)
  else if embedded then none
  else
    match rest with
    | ':' :: ':' :: after =>
      let (back, _, after) := readGroups (7 - front.length) 0 after
      some (front ++ List.replicate (8 - front.length - back.length) 0 ++ back, after)
    | _ => none

def readPort (cs : List Char) : Scan Nat :=
  (readChar ':' cs).bind (readNumber 10 Text.limit16 none true)

/-- Reads the scope of an address, which is zero where none is given. -/
def readScope (cs : List Char) : Nat × List Char :=
  match (readChar '%' cs).bind (readNumber 10 Text.limit32 none true) with
  | some r => r
  | none => (0, cs)

namespace SocketAddress

def readWithV4 (cs : List Char) : Scan SocketAddress :=
  (readV4 cs).bind fun (octets, rest) =>
    (readPort rest).map fun (port, rest) => (.v4 octets port, rest)

def readWithV6 (cs : List Char) : Scan SocketAddress :=
  (readChar '[' cs).bind fun rest =>
    (readV6 rest).bind fun (groups, rest) =>
      let (scope, rest) := readScope rest
      (readChar ']' rest).bind fun rest =>
        (readPort rest).map fun (port, rest) => (.v6 groups scope port, rest)

def parse (text : String) : Except Text.LiteralFault SocketAddress :=
  match (readWithV4 text.toList).orElse fun _ => readWithV6 text.toList with
  | some (address, []) => .ok address
  | _ => .error .notSocketAddress

def octetsText (octets : List Nat) : String := ".".intercalate (octets.map toString)

def groupsText (groups : List Nat) : String :=
  ":".intercalate (groups.map fun g => String.ofList (Text.hexDigits g))

def zeros (groups : List Nat) : Nat := (groups.takeWhile (· = 0)).length

/-- Where the first of the longest runs of zeros starts, and its length, from an index on. -/
def longestZeros : Nat → List Nat → Nat × Nat
  | _, [] => (0, 0)
  | index, g :: rest =>
    let (start, length) := longestZeros (index + 1) rest
    let here := zeros (g :: rest)
    if length ≤ here && 0 < here then (index, here) else (start, length)

/-- Groups between colons, with the longest run of zero groups left out. -/
def compressed (groups : List Nat) : String :=
  let (start, length) := longestZeros 0 groups
  if 1 < length then
    groupsText (groups.take start) ++ "::" ++ groupsText (groups.drop (start + length))
  else groupsText groups

def v6Text (groups : List Nat) : String :=
  match groups with
  | [0, 0, 0, 0, 0, 0xffff, a, b] =>
    "::ffff:" ++ octetsText [a / 256, a % 256, b / 256, b % 256]
  | _ => compressed groups

def render : SocketAddress → String
  | v4 octets port => s!"{octetsText octets}:{port}"
  | v6 groups scope port =>
    let zone := if scope = 0 then "" else s!"%{scope}"
    s!"[{v6Text groups}{zone}]:{port}"

end SocketAddress
end WorkQueue.Net
