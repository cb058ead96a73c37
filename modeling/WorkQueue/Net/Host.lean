import WorkQueue.Net.Percent
import WorkQueue.Net.Punycode
import WorkQueue.Text.Split

/-! # Hosts

The host of a special scheme is an address of version six in brackets, one of version four in
any of its old spellings, or a domain. A name whose last label is a number has to be an
address. The host of any other scheme is kept as it is written.
-/
namespace WorkQueue.Net

inductive UrlFault
  | relative
  | emptyHost
  | invalidDomain
  | invalidHostCharacter
  | invalidAddress4
  | invalidAddress6
  | invalidPort
  deriving DecidableEq, Repr

def UrlFault.message : UrlFault → String
  | .relative => "relative URL without a base"
  | .emptyHost => "empty host"
  | .invalidDomain => "invalid international domain name"
  | .invalidHostCharacter => "invalid domain character"
  | .invalidAddress4 => "invalid IPv4 address"
  | .invalidAddress6 => "invalid IPv6 address"
  | .invalidPort => "invalid port number"

/-- A host that is not empty. -/
inductive Host
  | domain (name : String)
  | v4 (octets : List Nat)
  | v6 (groups : List Nat)
  deriving DecidableEq, Repr

namespace Host

def render : Host → String
  | domain name => name
  | v4 octets => SocketAddress.octetsText octets
  | v6 groups => "[" ++ SocketAddress.compressed groups ++ "]"

/-- The number that a part of an address denotes, in base 16, 8 or 10. -/
def addressPart? (cs : List Char) : Option Nat :=
  let number (base : Nat) (digits : List Char) : Option Nat :=
    if digits.all fun c => (digit? base c).isSome then some (valueOf base digits) else none
  match cs with
  | [] => none
  | '0' :: 'x' :: digits => number 16 digits
  | '0' :: 'X' :: digits => number 16 digits
  | '0' :: d :: digits => number 8 (d :: digits)
  | digits => number 10 digits

/-- The labels of a name, less the empty one after a last dot. -/
def labels (cs : List Char) : List (List Char) :=
  let parts := Text.splitBy (· == '.') cs
  if 1 < parts.length && parts.getLast? == some [] then parts.dropLast else parts

/-- Whether the last label of a name is a number. -/
def endsInNumber (cs : List Char) : Bool :=
  match (labels cs).getLast? with
  | some last => (!last.isEmpty && last.all Char.isDigit) || (addressPart? last).isSome
  | none => false

/-- The octets of a number, a given count of them. -/
def octetsOf : Nat → Nat → List Nat
  | 0, _ => []
  | count + 1, n => n / Nat.pow 256 count % 256 :: octetsOf count n

/-- Reads an address of version four. Its last part stands for all octets that are left. -/
def parse4 (cs : List Char) : Except UrlFault Host :=
  match ((labels cs).mapM addressPart?).map fun parts => (parts.dropLast, parts.getLast?) with
  | some (front, some last) =>
    let room := 4 - front.length
    if front.length ≤ 3 ∧ (∀ n ∈ front, n ≤ 255) ∧ last < Nat.pow 256 room then
      .ok (.v4 (front ++ octetsOf room last))
    else .error .invalidAddress4
  | _ => .error .invalidAddress4

/-- Reads an address of version six between its brackets. -/
def parse6 (cs : List Char) : Except UrlFault Host :=
  match readV6 cs with
  | some (groups, []) => .ok (.v6 groups)
  | _ => .error .invalidAddress6

/-- Reads what is in brackets. -/
def parseBracketed (cs : List Char) : Except UrlFault Host :=
  if cs.getLast? = some ']' then parse6 (cs.drop 1).dropLast else .error .invalidAddress6

def isForbidden (c : Char) : Bool :=
  c.toNat ≤ 0x20 || c.toNat == 0x7F ||
    c ∈ ['#', '%', '/', ':', '<', '>', '?', '@', '[', '\\', ']', '^', '|']

/-- The domain that a text names, in small letters and in ASCII. -/
def domainOf (cs : List Char) : Except UrlFault (List Char) :=
  match String.fromUTF8? ⟨(percentDecode cs).toArray⟩ with
  | none => .error .invalidDomain
  | some name =>
    let small := name.toList.map Char.toLower
    if small.any isForbidden then .error .invalidDomain
    else .ok (['.'].intercalate ((Text.splitBy (· == '.') small).map Punycode.label))

def parse (cs : List Char) : Except UrlFault Host :=
  if cs.head? = some '[' then parseBracketed cs
  else
    match domainOf cs with
    | .error fault => .error fault
    | .ok [] => .error .emptyHost
    | .ok name =>
      if endsInNumber name then parse4 name else .ok (.domain (String.ofList name))

def isForbiddenOpaque (c : Char) : Bool :=
  c ∈ ['\x00', '\t', '\n', '\r', ' ', '#', '/', ':', '<', '>', '?', '@', '[', '\\', ']', '^', '|']

/-- Reads the host of another scheme, which may be empty. -/
def parseOpaque (cs : List Char) : Except UrlFault (Option Host) :=
  if cs = [] then .ok none
  else if cs.head? = some '[' then (parseBracketed cs).map some
  else if cs.any isForbiddenOpaque then .error .invalidHostCharacter
  else .ok (some (.domain (String.ofList (percentEncode (fun _ => false) cs))))

end Host
end WorkQueue.Net
