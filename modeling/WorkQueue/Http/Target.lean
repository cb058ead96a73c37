/-! # Request targets

A request names its target by a path, or absolutely by a scheme, an authority and a path. A
target is checked character by character; what is beyond ASCII may stand in a path or a query
only. The path is kept as it is written, and the query and the fragment are dropped.
-/
namespace WorkQueue.Http

inductive TargetFault
  | empty
  | tooLong
  | badCharacter
  | badAuthority
  | badFormat
  | schemeTooLong
  deriving DecidableEq, Repr

def TargetFault.message : TargetFault → String
  | .empty => "empty string"
  | .tooLong => "uri too long"
  | .badCharacter => "invalid uri character"
  | .badAuthority => "invalid authority"
  | .badFormat => "invalid format"
  | .schemeTooLong => "scheme too long"

structure Target where
  scheme : Option String
  authority : String
  path : String
  deriving DecidableEq, Repr

namespace Target

def maxBytes : Nat := 65534

def maxScheme : Nat := 64

/-- The greatest number of colons within an address in brackets. -/
def maxColons : Nat := 8

def isSchemeChar (c : Char) : Bool := c.isAlphanum || c ∈ ['+', '-', '.', '~']

def isAuthorityChar (c : Char) : Bool :=
  c.isAlphanum ||
    c ∈ ['!', '$', '&', '\x27', '(', ')', '*', '+', ',', '-', '.', ';', '=', '_', '~']

def isPathChar (c : Char) : Bool := '!' ≤ c && c ∉ ['#', '<', '>', '?', '\x60']

def isQueryChar (c : Char) : Bool := '!' ≤ c && c ∉ ['"', '#', '<', '>']

def endsAuthority (c : Char) : Bool := c ∈ ['/', '?', '#']

/-- What is known of an authority after some of its characters. A user's name with its colon
and its percent signs is forgotten at the sign that ends it, and so is what stands between
brackets at their end. -/
structure AuthorityScan where
  colons : Nat := 0
  opened : Bool := false
  closed : Bool := false
  percent : Bool := false
  afterAt : Bool := false

def AuthorityScan.step (s : AuthorityScan) (c : Char) : Except TargetFault AuthorityScan :=
  let s := { s with afterAt := false }
  if c = ':' then
    if s.colons < maxColons then .ok { s with colons := s.colons + 1 } else .error .badAuthority
  else if c = '[' then
    if s.percent || s.opened then .error .badAuthority else .ok { s with opened := true }
  else if c = ']' then
    if !s.opened || s.closed then .error .badAuthority
    else .ok { s with closed := true, colons := 0, percent := false }
  else if c = '@' then .ok { s with colons := 0, percent := false, afterAt := true }
  else if c = '%' then .ok { s with percent := true }
  else if isAuthorityChar c then .ok s
  else .error .badCharacter

def splitAuthority (cs : List Char) : Except TargetFault (List Char × List Char) :=
  let authority := cs.takeWhile fun c => !endsAuthority c
  match authority.foldlM AuthorityScan.step {} with
  | .error fault => .error fault
  | .ok s =>
    if s.opened != s.closed || 1 < s.colons || s.afterAt || s.percent then .error .badAuthority
    else .ok (authority, cs.dropWhile fun c => !endsAuthority c)

def checkPath (cs : List Char) : Except TargetFault (List Char) :=
  let path := cs.takeWhile fun c => c != '?' && c != '#'
  let query := match cs.drop path.length with
    | '?' :: rest => rest.takeWhile fun c => c != '#'
    | _ => []
  if path.all isPathChar && query.all isQueryChar then .ok path else .error .badCharacter

def splitScheme (cs : List Char) : Except TargetFault (Option (List Char) × List Char) :=
  let scheme := cs.takeWhile isSchemeChar
  match cs.drop scheme.length with
  | ':' :: '/' :: '/' :: rest =>
    if maxScheme < scheme.length then .error .schemeTooLong
    else if cs.length ≤ 3 then .ok (none, cs)
    else .ok (some scheme, rest)
  | _ => .ok (none, cs)

/-- The target with a scheme in front, or one that is an authority alone. -/
def ofFull (cs : List Char) : Except TargetFault Target :=
  match splitScheme cs with
  | .error fault => .error fault
  | .ok (scheme, rest) =>
    match splitAuthority rest with
    | .error fault => .error fault
    | .ok (authority, after) =>
      match scheme with
      | none =>
        if after = [] then .ok ⟨none, String.ofList authority, ""⟩ else .error .badFormat
      | some name =>
        if authority = [] then .error .badFormat
        else (checkPath after).map fun path =>
          { scheme := some (String.ofList name), authority := String.ofList authority
            path := if path = [] then "/" else String.ofList path }

/-- Reads a single character: a path, the asterisk, or an authority. -/
def ofSingle (c : Char) : Except TargetFault Target :=
  if c = '/' || c = '*' then .ok ⟨none, "", String.ofList [c]⟩
  else if endsAuthority c then .error .badCharacter
  else (splitAuthority [c]).map fun _ => ⟨none, String.ofList [c], ""⟩

def parse (text : String) : Except TargetFault Target :=
  if maxBytes < text.utf8ByteSize then .error .tooLong
  else
    match text.toList with
    | [] => .error .empty
    | [c] => ofSingle c
    | '/' :: rest => (checkPath ('/' :: rest)).map fun path => ⟨none, "", String.ofList path⟩
    | cs => ofFull cs

end Target
end WorkQueue.Http
