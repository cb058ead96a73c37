import WorkQueue.Net.Host

/-! # URLs

A URL is read as web browsers read it. Characters that break lines are dropped wherever they
stand. The special schemes have a host, take a backslash for a slash, and leave their usual
port out; a URL of another scheme may have no authority at all, and its path is then kept as
it is written.
-/
namespace WorkQueue.Net

/-- Who is asked, and where. -/
structure Authority where
  user : String := ""
  password : Option String := none
  host : Option Host := none
  port : Option Nat := none
  deriving DecidableEq, Repr

/-- A URL. Its parts are in their encoded form. -/
structure Url where
  scheme : String
  authority : Option Authority
  path : String
  query : Option String
  fragment : Option String
  deriving DecidableEq, Repr

namespace Url

/-- How the parts after a scheme are read. -/
inductive SchemeKind
  | special
  | file
  | other
  deriving DecidableEq, Repr

def kindOf (scheme : String) : SchemeKind :=
  if scheme ∈ ["http", "https", "ws", "wss", "ftp"] then .special
  else if scheme = "file" then .file
  else .other

def usualPort (scheme : String) : Option Nat :=
  match scheme with
  | "http" | "ws" => some 80
  | "https" | "wss" => some 443
  | "ftp" => some 21
  | _ => none

/-- Whether a character separates the parts of a path. -/
def isSlash (kind : SchemeKind) (c : Char) : Bool := c == '/' || (c == '\\' && kind != .other)

def endsAuthority (kind : SchemeKind) (c : Char) : Bool :=
  isSlash kind c || c == '?' || c == '#'

def splitScheme (cs : List Char) : Option (String × List Char) :=
  let name := cs.takeWhile fun c => c.isAlphanum || c ∈ ['+', '-', '.']
  match name, cs.drop name.length with
  | first :: _, ':' :: rest =>
    if first.isAlpha then some (String.ofList (name.map Char.toLower), rest) else none
  | _, _ => none

def splitUser (cs : List Char) : Option (List Char × List Char) :=
  let parts := Text.splitBy (· == '@') cs
  if parts.length < 2 then none
  else some (['@'].intercalate parts.dropLast, parts.getLastD [])

/-- The name and the password of a user. A password that is empty counts as none. -/
def readUser (cs : List Char) : String × Option String :=
  let encode (part : List Char) : String := String.ofList (percentEncode encodedInUser part)
  let name := cs.takeWhile (· != ':')
  match cs.drop name.length with
  | _ :: c :: rest => (encode name, some (encode (c :: rest)))
  | _ => (encode name, none)

/-- The characters of a host: what comes before a colon outside brackets. -/
def hostChars : Bool → List Char → List Char
  | _, [] => []
  | bracketed, c :: rest =>
    if c = ':' && !bracketed then []
    else c :: hostChars (if c = '[' then true else if c = ']' then false else bracketed) rest

/-- Reads a port after its colon. The usual port of the scheme counts as none. -/
def readPort (scheme : String) (cs : List Char) : Except UrlFault (Option Nat) :=
  let value := valueOf 10 cs
  if !cs.all Char.isDigit || Text.limit16 < value then .error .invalidPort
  else if cs = [] || usualPort scheme = some value then .ok none
  else .ok (some value)

def readHost (kind : SchemeKind) (cs : List Char) : Except UrlFault (Option Host) :=
  match kind with
  | .other => Host.parseOpaque cs
  | _ => if cs = [] then .error .emptyHost else (Host.parse cs).map some

/-- Reads an authority. What stands before a host needs one. -/
def readAuthority (scheme : String) (cs : List Char) : Except UrlFault Authority :=
  let (user, place) := match splitUser cs with
    | none => (none, cs)
    | some (front, rest) => (some front, rest)
  if user.isSome && place = [] then .error .emptyHost
  else
    let name := hostChars false place
    match readHost (kindOf scheme) name with
    | .error fault => .error fault
    | .ok host =>
      let portChars := place.drop name.length
      if host.isNone && (portChars != [] || (user.getD []) != []) then .error .emptyHost
      else
        let (userName, password) := readUser (user.getD [])
        (readPort scheme (portChars.drop 1)).map fun port => ⟨userName, password, host, port⟩

def isSingleDot (part : String) : Bool := part.toLower ∈ [".", "%2e"]

def isDoubleDot (part : String) : Bool := part.toLower ∈ ["..", ".%2e", "%2e.", "%2e%2e"]

/-- The parts of a path with the dots resolved, after some parts. -/
def resolve (done : List String) : List String → List String
  | [] => done
  | part :: rest =>
    let last := rest.isEmpty
    if isDoubleDot part then resolve (done.dropLast ++ (if last then [""] else [])) rest
    else if isSingleDot part then resolve (done ++ (if last then [""] else [])) rest
    else resolve (done ++ [part]) rest

/-- A path in its encoded form, each part after a slash. -/
def pathText (kind : SchemeKind) (cs : List Char) : String :=
  let parts := (Text.splitBy (isSlash kind) cs).map fun part =>
    String.ofList (percentEncode encodedInPath part)
  String.join ((resolve [] parts).map ("/" ++ ·))

/-- Reads a path. A path that does not begin with a slash is given one. -/
def readPath (kind : SchemeKind) (cs : List Char) : String :=
  match cs with
  | [] => if kind = .other then "" else "/"
  | c :: rest => if isSlash kind c then pathText kind rest else pathText kind (c :: rest)

/-- The path, the query and the fragment of what follows an authority. -/
structure Rest where
  path : List Char
  query : Option (List Char)
  fragment : Option (List Char)

def splitRest (cs : List Char) : Rest :=
  let before := cs.takeWhile (· != '#')
  let path := before.takeWhile (· != '?')
  let tail (cs : List Char) : Option (List Char) := match cs with
    | [] => none
    | _ :: rest => some rest
  ⟨path, tail (before.drop path.length), tail (cs.drop before.length)⟩

def ofParts (scheme : String) (authority : Option Authority) (path : String) (rest : Rest) : Url :=
  let inQuery (c : Char) : Bool :=
    encodedInQuery c || (c == '\x27' && kindOf scheme != .other)
  { scheme := scheme, authority := authority, path := path
    query := rest.query.map fun cs => String.ofList (percentEncode inQuery cs)
    fragment := rest.fragment.map fun cs => String.ofList (percentEncode encodedInFragment cs) }

/-- Reads what follows the slashes in front of an authority. -/
def afterSlashes (scheme : String) (cs : List Char) : Except UrlFault Url :=
  let kind := kindOf scheme
  let place := cs.takeWhile fun c => !endsAuthority kind c
  let rest := splitRest (cs.drop place.length)
  (readAuthority scheme place).map fun authority =>
    ofParts scheme (some authority) (readPath kind rest.path) rest

/-- Reads what follows the colon of a file. The host of this machine counts as none. -/
def readFile (cs : List Char) : Except UrlFault Url :=
  let slashes := (cs.takeWhile (isSlash .file)).length
  let cs := if slashes < 2 then cs else cs.drop 2
  let place := if slashes < 2 then [] else cs.takeWhile fun c => !endsAuthority .file c
  let rest := splitRest (cs.drop place.length)
  let file (host : Option Host) : Url :=
    ofParts "file" (some { host := host }) (readPath .file rest.path) rest
  if place = [] then .ok (file none)
  else (Host.parse place).map fun host =>
    file (if host = .domain "localhost" then none else some host)

/-- Reads what follows the colon of a scheme that is not special. -/
def readOther (scheme : String) (cs : List Char) : Except UrlFault Url :=
  match cs with
  | '/' :: '/' :: rest => afterSlashes scheme rest
  | _ =>
    let rest := splitRest cs
    let path := match rest.path with
      | '/' :: inner => pathText .other inner
      | path => String.ofList (percentEncode (fun _ => false) path)
    .ok (ofParts scheme none path rest)

/-- Whether a character at either end of a text is no part of a URL. -/
def isPadding (c : Char) : Bool := c.toNat ≤ 0x20

/-- Whether a character is dropped wherever it stands. -/
def isDropped (c : Char) : Bool := c == '\t' || c == '\n' || c == '\r'

/-- The characters of a URL without those around it and without line breaks. -/
def significant (cs : List Char) : List Char :=
  (((cs.dropWhile isPadding).reverse.dropWhile isPadding).reverse).filter fun c => !isDropped c

def parse (text : String) : Except UrlFault Url :=
  match splitScheme (significant text.toList) with
  | none => .error .relative
  | some (scheme, rest) =>
    match kindOf scheme with
    | .special => afterSlashes scheme (rest.dropWhile (isSlash .special))
    | .file => readFile rest
    | .other => readOther scheme rest

def host (url : Url) : Option Host := url.authority.bind Authority.host

/-- The URL without the name and the password of a user. -/
def withoutUser (url : Url) : Url :=
  { url with authority := url.authority.map fun a => { a with user := "", password := none } }

def authorityText (a : Authority) : String :=
  let password := match a.password with
    | none => ""
    | some p => ":" ++ p
  let user := if a.user = "" ∧ a.password = none then "" else a.user ++ password ++ "@"
  let port := match a.port with
    | none => ""
    | some n => s!":{n}"
  user ++ (match a.host with
    | none => ""
    | some h => h.render) ++ port

def render (url : Url) : String :=
  let after (mark : String) (part : Option String) : String := match part with
    | none => ""
    | some s => mark ++ s
  let authority := match url.authority with
    | none => ""
    | some a => "//" ++ authorityText a
  url.scheme ++ ":" ++ authority ++ url.path ++ after "?" url.query ++ after "#" url.fragment

end Url
end WorkQueue.Net
