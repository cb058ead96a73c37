import WorkQueue.Failure
import WorkQueue.Net.Query
import WorkQueue.Net.Url

/-! # Addresses of databases

A database is named by a URL. Its query may set what the parts before it leave open or say
otherwise; what neither of them says is left to what connects. The first part that is not
understood decides the error.
-/
namespace WorkQueue.Database

/-- What to connect to: a host, or a socket in the file system. -/
inductive Place
  | host (name : String)
  | socket (path : String)
  deriving DecidableEq, Repr

inductive Security
  | disable
  | allow
  | prefer
  | require
  | verifyAuthority
  | verifyFull
  deriving DecidableEq, Repr

/-- Where a database is, and how to be let in. -/
structure Address where
  place : Option Place := none
  port : Option Nat := none
  user : Option String := none
  password : Option String := none
  database : Option String := none
  security : Option Security := none
  keptStatements : Option Nat := none
  others : List (String × String) := []
  deriving DecidableEq, Repr

def Security.parse (name : String) : Except AddressFault Security :=
  match name.map Char.toLower with
  | "disable" => .ok .disable
  | "allow" => .ok .allow
  | "prefer" => .ok .prefer
  | "require" => .ok .require
  | "verify-ca" => .ok .verifyAuthority
  | "verify-full" => .ok .verifyFull
  | _ => .error (.unknownSecurity name)

namespace Address

/-- The place of a name. A path begins with a slash. -/
def placeOf (name : String) : Place :=
  if name.toList.head? = some '/' then .socket name else .host name

def decoded (part : String) : Except AddressFault String :=
  (Text.ofUtf8 (Net.percentDecode part.toList)).mapError .notUtf8

/-- The text of an encoded part, unless it is empty. -/
def decodedUnlessEmpty (part : String) : Except AddressFault (Option String) :=
  if part = "" then .ok none else (decoded part).map some

/-- The place of a host. A host that is an encoded path is decoded, any other is kept. -/
def placeOfHost (name : String) : Except AddressFault Place :=
  if (Net.percentDecode name.toList).head? = some 0x2F then (decoded name).map placeOf
  else .ok (.host name)

def number (limit : Nat) (value : String) : Except AddressFault Nat :=
  (Text.natural limit value).mapError .literal

/-- Whether a text is an address of either version. -/
def isNetAddress (text : String) : Bool :=
  match (Net.readV4 text.toList).orElse fun _ => Net.readV6 text.toList with
  | some (_, []) => true
  | _ => false

def withParameter (a : Address) (name value : String) : Except AddressFault Address :=
  match name with
  | "sslmode" | "ssl-mode" => (Security.parse value).map fun s => { a with security := some s }
  | "statement-cache-capacity" =>
    (number Text.limit64 value).map fun n => { a with keptStatements := some n }
  | "host" => .ok { a with place := some (placeOf value) }
  | "hostaddr" =>
    if isNetAddress value then .ok { a with place := some (.host value) }
    else .error (.literal .notNetAddress)
  | "port" => (number Text.limit16 value).map fun n => { a with port := some n }
  | "dbname" => .ok { a with database := some value }
  | "user" => .ok { a with user := some value }
  | "password" => .ok { a with password := some value }
  | _ => .ok { a with others := a.others ++ [(name, value)] }

def ofUrl (url : Net.Url) : Except AddressFault Address := do
  let authority := url.authority.getD {}
  let place ← authority.host.mapM fun host => placeOfHost host.render
  let user ← decodedUnlessEmpty authority.user
  let password ← authority.password.mapM decoded
  let database ← decodedUnlessEmpty (String.ofList (url.path.toList.dropWhile (· == '/')))
  let address : Address :=
    { place := place, port := authority.port, user := user, password := password
      database := database }
  (Net.queryPairs (url.query.getD "")).foldlM (fun a p => withParameter a p.1 p.2) address

def parse (text : String) : Except AddressFault Address :=
  match Net.Url.parse text with
  | .error fault => .error (.notUrl fault)
  | .ok url => ofUrl url

end Address
end WorkQueue.Database
