import WorkQueue.Http.Target
import WorkQueue.Json.Printer

/-! # Requests and responses

A request is checked when it is made: its method has to be a token and its target has to
parse. A response is shown by its status, the headers that the service sets, and its body.
-/
namespace WorkQueue.Http

/-- Whether a character may stand in a method. -/
def isTokenChar (c : Char) : Bool :=
  c.isAlphanum ||
    c ∈ ['!', '#', '$', '%', '&', '\x27', '*', '+', '-', '.', '^', '_', '\x60', '|', '~']

/-- A request that was made. Its body is never read. -/
structure Request where
  method : String
  target : Target
  deriving DecidableEq, Repr

def Request.make? (method path : String) : Option Request :=
  if method.isEmpty || !method.toList.all isTokenChar then none
  else
    match Target.parse path with
    | .ok target => some ⟨method, target⟩
    | .error _ => none

structure Response where
  status : Nat
  allow : Option String := none
  contentType : Option String := none
  body : String := ""
  deriving DecidableEq, Repr

namespace Response

def json (status : Nat) (v : Json.Value) : Response :=
  { status := status, contentType := some "application/json", body := v.render }

def error (status : Nat) (message : String) : Response :=
  json status (.object [("error", .string message)])

def notFound : Response := { status := 404 }

def methodNotAllowed (allow : String) : Response := { status := 405, allow := some allow }

/-- The response as a request for its headers alone sees it. -/
def withoutBody (r : Response) : Response := { r with body := "" }

end Response
end WorkQueue.Http
