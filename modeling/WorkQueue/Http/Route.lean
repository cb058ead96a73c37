import WorkQueue.Http.Message

/-! # The routes of the control surface

A path is compared as it is written. A path that is served answers other methods with the
methods it serves.
-/
namespace WorkQueue.Http

inductive Route
  | stop
  | start
  | status
  | health
  deriving DecidableEq, Repr

namespace Route

def ofPath? (path : String) : Option Route :=
  match path with
  | "/processor/stop" => some .stop
  | "/processor/start" => some .start
  | "/processor/status" => some .status
  | "/health" => some .health
  | _ => none

/-- Whether the route changes the processor, and so is put rather than got. -/
def changes : Route → Bool
  | .stop | .start => true
  | .status | .health => false

/-- The methods that the route serves. -/
def allowed (route : Route) : String := if route.changes then "PUT" else "GET,HEAD"

def serves (route : Route) (method : String) : Bool :=
  if route.changes then method == "PUT" else method == "GET" || method == "HEAD"

end Route

def Request.route (r : Request) : Except Response Route :=
  match Route.ofPath? r.target.path with
  | none => .error .notFound
  | some route =>
    if route.serves r.method then .ok route else .error (.methodNotAllowed route.allowed)

/-- The response as the request sees it: a request for the headers sees no body. -/
def Request.shown (r : Request) (response : Response) : Response :=
  if r.method == "HEAD" then response.withoutBody else response

end WorkQueue.Http
