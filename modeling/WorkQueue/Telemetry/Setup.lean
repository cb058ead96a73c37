import WorkQueue.Failure
import WorkQueue.Http.Target

/-! # Setting telemetry up

Everything is logged where the process writes. With an endpoint, spans, metrics and logs are
exported there as well, so the endpoint has to be a target that requests can be sent to. A
process sets its telemetry up once.
-/
namespace WorkQueue.Telemetry

/-- Why telemetry is not set up. -/
inductive SetupFault
  | badEndpoint (endpoint : String) (fault : Http.TargetFault)
  | setUpBefore
  deriving DecidableEq, Repr

def SetupFault.message : SetupFault → String
  | .badEndpoint endpoint fault =>
    s!"failed to create OTLP span exporter: invalid URI {endpoint}. Reason {fault.message}"
  | .setUpBefore =>
    "failed to init tracing subscriber: a global default trace dispatcher has already been set"

/-- Checks an endpoint. An empty one stands for the usual collector of this machine. -/
def checkEndpoint (endpoint : String) : Except SetupFault Unit :=
  if endpoint = "" then .ok ()
  else
    match Http.Target.parse endpoint with
    | .ok _ => .ok ()
    | .error fault => .error (.badEndpoint endpoint fault)

/-- Sets telemetry up in a process that may have it already. -/
def setUp (already : Bool) (endpoint : Option String) : Except Failure Unit :=
  let outcome : Except SetupFault Unit := do
    endpoint.forM checkEndpoint
    if already then throw .setUpBefore
  outcome.mapError fun fault => .other fault.message

end WorkQueue.Telemetry
