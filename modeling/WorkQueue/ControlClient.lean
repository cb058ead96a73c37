import WorkQueue.Failure
import WorkQueue.Net.Url
import WorkQueue.Replica.States

/-! # The client of the control surface

A call is a request to a URL below the address of a replica. What comes back is a report of
the states of all replicas, unless the address is no URL that a request can be sent to, no
answer comes, the answer's status is that of an error, or its body is no report.
-/
namespace WorkQueue

/-- What a replica can be asked to do. -/
inductive ControlCall
  | start
  | stop
  | status
  deriving DecidableEq, Repr

namespace ControlCall

/-- The name of a call, which its path ends in. -/
def name : ControlCall → String
  | start => "start"
  | stop => "stop"
  | status => "status"

/-- A call that changes the processor is put, and one that does not is got. -/
def method : ControlCall → String
  | start | stop => "PUT"
  | status => "GET"

end ControlCall

structure ControlRequest where
  method : String
  url : Net.Url
  deriving Repr

/-- What comes back for a request: an answer, or the reason why there is none. -/
inductive ControlReply
  | answered (status : Nat) (phrase body : String)
  | unreachable (fault : NetworkFault)
  deriving DecidableEq, Repr

namespace ControlClient

def withoutSlashes (base : String) : String :=
  String.ofList (base.toList.reverse.dropWhile (· == '/')).reverse

def address (base : String) (call : ControlCall) : String :=
  withoutSlashes base ++ "/processor/" ++ call.name

def request (base : String) (call : ControlCall) : Except HttpFault ControlRequest :=
  match Net.Url.parse (address base call) with
  | .error fault => .error (.invalidUrl fault)
  | .ok url =>
    if url.host.isNone then .error (.schemeNotAllowed url.render)
    else
      let shown := url.withoutUser
      if url.scheme = "http" ∨ url.scheme = "https" then .ok ⟨call.method, shown⟩
      else .error (.schemeNotAllowed shown.render)

def report (body : String) : Except HttpFault ReplicaStates :=
  (Json.parseAs ReplicaStates.read body).mapError .undecodable

def interpret (sent : ControlRequest) (reply : ControlReply) : Except HttpFault ReplicaStates :=
  let url := sent.url.render
  match reply with
  | .unreachable fault => .error (.unreachable url fault)
  | .answered status phrase body =>
    let shown := s!"{status} {phrase}"
    if 400 ≤ status ∧ status < 500 then .error (.clientStatus url shown)
    else if 500 ≤ status ∧ status < 600 then .error (.serverStatus url shown)
    else report body

/-- Makes a call through what sends a request and waits for its reply. -/
def call (send : ControlRequest → ControlReply) (base : String) (call : ControlCall) :
    Except Failure ReplicaStates :=
  let outcome : Except HttpFault ReplicaStates := do
    let sent ← request base call
    interpret sent (send sent)
  outcome.mapError .http

end ControlClient
end WorkQueue
