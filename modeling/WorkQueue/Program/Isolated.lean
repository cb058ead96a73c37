import WorkQueue.Program.Run

/-! # Running on a machine of its own

A machine that has no network reaches nothing: a name of another machine cannot be looked up,
no address has a way that leads to it, nothing listens in the file system, and there is no
address to listen at.
-/
namespace WorkQueue.Program.Isolated

def isKnown (host : String) : Bool :=
  host = "localhost" || Database.Address.isNetAddress
    (String.ofList (host.toList.filter fun c => c != '[' && c != ']'))

def hostFault (host : String) : NetworkFault :=
  if isKnown host then .connect "Network is unreachable (os error 101)"
  else .lookup "Temporary failure in name resolution"

/-- Nothing answers a request. -/
def send (request : ControlRequest) : ControlReply :=
  .unreachable (hostFault ((request.url.host.map Net.Host.render).getD ""))

/-- Why a database is not reached. One without a place is taken to be on this machine. -/
def placeFault (address : Database.Address) : NetworkFault :=
  match address.place.getD (.host "localhost") with
  | .host name => hostFault name
  | .socket _ => .connect "No such file or directory (os error 2)"

/-- The surroundings of a run on such a machine. -/
def surroundings (lookup : Settings.Lookup) (freshId : String) : Surroundings :=
  { lookup := lookup
    send := send
    reachDatabase := fun address => .error (placeFault address)
    listen := fun _ => .error "Cannot assign requested address (os error 99)"
    freshId := freshId }

end WorkQueue.Program.Isolated
