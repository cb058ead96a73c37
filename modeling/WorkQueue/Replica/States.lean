import WorkQueue.NameMap
import WorkQueue.ProcessorState

/-! # The states of all replicas

Each replica records its state in a shared store. A report maps the names of replicas to
their states; a replica that reports puts its live state in place of what the store says of
it.
-/
namespace WorkQueue

abbrev ReplicaStates := NameMap ProcessorState

namespace ReplicaStates

def toJson (states : ReplicaStates) : Json.Value :=
  .object (states.map fun e => (e.1, e.2.toJson))

/-- Reads a report. A name that occurs twice has the state written last. -/
def read (cs : List Char) : Json.Reading ReplicaStates :=
  (Json.readMap ProcessorState.read cs).map fun r => (NameMap.ofBindings r.1, r.2)

end ReplicaStates

/-- The store that replicas record their states in. It may refuse to be written or read, each
with a failure of its own. -/
structure StateStore where
  recorded : ReplicaStates := []
  rejectsWrites : Bool := false
  rejectsReads : Bool := false
  writeFault : Failure := .other "store rejects writes"
  readFault : Failure := .other "store rejects reads"
  deriving Repr

namespace StateStore

def record (s : StateStore) (replica : String) (state : ProcessorState) :
    StateStore × Except Failure Unit :=
  if s.rejectsWrites then (s, .error s.writeFault)
  else ({ s with recorded := NameMap.insert replica state s.recorded }, .ok ())

def states (s : StateStore) : Except Failure ReplicaStates :=
  if s.rejectsReads then .error s.readFault else .ok s.recorded

/-- The recorded states with the live state of one replica over them. -/
def report (s : StateStore) (replica : String) (live : ProcessorState) :
    Except Failure ReplicaStates :=
  s.states.map (NameMap.insert replica live)

end StateStore
end WorkQueue
