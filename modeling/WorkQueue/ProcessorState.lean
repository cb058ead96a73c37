import WorkQueue.Failure
import WorkQueue.Json.Typed

/-! # States of a processor

A replica works, finishes its current work item, or is stopped.
-/
namespace WorkQueue

/-- Whether a replica takes work items. -/
inductive ProcessorState
  | working
  | stopping
  | stopped
  deriving DecidableEq, Repr, Inhabited

namespace ProcessorState

def name : ProcessorState → String
  | .working => "Working"
  | .stopping => "Stopping"
  | .stopped => "Stopped"

/-- The state of a processor before anything has happened. -/
def initial (workOnStartup : Bool) : ProcessorState :=
  if workOnStartup then .working else .stopped

/-- All states, in the order in which messages list them. -/
def all : List ProcessorState := [.working, .stopping, .stopped]

def ofName? (s : String) : Option ProcessorState := all.find? fun state => state.name == s

def parse (s : String) : Except Failure ProcessorState :=
  match ofName? s with
  | some state => .ok state
  | none => .error (.other s!"unknown processor state '{s}'")

/-- Interprets the name of a state inside a document. -/
def ofVariant (s : String) : Except Json.Mismatch ProcessorState :=
  match ofName? s with
  | some state => .ok state
  | none => .error (.unknownVariant s (all.map name))

/-- Reads a state inside a document. -/
def read (cs : List Char) : Json.Reading ProcessorState := Json.readVariant ofVariant cs

def toJson (state : ProcessorState) : Json.Value := .string state.name

theorem ofName?_name (state : ProcessorState) : ofName? state.name = some state := by
  cases state <;> decide

end ProcessorState
end WorkQueue
