import WorkQueue.WorkItem

/-! # The registry of work item types

A registration says which type it serves and how a work item of that type is decoded. A
registry is built once, from registrations made one after the other. The first registration of
a type is kept, and any other is noted and refused when the registry is built; after that a
type finds exactly the registration made for it.
-/
namespace WorkQueue

/-- The type that a registration serves, and how its work items are decoded. A work item that
does not decode will never do so, and its failure says that. -/
structure Registration (ι : Type) where
  workItemType : String
  decode : WorkItem → Except Failure ι
  decode_error : ∀ {item failure}, decode item = .error failure →
    ∃ text, failure = .nonRetriable text

/-- Registrations of distinct types. -/
structure Registry (ι : Type) where
  registrations : List (Registration ι)
  distinct : (registrations.map Registration.workItemType).Nodup

namespace Registry

/-- The registered types, in the order of their registrations. -/
def served (r : Registry ι) : List String := r.registrations.map Registration.workItemType

/-- Adds a registration of a type that is not served yet. -/
def add (r : Registry ι) (entry : Registration ι) (fresh : entry.workItemType ∉ r.served) :
    Registry ι where
  registrations := r.registrations ++ [entry]
  distinct := by
    rw [List.map_append, List.nodup_append]
    refine ⟨r.distinct, List.pairwise_singleton .., fun a ha b hb => ?_⟩
    rw [List.map_singleton, List.mem_singleton] at hb
    exact fun same => fresh (hb ▸ same ▸ ha)

/-- What has been registered so far: a registry of the first registration of each type, and the
types of all other registrations, in order. -/
structure Builder (ι : Type) where
  registry : Registry ι := ⟨[], .nil⟩
  refused : List String := []

namespace Builder

def register (b : Builder ι) (entry : Registration ι) : Builder ι :=
  if h : entry.workItemType ∈ b.registry.served then
    { b with refused := b.refused ++ [entry.workItemType] }
  else { b with registry := b.registry.add entry h }

def build (b : Builder ι) : Except Failure (Registry ι) :=
  if b.refused = [] then .ok b.registry else .error (.config (.registeredTwice b.refused))

end Builder

/-- Builds a registry from registrations made in turn, or reports every one of a type that was
already served. -/
def build (registrations : List (Registration ι)) : Except Failure (Registry ι) :=
  (registrations.foldl Builder.register {}).build

def find? (r : Registry ι) (workItemType : String) : Option (Registration ι) :=
  r.registrations.find? fun entry => entry.workItemType == workItemType

/-- The registration of a type, or the failure that names the type. -/
def resolve (r : Registry ι) (workItemType : String) : Except Failure (Registration ι) :=
  match r.find? workItemType with
  | some entry => .ok entry
  | none => .error (.unregistered workItemType)

/-- Resolves a type and calls the factory of its registration, which makes something and may
change a state on the way. -/
def make (r : Registry ι) (factory : Registration ι → σ → π × σ) (workItemType : String) (s : σ) :
    Except Failure π × σ :=
  match r.resolve workItemType with
  | .ok entry =>
    let (made, s) := factory entry s
    (.ok made, s)
  | .error failure => (.error failure, s)

/-- The registered types, in ascending order. -/
def workItemTypes (r : Registry ι) : List String :=
  r.served.mergeSort fun a b => decide (a ≤ b)

/-- How diagnostics show a registry. -/
def describe (r : Registry ι) : String :=
  "ProcessorRegistry \x7b work_item_types: " ++ Text.quotedList r.workItemTypes ++ " \x7d"

end Registry
end WorkQueue
