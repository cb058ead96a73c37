import WorkQueue.Queue.InMemory

/-! # Queues whose calls may fail

A plan says which of the calls of each operation fail, and how. A call that fails does not
reach the queue.
-/
namespace WorkQueue

/-- The failure of the nth call of each operation, if it is to fail; calls count from one. -/
structure FaultPlan where
  send : Nat → Option Failure := fun _ => none
  receive : Nat → Option Failure := fun _ => none
  delete : Nat → Option Failure := fun _ => none

/-- The plan by which every call reaches the queue. -/
def FaultPlan.none : FaultPlan := {}

/-- A queue store with the calls counted that were made so far. -/
structure UnreliableQueue where
  store : QueueStore := {}
  plan : FaultPlan := .none
  sends : Nat := 0
  receives : Nat := 0
  deletes : Nat := 0

namespace UnreliableQueue

def send (q : UnreliableQueue) (now : Moment) (queue body : String) (delay : Duration) :
    UnreliableQueue × Except Failure Receipt :=
  let q := { q with sends := q.sends + 1 }
  match q.plan.send q.sends with
  | some failure => (q, .error failure)
  | none =>
    let (store, answer) := q.store.send now queue body delay
    ({ q with store := store }, answer)

def receive (q : UnreliableQueue) (now : Moment) (queue : String) (window : Duration) :
    UnreliableQueue × Except Failure (Option Delivery) :=
  let q := { q with receives := q.receives + 1 }
  match q.plan.receive q.receives with
  | some failure => (q, .error failure)
  | none =>
    let (store, answer) := q.store.receive now queue window
    ({ q with store := store }, answer)

def delete (q : UnreliableQueue) (queue : String) (id : Int) :
    UnreliableQueue × Except Failure Unit :=
  let q := { q with deletes := q.deletes + 1 }
  match q.plan.delete q.deletes with
  | some failure => (q, .error failure)
  | none =>
    let (store, answer) := q.store.delete queue id
    ({ q with store := store }, answer)

end UnreliableQueue
end WorkQueue
