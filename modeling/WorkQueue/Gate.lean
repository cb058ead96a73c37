import WorkQueue.ProcessorState

/-! # The gate in front of the work

At most one work item runs at a time. A call that wants to begin one waits at the gate for a
wake-up and then looks whether the processor works and nothing is in flight; if not, it goes
to the back. The gate stores at most one wake-up when nobody waits, and a call that holds a
wake-up and leaves hands it on. Being woken and running are separate: a call that has been
woken may run at any later time.
-/
namespace WorkQueue

/-- The gate and the calls at it. -/
structure Gate (ι : Type) where
  state : ProcessorState
  inFlight : Bool := false
  stored : Bool := false
  waiting : List ι := []
  woken : List ι := []
  published : ProcessorState
  version : Nat := 0
  deriving Repr

/-- What an operation on the gate reports. -/
inductive GateNotice
  | changed (before after : ProcessorState)
  | startIgnored
  deriving DecidableEq, Repr

/-- How a call at the gate stands after it has run. -/
inductive Answer
  | pending
  | granted
  | refused
  deriving DecidableEq, Repr

namespace Gate

/-- A gate that is open from the start, with a wake-up stored, or closed. -/
def new (ι : Type) (workOnStartup : Bool) : Gate ι :=
  let state := if workOnStartup then .working else .stopped
  { state := state, stored := workOnStartup, published := state }

/-- Wakes the call that has waited longest, or stores the wake-up. -/
def wake (g : Gate ι) : Gate ι :=
  match g.waiting with
  | [] => { g with stored := true }
  | i :: rest => { g with waiting := rest, woken := g.woken ++ [i] }

@[simp] theorem wake_state (g : Gate ι) : g.wake.state = g.state := by
  unfold wake
  split <;> rfl

@[simp] theorem wake_inFlight (g : Gate ι) : g.wake.inFlight = g.inFlight := by
  unfold wake
  split <;> rfl

/-- Enters a state and publishes it. -/
def moveTo (g : Gate ι) (state : ProcessorState) : Gate ι :=
  { g with state := state, published := state, version := g.version + 1 }

@[simp] theorem moveTo_state (g : Gate ι) (state : ProcessorState) :
    (g.moveTo state).state = state := rfl
@[simp] theorem moveTo_inFlight (g : Gate ι) (state : ProcessorState) :
    (g.moveTo state).inFlight = g.inFlight := rfl

/-- Resumes work. This acts only on a stopped processor; while the current work item is
being finished the request is ignored. -/
def start (g : Gate ι) : Gate ι × List GateNotice :=
  match g.state with
  | .stopped => ((g.moveTo .working).wake, [.changed .stopped .working])
  | .stopping => (g, [.startIgnored])
  | .working => (g, [])

theorem start_state (g : Gate ι) :
    g.start.1.state = if g.state = .stopped then .working else g.state := by
  unfold start
  cases h : g.state <;> simp [h]

@[simp] theorem start_inFlight (g : Gate ι) : g.start.1.inFlight = g.inFlight := by
  unfold start
  cases g.state <;> simp

/-- Finishes the current work item, then stops. This acts only on a working processor; with
nothing in flight it stops at once. -/
def finishAndStop (g : Gate ι) : Gate ι × List GateNotice :=
  match g.state with
  | .working =>
    if g.inFlight then (g.moveTo .stopping, [.changed .working .stopping])
    else ((g.moveTo .stopping).moveTo .stopped,
      [.changed .working .stopping, .changed .stopping .stopped])
  | _ => (g, [])

theorem finishAndStop_state (g : Gate ι) :
    g.finishAndStop.1.state =
      if g.state = .working then if g.inFlight then .stopping else .stopped else g.state := by
  unfold finishAndStop
  cases h : g.state with
  | working => cases g.inFlight <;> simp
  | stopping => simp [h]
  | stopped => simp [h]

@[simp] theorem finishAndStop_inFlight (g : Gate ι) :
    g.finishAndStop.1.inFlight = g.inFlight := by
  unfold finishAndStop
  cases g.state <;> cases hf : g.inFlight <;> simp [hf]

def release (g : Gate ι) : Gate ι × List GateNotice :=
  let free := { g with inFlight := false }
  match g.state with
  | .stopping => (free.moveTo .stopped, [.changed .stopping .stopped])
  | .working => (free.wake, [])
  | .stopped => (free, [])

theorem release_state (g : Gate ι) :
    g.release.1.state = if g.state = .stopping then .stopped else g.state := by
  unfold release
  cases h : g.state <;> simp

@[simp] theorem release_inFlight (g : Gate ι) : g.release.1.inFlight = false := by
  unfold release
  cases g.state <;> simp

/-- Whether a call that has used up a wake-up may proceed. -/
def isOpen (g : Gate ι) : Bool := g.state == .working && !g.inFlight

/-- A call looks whether it may proceed, and does so. -/
def look (g : Gate ι) : Gate ι × Answer :=
  if g.isOpen then ({ g with inFlight := true }, .granted) else (g, .pending)

/-- A call that has used up a wake-up proceeds or goes to the back. A wake-up stored meanwhile
would find the gate as closed as this one did, so the call uses that up too. -/
def enter (g : Gate ι) (i : ι) : Gate ι × Answer :=
  match g.look with
  | (inside, .granted) => (inside, .granted)
  | (outside, _) =>
    ({ outside with stored := false, waiting := outside.waiting ++ [i] }, .pending)

/-- Removes a call that leaves. A wake-up that it holds is handed on. -/
def drop [DecidableEq ι] (g : Gate ι) (i : ι) : Gate ι :=
  if i ∈ g.woken then { g with woken := g.woken.erase i }.wake
  else { g with waiting := g.waiting.erase i }

@[simp] theorem drop_state [DecidableEq ι] (g : Gate ι) (i : ι) : (g.drop i).state = g.state := by
  unfold drop
  split <;> simp

@[simp] theorem drop_inFlight [DecidableEq ι] (g : Gate ι) (i : ι) :
    (g.drop i).inFlight = g.inFlight := by
  unfold drop
  split <;> simp

/-- Uses up the wake-up that a call holds, or the stored one when the call arrives. -/
def hear? [DecidableEq ι] (g : Gate ι) (i : ι) : Option (Gate ι) :=
  if i ∈ g.woken then some { g with woken := g.woken.erase i }
  else if i ∈ g.waiting then none
  else if g.stored then some { g with stored := false }
  else none

/-- A wake-up that is used up was held by the call, or the gate had stored it. -/
theorem hear?_cases [DecidableEq ι] {g heard : Gate ι} {i : ι} (h : g.hear? i = some heard) :
    (i ∈ g.woken ∧ heard = { g with woken := g.woken.erase i }) ∨
      (i ∉ g.woken ∧ i ∉ g.waiting ∧ g.stored = true ∧ heard = { g with stored := false }) := by
  unfold hear? at h
  by_cases held : i ∈ g.woken
  · rw [if_pos held] at h
    exact .inl ⟨held, (Option.some.inj h).symm⟩
  · rw [if_neg held] at h
    by_cases waits : i ∈ g.waiting
    · rw [if_pos waits] at h
      cases h
    · rw [if_neg waits] at h
      split at h
      · next stored => exact .inr ⟨held, waits, stored, (Option.some.inj h).symm⟩
      · cases h

/-- A wake-up that is used up leaves the state and the permit alone. -/
theorem hear?_keeps [DecidableEq ι] {g heard : Gate ι} {i : ι} (h : g.hear? i = some heard) :
    heard.state = g.state ∧ heard.inFlight = g.inFlight := by
  obtain ⟨-, rfl⟩ | ⟨-, -, -, rfl⟩ := hear?_cases h
  · exact ⟨rfl, rfl⟩
  · exact ⟨rfl, rfl⟩

/-- Lets a call wait. One that waits already keeps its place. -/
def await [DecidableEq ι] (g : Gate ι) (i : ι) : Gate ι :=
  if i ∈ g.waiting then g else { g with waiting := g.waiting ++ [i] }

@[simp] theorem await_state [DecidableEq ι] (g : Gate ι) (i : ι) :
    (g.await i).state = g.state := by
  unfold await
  split <;> rfl

@[simp] theorem await_inFlight [DecidableEq ι] (g : Gate ι) (i : ι) :
    (g.await i).inFlight = g.inFlight := by
  unfold await
  split <;> rfl

/-- Runs a call to begin a work item. `cancelled` says whether its token has fired. -/
def poll [DecidableEq ι] (g : Gate ι) (i : ι) (cancelled : Bool) : Gate ι × Answer :=
  if cancelled then (g.drop i, .refused)
  else
    match g.hear? i with
    | some heard => heard.enter i
    | none => (g.await i, .pending)

/-- A call is refused exactly if its token has fired. -/
theorem poll_eq_refused [DecidableEq ι] {g : Gate ι} {i : ι} {cancelled : Bool} :
    (g.poll i cancelled).2 = .refused ↔ cancelled = true := by
  unfold poll
  cases cancelled with
  | true => simp
  | false =>
    cases g.hear? i with
    | none => simp
    | some heard =>
      simp only [enter, Bool.false_eq_true, ↓reduceIte, iff_false]
      split <;> simp

/-- Whether a call has reached the gate and neither proceeded nor left. -/
def holds [DecidableEq ι] (g : Gate ι) (i : ι) : Bool := i ∈ g.waiting || i ∈ g.woken

/-- The calls that an operation has woken. -/
def newlyWoken [DecidableEq ι] (before after : Gate ι) : List ι :=
  after.woken.filter fun i => i ∉ before.woken

end Gate
end WorkQueue
