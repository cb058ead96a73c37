import Mathlib.Data.List.Nodup
import WorkQueue.Proofs.Gate.Wakeup
import WorkQueue.Replica.FairLock

/-! # Turns of calls until a replica has settled

Where only calls wait, a replica settles by turns of those in line, each of which gets a permit,
waits at the gate or leaves.
-/
namespace WorkQueue

/-- The task of a call that waits. -/
def Call.task (c : Call) : Task := { id := c.number, name := c.name, duty := .begin }

/-! ## One call among others -/

section
variable {front rest : List Call} {call : Call}
  (distinct : ((front ++ call :: rest).map Call.number).Nodup)
include distinct

theorem number_ne_of_nodup : ∀ other ∈ front ++ rest, other.number ≠ call.number := by
  rw [List.map_append, List.map_cons, List.nodup_middle, ← List.map_append] at distinct
  intro other hother same
  exact (List.nodup_cons.mp distinct).1 (same ▸ List.mem_map_of_mem hother)

theorem erase_number_of_nodup :
    ((front ++ call :: rest).map Call.number).erase call.number =
      (front ++ rest).map Call.number := by
  have earlier : call.number ∉ front.map Call.number := by
    intro hm
    obtain ⟨other, hother, same⟩ := List.mem_map.mp hm
    exact number_ne_of_nodup distinct other (List.mem_append_left _ hother) same
  rw [List.map_append, List.map_cons, List.erase_append_right _ earlier, List.erase_cons_head,
    List.map_append]

variable {f : Call → Task} (numbered : ∀ c, (f c).id = c.number)
include numbered

theorem find?_task_of_nodup :
    ((front ++ call :: rest).map f).find? (fun t => t.id == call.number) = some (f call) := by
  have earlier : (front.map f).find? (fun t => t.id == call.number) = none := by
    rw [List.find?_eq_none]
    intro t ht
    obtain ⟨other, hother, rfl⟩ := List.mem_map.mp ht
    simpa [numbered] using number_ne_of_nodup distinct other (List.mem_append_left _ hother)
  rw [List.map_append, List.find?_append, earlier, Option.none_or, List.map_cons,
    List.find?_cons_of_pos (by simp [numbered])]

theorem filter_task_of_nodup :
    ((front ++ call :: rest).map f).filter (fun t => t.id != call.number) =
      (front ++ rest).map f := by
  have kept : ((front ++ rest).map f).filter (fun t => t.id != call.number) =
      (front ++ rest).map f := by
    rw [List.filter_eq_self]
    intro t ht
    obtain ⟨other, hother, rfl⟩ := List.mem_map.mp ht
    simpa [numbered] using number_ne_of_nodup distinct other hother
  rw [← kept, List.map_append, List.map_cons, List.filter_append,
    List.filter_cons_of_neg (by simp [numbered]), List.map_append, List.filter_append]

end

namespace Replica
variable {r s : Replica} {l : FairLock} {i : Nat} {task : Task} {out : List Occurrence}

theorem runFor_of_ready_nil (ready : r.ready = []) (fuel : Nat) : r.runFor fuel = (r, []) := by
  cases fuel with
  | zero => rfl
  | succ fuel => simp only [runFor, ready, List.isEmpty_nil, ↓reduceIte]

/-- A turn of the first in line, then the others. -/
theorem runFor_of_turn {rest : List Nat} (ready : r.ready = i :: rest) (turn : r.turn i = (s, out))
    (fuel : Nat) : r.runFor (fuel + 1) =
      ((s.runFor fuel).1, (out.map fun o => ⟨r.now, o⟩) ++ (s.runFor fuel).2) := by
  have step : r.step = (s, out) := by
    unfold Replica.step
    simp only [ready, turn]
  simp only [runFor, ready, List.isEmpty_cons, Bool.false_eq_true, ↓reduceIte, step]

/-- A run that leaves nobody in line and nobody waiting for the clock is all there is to do. -/
theorem settle_of_run {timed : List Timed} (run : r.run = (s, timed)) (ready : s.ready = [])
    (timeless : ∀ t ∈ s.tasks, t.deadline = none) : r.settle = (s, timed) := by
  have undue : s.idsOf (isDue s.now) = [] := by
    rw [idsOf, List.map_eq_nil_iff, List.filter_eq_nil_iff]
    intro t ht
    simp [isDue, timeless t ht]
  have still : s.wake [] = s := by simp [wake]
  have done : s.run = (s, []) := runFor_of_ready_nil ready _
  simp only [settle, run, undue, still, done, List.append_nil]

theorem settle_of_idle (ready : r.ready = []) (timeless : ∀ t ∈ r.tasks, t.deadline = none) :
    r.settle = (r, []) :=
  settle_of_run (runFor_of_ready_nil ready _) ready timeless

theorem settle_of_turn (ready : r.ready = [i]) (turn : r.turn i = (s, out)) (last : s.ready = [])
    (timeless : ∀ t ∈ s.tasks, t.deadline = none) :
    r.settle = (s, out.map fun o => ⟨r.now, o⟩) := by
  refine settle_of_run ?_ last timeless
  have patient : r.patience = r.patience - 1 + 1 := by
    have turns : 0 < (r.tasks.length + 1) * (r.tasks.length + 2) :=
      Nat.mul_pos (Nat.succ_pos _) (Nat.succ_pos _)
    unfold patience
    omega
  rw [run, patient, runFor_of_turn ready turn, runFor_of_ready_nil last, List.append_nil]

/-! ## A replica where only calls wait -/

/-- Only calls to begin a work item wait, none for a time. -/
def OnlyCalls (r : Replica) : Prop := ∀ t ∈ r.tasks, t.duty = .begin ∧ t.deadline = none

theorem OnlyCalls.timeless (h : r.OnlyCalls) : ∀ t ∈ r.tasks, t.deadline = none :=
  fun t ht => (h t ht).2

theorem onlyCalls_of_map {calls : List Call} (tasks : r.tasks = calls.map Call.task) :
    r.OnlyCalls := by
  intro t ht
  rw [tasks] at ht
  obtain ⟨call, -, rfl⟩ := List.mem_map.mp ht
  exact ⟨rfl, rfl⟩

/-- A change of the gate then brings nobody to the line but those whom the gate has woken. -/
theorem OnlyCalls.setGate (h : r.OnlyCalls) (gate : Gate Nat) :
    r.setGate gate = { r with gate := gate }.wake (Gate.newlyWoken r.gate gate) := by
  have recorders : r.idsOf isRecorder = [] := by
    rw [idsOf, List.map_eq_nil_iff, List.filter_eq_nil_iff]
    intro t ht
    simp [isRecorder, (h t ht).1]
  simp only [Replica.setGate, recorders, ite_self, List.nil_append]

theorem OnlyCalls.setGate_of_asleep (h : r.OnlyCalls) {gate : Gate Nat} (woken : gate.woken = []) :
    r.setGate gate = { r with gate := gate } := by
  have nobody : Gate.newlyWoken r.gate gate = [] := by rw [Gate.newlyWoken, woken, List.filter_nil]
  rw [h.setGate gate, nobody]
  simp [wake]

theorem turn_of_task? (inLine : i ∈ r.ready) (found : r.task? i = some task) :
    r.turn i = (r.called i).runTask task := by
  simp only [turn, if_pos inLine, found]

end Replica

namespace Gate
variable {ι : Type} [DecidableEq ι] {g : Gate ι} {i : ι}

/-! ## A call at a gate where nobody has yet to go on -/

theorem drop_of_asleep (asleep : g.woken = []) :
    g.drop i = { g with waiting := g.waiting.erase i } := by
  simp [drop, asleep]

omit [DecidableEq ι] in
theorem enter_of_open (isOpen : g.isOpen = true) :
    g.enter i = ({ g with inFlight := true }, .granted) := by
  simp [enter, look, isOpen]

omit [DecidableEq ι] in
theorem enter_of_closed (closed : g.isOpen = false) :
    g.enter i = ({ g with stored := false, waiting := g.waiting ++ [i] }, .pending) := by
  simp [enter, look, closed]

theorem poll_of_hear? {heard : Gate ι} (hears : g.hear? i = some heard) :
    g.poll i false = heard.enter i := by
  simp [poll, hears]

theorem poll_of_woken (isOpen : g.isOpen = true) (woken : g.woken = [i]) :
    g.poll i false = ({ g with woken := [], inFlight := true }, .granted) := by
  have hears : g.hear? i = some { g with woken := [] } := by simp [hear?, woken]
  exact (poll_of_hear? hears).trans (enter_of_open isOpen)

theorem poll_of_open (isOpen : g.isOpen = true) (asleep : g.woken = []) (empty : g.waiting = [])
    (stored : g.stored = true) :
    g.poll i false = ({ g with stored := false, inFlight := true }, .granted) := by
  have hears : g.hear? i = some { g with stored := false } := by
    simp [hear?, asleep, empty, stored]
  exact (poll_of_hear? hears).trans (enter_of_open isOpen)

/-- A wake-up that is stale is used up in vain. -/
theorem poll_of_closed (closed : g.isOpen = false) (asleep : g.woken = []) (new : i ∉ g.waiting) :
    g.poll i false = ({ g with stored := false, waiting := g.waiting ++ [i] }, .pending) := by
  cases stored : g.stored with
  | true =>
    have hears : g.hear? i = some { g with stored := false } := by
      simp [hear?, asleep, new, stored]
    exact (poll_of_hear? hears).trans (enter_of_closed closed)
  | false => simp [poll, hear?, asleep, new, stored, await]

end Gate

namespace Replica
variable {r s : Replica} {l : FairLock} {i : Nat} {task : Task} {out : List Occurrence}

/-! ## Turns of a call -/

theorem isCancelled_eq_false {name : String} (fresh : name ∉ r.cancelled) :
    r.isCancelled name = false := by
  simpa [isCancelled] using fresh

/-- The turn of the only task in line, which is a call. -/
theorem turn_begin (ready : r.ready = [i]) (found : r.task? i = some task)
    (duty : task.duty = .begin) (live : task.aborted = false) :
    r.turn i = { r with ready := [] }.runBegin task := by
  have called : r.called i = { r with ready := [] } := by simp [Replica.called, ready]
  rw [turn_of_task? (ready ▸ List.mem_singleton_self i) found, called]
  simp [runTask, live, duty]

section
variable (task) {gate : Gate Nat} (h : r.OnlyCalls)
include h

theorem runBegin_granted
    (polled : r.gate.poll task.id (r.isCancelled task.name) = (gate, .granted))
    (asleep : gate.woken = []) :
    r.runBegin task = ({ r with gate := gate, holder := some task.name }.remove task.id,
      [.granted task.name]) := by
  simp only [runBegin, polled, h.setGate_of_asleep asleep]

theorem runBegin_pending
    (polled : r.gate.poll task.id (r.isCancelled task.name) = (gate, .pending))
    (asleep : gate.woken = []) :
    r.runBegin task = ({ r with gate := gate }.suspend task, []) := by
  simp only [runBegin, polled, h.setGate_of_asleep asleep]

theorem runBegin_refused
    (polled : r.gate.poll task.id (r.isCancelled task.name) = (gate, .refused))
    (asleep : gate.woken = []) :
    r.runBegin task = ({ r with gate := gate }.remove task.id,
      [.refused task.name .cancelled]) := by
  simp only [runBegin, polled, h.setGate_of_asleep asleep]

end

end Replica
end WorkQueue
