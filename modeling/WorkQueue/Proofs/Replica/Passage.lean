import WorkQueue.Proofs.Replica.Turn

/-! # The gate of a replica

The tasks of a replica are a crowd at its gate. Each event is at most one move of that crowd, and
so whatever holds of every crowd holds of the gate of every replica: nothing is in flight once it
has stopped.
-/
namespace WorkQueue
namespace Replica
variable {r s last : Replica} {task : Task} {c : Crowd Nat}

/-- A crowd at the gate of a replica, with as many permits as the replica has given out. -/
structure Mirrors (c : Crowd Nat) (r : Replica) : Prop where
  gate : c.gate = r.gate
  nobodyLooks : c.looking = []
  permits : c.permits.length = r.holder.toList.length

theorem mirrors_start (name : String) (workOnStartup : Bool) (interval : Duration) :
    Mirrors (Crowd.gather workOnStartup) (start name workOnStartup interval) :=
  ⟨rfl, rfl, rfl⟩

theorem Mirrors.of_same (h : Mirrors c r) (gate : s.gate = r.gate) (holder : s.holder = r.holder) :
    Mirrors c s :=
  ⟨h.gate.trans gate.symm, h.nobodyLooks, holder ▸ h.permits⟩

theorem Mirrors.start (h : Mirrors c r) : Mirrors (c.step .start) (r.setGate r.gate.start.1) :=
  ⟨h.gate ▸ rfl, h.nobodyLooks, h.permits⟩

theorem Mirrors.stop (h : Mirrors c r) :
    Mirrors (c.step .stop) (r.setGate r.gate.finishAndStop.1) :=
  ⟨h.gate ▸ rfl, h.nobodyLooks, h.permits⟩

theorem Mirrors.release (h : Mirrors c r) {name : String} (held : r.holder = some name) :
    ∃ i, Mirrors (c.step (.release i)) ({ r with holder := none }.setGate r.gate.release.1) := by
  have hone := h.permits
  rw [held] at hone
  obtain ⟨i, hpermit⟩ := List.length_eq_one_iff.mp hone
  refine ⟨i, ?_, ?_, ?_⟩
  · simp [Crowd.step, hpermit, h.gate, setGate, wake]
  · simp [Crowd.step, hpermit, h.nobodyLooks]
  · simp [Crowd.step, hpermit, setGate, wake]

theorem Mirrors.shift (h : Mirrors c r) (exclusive : c.Exclusive) (shift : Shift r task s) :
    Mirrors c s ∨ ∃ move, Mirrors (c.step move) s := by
  cases shift with
  | idle => exact .inl h
  | recorded store => exact .inl (h.of_same rfl rfl)
  | dropped =>
    refine .inr ⟨.abort task.id, ?_, ?_, ?_⟩
    · simp [Crowd.step, h.nobodyLooks, h.gate, setGate, wake]
    · simp [Crowd.step, h.nobodyLooks]
    · simpa [Crowd.step, h.nobodyLooks, setGate, wake] using h.permits
  | @polled duty gate answer polled =>
    have hpoll : c.gate.poll task.id (r.isCancelled task.name) = (gate, answer) := h.gate ▸ polled
    refine .inr ⟨.poll task.id (r.isCancelled task.name), ?_, ?_, ?_⟩
    · simp [Crowd.step, Crowd.answer, h.nobodyLooks, hpoll, setGate, wake]
    · simp [Crowd.step, Crowd.answer, h.nobodyLooks]
    · by_cases hgranted : answer = .granted
      · -- Only an open gate grants, and then no permit is out.
        have answered := c.gate.answered_poll task.id (r.isCancelled task.name)
        rw [hpoll, Gate.Answered, if_pos hgranted] at answered
        have hnone : c.permits.length = 0 := by
          simpa [answered.2.2.1] using exclusive.counted
        simp [Crowd.step, Crowd.answer, h.nobodyLooks, hpoll, hgranted, hnone]
      · simpa [Crowd.step, Crowd.answer, h.nobodyLooks, hpoll, hgranted] using h.permits
  | started duty route => exact .inr ⟨.start, h.start⟩
  | stopped duty route => exact .inr ⟨.stop, h.stop⟩

theorem Mirrors.next (h : Mirrors c r) (exclusive : c.Exclusive) (event : ReplicaEvent) :
    Mirrors c (r.next event) ∨ ∃ move, Mirrors (c.step move) (r.next event) := by
  cases event with
  | command command =>
    have commanded := apply_commanded r command
    change Mirrors c (r.apply command).1 ∨ ∃ move, Mirrors (c.step move) (r.apply command).1
    generalize (r.apply command).1 = last at commanded
    cases commanded with
    | same other same => exact .inl (h.of_same same.gate same.holder)
    | spawned other name duty => exact .inl (h.of_same rfl rfl)
    | aborted name => exact .inl (h.of_same rfl rfl)
    | cancelled name => exact .inl (h.of_same rfl rfl)
    | interrupted => exact .inl (h.of_same rfl rfl)
    | started => exact .inr ⟨.start, h.start⟩
    | stopped => exact .inr ⟨.stop, h.stop⟩
    | released held =>
      obtain ⟨i, hi⟩ := h.release held
      exact .inr ⟨.release i, hi⟩
  | turn id =>
    have called : Mirrors c (r.called id) := h.of_same rfl rfl
    rcases next_turn r id with same | same | ⟨task, -, turned⟩
    · rw [same]
      exact .inl h
    · rw [same]
      exact .inl called
    · generalize r.next (.turn id) = last at turned
      cases turned with
      | @ended s shift =>
        exact (called.shift exclusive shift).imp (·.of_same rfl rfl)
          fun ⟨move, hmove⟩ => ⟨move, hmove.of_same rfl rfl⟩
      | @waits s t shift same calls =>
        exact (called.shift exclusive shift).imp (·.of_same rfl rfl)
          fun ⟨move, hmove⟩ => ⟨move, hmove.of_same rfl rfl⟩
  | tick span => exact .inl (h.of_same rfl rfl)
  | ring => exact .inl (h.of_same rfl rfl)

/-- Whether some run of a crowd leads to what stands at the gate. -/
def Mirrored (workOnStartup : Bool) (r : Replica) : Prop :=
  ∃ moves, Mirrors ((Crowd.gather workOnStartup).run moves) r

variable {workOnStartup : Bool}

theorem Mirrored.next (h : r.Mirrored workOnStartup) (event : ReplicaEvent) :
    (r.next event).Mirrored workOnStartup := by
  obtain ⟨moves, hmirrors⟩ := h
  have exclusive : ((Crowd.gather workOnStartup : Crowd Nat).run moves).Exclusive :=
    (Crowd.exclusive_gather workOnStartup).run moves
  rcases hmirrors.next exclusive event with hnext | ⟨move, hnext⟩
  · exact ⟨moves, hnext⟩
  · exact ⟨moves ++ [move], by rwa [Crowd.run, List.foldl_append]⟩

/-- What every event preserves holds after every course. -/
theorem invariant_after (events : List ReplicaEvent) {invariant : Replica → Prop}
    (preserved : ∀ r event, invariant r → invariant (r.next event)) (holds : invariant r) :
    invariant (r.after events) := by
  induction events generalizing r with
  | nil => exact holds
  | cons event rest ih => exact ih (preserved r event holds)

theorem mirrored_after (name : String) (workOnStartup : Bool) (interval : Duration)
    (events : List ReplicaEvent) :
    ((start name workOnStartup interval).after events).Mirrored workOnStartup :=
  invariant_after events (fun _ event h => h.next event)
    ⟨[], mirrors_start name workOnStartup interval⟩

/-- Once the processor has stopped, nothing is in flight and nobody holds a permit. -/
theorem Mirrored.idle (h : r.Mirrored workOnStartup) (stopped : r.gate.state = .stopped) :
    r.Idle := by
  obtain ⟨moves, hmirrors⟩ := h
  have exclusive : ((Crowd.gather workOnStartup : Crowd Nat).run moves).Exclusive :=
    (Crowd.exclusive_gather workOnStartup).run moves
  have hfree : r.gate.inFlight = false := by
    rw [← hmirrors.gate]
    exact exclusive.drained (hmirrors.gate ▸ stopped)
  have hnone := exclusive.counted
  rw [hmirrors.gate, hfree, hmirrors.permits] at hnone
  exact ⟨hfree, by simpa using hnone⟩

namespace Reachable

theorem next (h : r.Reachable) (event : ReplicaEvent) : (r.next event).Reachable := by
  obtain ⟨name, workOnStartup, interval, events, rfl⟩ := h
  exact ⟨name, workOnStartup, interval, events ++ [event], by simp [after]⟩

theorem after (h : r.Reachable) (events : List ReplicaEvent) : (r.after events).Reachable :=
  invariant_after events (fun _ event h => h.next event) h

theorem orderly (h : r.Reachable) : r.Orderly := by
  obtain ⟨name, workOnStartup, interval, events, rfl⟩ := h
  exact (orderly_start name workOnStartup interval).after events

theorem idle (h : r.Reachable) (stopped : r.gate.state = .stopped) : r.Idle := by
  obtain ⟨name, workOnStartup, interval, events, rfl⟩ := h
  exact (mirrored_after name workOnStartup interval events).idle stopped

end Reachable

end Replica
end WorkQueue
