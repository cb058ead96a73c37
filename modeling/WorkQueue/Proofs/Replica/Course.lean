import WorkQueue.Proofs.Replica.Passage

/-! # Time, shutdown and turns on a course

The clock never goes back and a shutdown never ends. A task finds at its turns replicas that are on
the course. A processor that has stopped stays so until it is started.
-/
namespace WorkQueue
namespace Replica
variable {r : Replica} {id : Nat} {event : ReplicaEvent} {events : List ReplicaEvent}

theorem now_le_next (r : Replica) (event : ReplicaEvent) : r.now ≤ (r.next event).now := by
  by_cases timed : ∃ span, event = .tick span
  · obtain ⟨span, rfl⟩ := timed
    exact Nat.le_add_right _ _
  · by_cases lasting : event = .command .shutdown
    · subst lasting
      exact Nat.le_refl _
    · exact Nat.le_of_eq (still_next r (not_exists.mp timed) lasting).now.symm

theorem now_next (timeless : ∀ span, event ≠ .tick span) : (r.next event).now = r.now := by
  by_cases lasting : event = .command .shutdown
  · subst lasting
    rfl
  · exact (still_next r timeless lasting).now

theorem shutdown_next :
    (r.next event).shutdown = true ↔ r.shutdown = true ∨ event = .command .shutdown := by
  by_cases lasting : event = .command .shutdown
  · subst lasting
    simp [next, happen, apply, wake]
  · by_cases timed : ∃ span, event = .tick span
    · obtain ⟨span, rfl⟩ := timed
      simp [next, happen]
    · simp [(still_next r (not_exists.mp timed) lasting).shutdown, lasting]

theorem shutdown_next_of_ne (h : event ≠ .command .shutdown) :
    (r.next event).shutdown = r.shutdown := by
  rw [Bool.eq_iff_iff, shutdown_next]
  simp [h]

theorem shutdown_after (h : r.shutdown = true) (events : List ReplicaEvent) :
    (r.after events).shutdown = true := by
  have kept (s : Replica) (event : ReplicaEvent) (fired : s.shutdown = true) :
      (s.next event).shutdown = true := shutdown_next.mpr (.inl fired)
  exact invariant_after events kept h

theorem unfired_of_after (h : (r.after events).shutdown = false) : r.shutdown = false := by
  cases fired : r.shutdown with
  | false => rfl
  | true => simp [shutdown_after fired events] at h

theorem fixed_after (r : Replica) (events : List ReplicaEvent) :
    (r.after events).name = r.name ∧ (r.after events).checkInterval = r.checkInterval := by
  have kept (s : Replica) (event : ReplicaEvent)
      (same : s.name = r.name ∧ s.checkInterval = r.checkInterval) :
      (s.next event).name = r.name ∧ (s.next event).checkInterval = r.checkInterval :=
    ⟨(fixed_next s event).1.trans same.1, (fixed_next s event).2.trans same.2⟩
  exact invariant_after events kept ⟨rfl, rfl⟩

theorem shutdown_of_shutdownAt {t : Instant} (h : r.shutdownAt events = some t) :
    (r.after events).shutdown = true := by
  induction events generalizing r with
  | nil =>
    simp only [shutdownAt] at h
    split at h
    · assumption
    · cases h
  | cons event rest ih =>
    simp only [shutdownAt] at h
    split at h
    · next fired => exact shutdown_after fired (event :: rest)
    · exact ih h

theorem shutdownAt_of_shutdown (h : r.shutdown = true) (events : List ReplicaEvent) :
    r.shutdownAt events = some r.now := by
  cases events <;> simp [shutdownAt, h]

/-! ## Turns of a task -/

theorem inLine_of_goesOn (idle : r.goesOn id event = true) : event = .turn id ∧ id ∈ r.ready := by
  cases event with
  | turn i =>
    simp only [goesOn, Bool.and_eq_true, beq_iff_eq, List.contains_iff_mem] at idle
    exact ⟨by rw [idle.1.1], idle.1.2⟩
  | _ => cases idle

theorem visits_of_absent (idle : r.goesOn id event = false) :
    r.visits id (event :: events) = (r.next event).visits id events := by
  simp [visits, idle]

theorem answers_of_absent (idle : r.goesOn id event = false) :
    r.answers id (event :: events) = (r.next event).answers id events := by
  simp [answers, idle]

/-- The replicas that a task finds at its turns are on the course, where it goes on. -/
theorem split_of_mem_visits {found : Replica} (h : found ∈ r.visits id events) :
    ∃ earlier later, events = earlier ++ .turn id :: later ∧ found = r.after earlier ∧
      found.goesOn id (.turn id) = true := by
  induction events generalizing r with
  | nil => cases h
  | cons event rest ih =>
    rcases List.mem_append.mp h with h | h
    · split at h
      · next goes =>
        cases List.mem_singleton.mp h
        obtain ⟨rfl, -⟩ := inLine_of_goesOn goes
        exact ⟨[], rest, rfl, rfl, goes⟩
      · cases h
    · obtain ⟨earlier, later, rfl, rfl, goes⟩ := ih h
      exact ⟨event :: earlier, later, rfl, rfl, goes⟩

theorem Reachable.of_mem_visits {found : Replica} (reached : r.Reachable)
    (h : found ∈ r.visits id events) : found.Reachable := by
  obtain ⟨earlier, later, -, rfl, -⟩ := split_of_mem_visits h
  exact reached.after earlier

theorem Prompt.next (h : r.Prompt id (event :: events)) : (r.next event).Prompt id events := by
  cases event with
  | tick span => exact h.2
  | _ => exact h

theorem Prompt.of_append {earlier later : List ReplicaEvent} (h : r.Prompt id (earlier ++ later)) :
    r.Prompt id earlier ∧ (r.after earlier).Prompt id later := by
  induction earlier generalizing r with
  | nil => exact ⟨trivial, h⟩
  | cons event rest ih =>
    have later := ih h.next
    cases event with
    | tick span => exact ⟨⟨h.1, later.1⟩, later.2⟩
    | _ => exact later

/-! ## Starts -/

/-- What a task does with a processor that has stopped leaves it stopped, unless it starts it. -/
theorem Shift.stopped_or {s : Replica} {task : Task} (h : Shift r task s)
    (halted : r.gate.state = .stopped) : s.gate.state = .stopped ∨ s.gate.state = .working ∧
      ∃ request, task.duty = .request request false ∧ request.route = .ok .start := by
  cases h with
  | idle => exact .inl halted
  | recorded store => exact .inl halted
  | dropped => exact .inl (by simpa [setGate, wake] using halted)
  | @polled duty gate answer polled =>
    have answered := (r.gate.answered_poll task.id (r.isCancelled task.name)).1
    rw [polled] at answered
    exact .inl (answered.trans halted)
  | started duty route =>
    exact .inr ⟨by simp [setGate, wake, Gate.start_state, halted], _, duty, route⟩
  | stopped duty route =>
    exact .inl (by simp [setGate, wake, Gate.finishAndStop_state, halted])

/-- A processor that has stopped works again only if it is started. -/
theorem stopped_or_starts (halted : r.gate.state = .stopped) (event : ReplicaEvent) :
    (r.next event).gate.state = .stopped ∨ r.Starts event := by
  cases event with
  | command command =>
    have commanded := apply_commanded r command
    generalize happened : (r.apply command).1 = last at commanded
    have next : r.next (.command command) = last := happened
    rw [next]
    cases commanded with
    | same other same => exact .inl (same.gate ▸ halted)
    | spawned other name duty => exact .inl halted
    | aborted name => exact .inl halted
    | cancelled name => exact .inl halted
    | interrupted => exact .inl halted
    | started =>
      refine .inr ⟨halted, ?_, .inl rfl⟩
      rw [next]
      simp [setGate, wake, Gate.start_state, halted]
    | stopped => exact .inl (by simp [setGate, wake, Gate.finishAndStop_state, halted])
    | released held => exact .inl (by simp [setGate, wake, Gate.release_state, halted])
  | turn i =>
    rcases next_turn r i with same | same | ⟨task, ht, turned⟩
    · rw [same]
      exact .inl halted
    · rw [same]
      exact .inl halted
    · generalize happened : r.next (.turn i) = last at turned
      have moved : last.gate.state = .stopped ∨ last.gate.state = .working ∧
          ∃ request, task.duty = .request request false ∧ request.route = .ok .start := by
        cases turned with
        | ended shift => exact shift.stopped_or halted
        | waits shift same calls => exact shift.stopped_or halted
      refine moved.imp_right ?_
      rintro ⟨works, request, duty, route⟩
      exact ⟨halted, happened ▸ works, .inr ⟨i, task, request, rfl, ht, duty, route⟩⟩
  | tick span => exact .inl halted
  | ring => exact .inl halted

theorem exists_starts (stopped : r.gate.state = .stopped)
    (left : (r.after events).gate.state ≠ .stopped) :
    ∃ earlier event later, events = earlier ++ event :: later ∧ (r.after earlier).Starts event := by
  induction events generalizing r with
  | nil => exact absurd stopped left
  | cons event rest ih =>
    rcases stopped_or_starts stopped event with stays | starts
    · obtain ⟨earlier, event', later, rfl, starts⟩ := ih stays left
      exact ⟨event :: earlier, event', later, rfl, starts⟩
    · exact ⟨[], event, rest, rfl, starts⟩

end Replica
end WorkQueue
