import WorkQueue.Proofs.Consumer.Work

/-! # Draining

A stop request lets the iteration that is running come to its end. From the end of that iteration,
or at once if there is none, the processor is stopped and the consumer does no work, until somebody
starts the processor again.
-/
namespace WorkQueue

namespace Crowd
variable {ι : Type} [DecidableEq ι]

/-- The state moves by a start of a stopped processor, by a stop of a working one, and by the
release of the permit of one that drains. -/
theorem state_step (c : Crowd ι) (move : Move ι) :
    (c.step move).gate.state = c.gate.state ∨
    (move = .start ∧ c.gate.state = .stopped ∧ (c.step move).gate.state = .working) ∨
    (move = .stop ∧ c.gate.state = .working ∧ (c.step move).gate.state ≠ .working) ∨
    (c.gate.state = .stopping ∧ (c.step move).gate.state = .stopped) := by
  cases move with
  | start =>
    simp only [Crowd.step, Gate.start_state]
    by_cases hs : c.gate.state = .stopped
    · exact .inr (.inl ⟨trivial, hs, if_pos hs⟩)
    · exact .inl (if_neg hs)
  | stop =>
    simp only [Crowd.step, Gate.finishAndStop_state]
    by_cases hw : c.gate.state = .working
    · refine .inr (.inr (.inl ⟨trivial, hw, ?_⟩))
      rw [if_pos hw]
      split <;> simp
    · exact .inl (if_neg hw)
  | poll i cancelled =>
    left
    simp only [Crowd.step]
    split
    · rfl
    · exact (c.gate.answered_poll i cancelled).1
  | hear i =>
    left
    simp only [Crowd.step]
    split
    · rfl
    · split
      · next heard hh => exact (Gate.hear?_keeps hh).1
      · rfl
  | look i =>
    left
    simp only [Crowd.step]
    split
    · exact c.gate.answered_look.1
    · rfl
  | abort i =>
    left
    simp only [Crowd.step]
    split
    · rfl
    · exact Gate.drop_state ..
  | release i =>
    simp only [Crowd.step]
    split
    · simp only [Gate.release_state]
      by_cases hs : c.gate.state = .stopping
      · exact .inr (.inr (.inr ⟨hs, if_pos hs⟩))
      · exact .inl (if_neg hs)
    · exact .inl rfl

end Crowd

variable {ι σ : Type} {setup : ConsumerSetup ι σ}

namespace Chronicle
variable {r : Chronicle σ} {event : Event} {events : List Event}

def state (r : Chronicle σ) : ProcessorState := r.site.consumer.gate.state

theorem exclusive_next (h : r.crowd.Exclusive) (setup : ConsumerSetup ι σ) (event : Event) :
    (r.next setup event).crowd.Exclusive := by
  rcases next_crowd setup r event with hc | ⟨move, hc, -⟩
  · exact hc ▸ h
  · exact hc ▸ h.step move

theorem state_next (setup : ConsumerSetup ι σ) (r : Chronicle σ) (event : Event) :
    (r.next setup event).state = r.state ∨
    (event = .command .start ∧ r.state = .stopped ∧ (r.next setup event).state = .working) ∨
    (event = .command .stop ∧ r.state = .working ∧ (r.next setup event).state ≠ .working) ∨
    (r.state = .stopping ∧ (r.next setup event).state = .stopped) := by
  have hread : ∀ {c : Crowd Unit}, (r.next setup event).crowd = c →
      (r.next setup event).state = c.gate.state := fun h => congrArg (fun c => c.gate.state) h
  rcases next_crowd setup r event with hc | ⟨move, hc, hstarts, hstops⟩
  · exact .inl (hread hc)
  · rw [hread hc]
    rcases r.crowd.state_step move with hs | ⟨hstart, hs⟩ | ⟨hstop, hs⟩ | hs
    · exact .inl hs
    · exact .inr (.inl ⟨hstarts hstart, hs⟩)
    · exact .inr (.inr (.inl ⟨hstops hstop, hs⟩))
    · exact .inr (.inr (.inr hs))

theorem closed_next (h : r.state ≠ .working) (setup : ConsumerSetup ι σ)
    (he : event ≠ .command .start) : (r.next setup event).state ≠ .working := by
  rcases state_next setup r event with hs | ⟨hstart, -⟩ | ⟨-, hw, -⟩ | ⟨-, hs⟩
  · rwa [hs]
  · exact absurd hstart he
  · exact absurd hw h
  · rw [hs]
    simp

theorem stopped_next (h : r.state = .stopped) (setup : ConsumerSetup ι σ)
    (he : event ≠ .command .start) : (r.next setup event).state = .stopped := by
  rcases state_next setup r event with hs | ⟨hstart, -⟩ | ⟨-, hw, -⟩ | ⟨hs, -⟩
  · rw [hs, h]
  · exact absurd hstart he
  · rw [h] at hw
    cases hw
  · rw [h] at hs
    cases hs

theorem inIteration_of_stopping (h : r.crowd.Exclusive) (hs : r.state = .stopping) :
    r.site.consumer.stage.inIteration = true :=
  (Consumer.inFlight_eq_inIteration h).symm.trans (h.draining hs)

theorem outside_of_stopped (h : r.crowd.Exclusive) (hs : r.state = .stopped) :
    r.site.consumer.stage.inIteration = false :=
  (Consumer.inFlight_eq_inIteration h).symm.trans (h.drained hs)

theorem stopped_of_outside (h : r.crowd.Exclusive) (closed : r.state ≠ .working)
    (outside : r.site.consumer.stage.inIteration = false) : r.state = .stopped := by
  cases hs : r.state with
  | working => exact absurd hs closed
  | stopping =>
    have hin := inIteration_of_stopping h hs
    rw [outside] at hin
    cases hin
  | stopped => rfl

/-- While a processor drains the iteration is running, and its end, whatever the event is that
brings it, stops the processor. -/
theorem state_next_of_stopping (h : r.crowd.Exclusive) (hs : r.state = .stopping)
    (setup : ConsumerSetup ι σ) (event : Event) :
    (r.next setup event).state =
      if (r.next setup event).site.consumer.stage.inIteration then .stopping else .stopped := by
  have hnext := exclusive_next h setup event
  rcases state_next setup r event with he | ⟨-, hs', -⟩ | ⟨-, hw, -⟩ | ⟨-, he⟩
  · rw [hs] at he
    rw [inIteration_of_stopping hnext he, if_pos rfl, he]
  · rw [hs] at hs'
    cases hs'
  · rw [hs] at hw
    cases hw
  · rw [outside_of_stopped hnext he, he]
    rfl

theorem quiet_of_stopped (h : r.crowd.Exclusive) (hs : r.state = .stopped)
    (setup : ConsumerSetup ι σ) (unstarted : .command .start ∉ events) : r.Quiet setup events := by
  refine quiet_of_invariant setup r events (fun r => r.crowd.Exclusive ∧ r.state = .stopped)
    ⟨h, hs⟩ ?_ ?_
  · rintro event hm r ⟨hx, hs⟩
    have he : event ≠ .command .start := fun he => unstarted (he ▸ hm)
    exact ⟨exclusive_next hx setup event, stopped_next hs setup he⟩
  · rintro r ⟨hx, hs⟩
    have closed : r.site.consumer.gate.state ≠ .working := by
      rw [show r.site.consumer.gate.state = .stopped from hs]
      simp
    exact Consumer.step_quiet_of_closed setup _ (outside_of_stopped hx hs) closed

/-- An event that does not start the processor does no more than the iteration had left to do. -/
theorem next_within (closed : r.state ≠ .working) (setup : ConsumerSetup ι σ) (event : Event) :
    (r.next setup event).site.surroundings.queue.deletes +
        (r.next setup event).site.consumer.stage.deletesLeft ≤
      r.site.surroundings.queue.deletes + r.site.consumer.stage.deletesLeft ∧
    (r.site.happen setup event).2.2.countP Notice.isInvocation +
        (r.next setup event).site.consumer.stage.invocationsLeft ≤
      r.site.consumer.stage.invocationsLeft := by
  by_cases he : event = .step
  · subst he
    obtain ⟨hd, hi⟩ := Consumer.step_within setup r.site.surroundings closed
    exact ⟨hd, hi⟩
  · obtain ⟨hspared, hworkless⟩ := r.site.happen_spared setup event he
    have hstage : (r.next setup event).site.consumer.stage = r.site.consumer.stage := by
      cases event with
      | step => exact absurd rfl he
      | command command => exact (apply_keeps setup r.site command).2
      | tick span => rfl
      | foreign call => rfl
    rw [hstage, hworkless.countP_isInvocation, Nat.zero_add]
    exact ⟨Nat.add_le_add_right (Nat.le_of_eq hspared.deletes) _, Nat.le_refl _⟩

theorem run_within (closed : r.state ≠ .working) (setup : ConsumerSetup ι σ)
    (unstarted : .command .start ∉ events) :
    (r.run setup events).site.surroundings.queue.deletes +
        (r.run setup events).site.consumer.stage.deletesLeft ≤
      r.site.surroundings.queue.deletes + r.site.consumer.stage.deletesLeft ∧
    (r.reported setup events).countP Notice.isInvocation +
        (r.run setup events).site.consumer.stage.invocationsLeft ≤
      r.site.consumer.stage.invocationsLeft := by
  induction events generalizing r with
  | nil => exact ⟨Nat.le_refl _, Nat.le_of_eq (Nat.zero_add _)⟩
  | cons event rest ih =>
    have he : event ≠ .command .start := fun he => unstarted (he ▸ List.mem_cons_self)
    -- What the first event uses up is no longer left for the others.
    obtain ⟨hdeletes, hcalls⟩ := next_within closed setup event
    obtain ⟨hdeletes', hcalls'⟩ := ih (closed_next closed setup he)
      fun hm => unstarted (List.mem_cons_of_mem _ hm)
    refine ⟨Nat.le_trans hdeletes' hdeletes, ?_⟩
    change _ + ((r.next setup event).run setup rest).site.consumer.stage.invocationsLeft ≤ _
    simp only [reported, List.countP_append]
    omega

theorem closed_run (closed : r.state ≠ .working) (setup : ConsumerSetup ι σ)
    (unstarted : .command .start ∉ events) :
    (r.run setup events).state ≠ .working := by
  refine invariant_run setup r events (fun r => r.state ≠ .working) closed fun event hm r hr => ?_
  exact closed_next hr setup fun he => unstarted (he ▸ hm)

theorem exclusive_run (h : r.crowd.Exclusive) (setup : ConsumerSetup ι σ) (events : List Event) :
    (r.run setup events).crowd.Exclusive :=
  crowd_invariant setup r events Crowd.Exclusive h fun _ move h => h.step move

theorem closed_next_stop (setup : ConsumerSetup ι σ) (r : Chronicle σ) :
    (r.next setup (.command .stop)).state ≠ .working := by
  change r.site.consumer.gate.finishAndStop.1.state ≠ .working
  rw [Gate.finishAndStop_state]
  split
  · split <;> simp
  · assumption

/-- A stop request is answered by what it finds: an iteration to wait for, or nothing. -/
theorem stop_reply (h : r.crowd.Exclusive) (setup : ConsumerSetup ι σ) :
    (r.site.apply setup .stop).2.1 =
      .state (if r.site.consumer.stage.inIteration then .stopping else .stopped) := by
  change Reply.state r.site.consumer.gate.finishAndStop.1.state = _
  have hflight := Consumer.inFlight_eq_inIteration h
  rw [Gate.finishAndStop_state, hflight]
  cases hs : r.site.consumer.gate.state with
  | working => simp
  | stopping => simp [inIteration_of_stopping h hs]
  | stopped => simp [outside_of_stopped h hs]

/-- At any point of any run the gate is in flight exactly while the consumer is inside an
iteration. A stop request answers that it waits if there is one and that the processor is stopped
if there is none. While a processor drains its iteration is running, and the end of that stops the
processor; a stopped one leaves the consumer without work until it is started. From a stop request
to the next start one handler is called at most and one delete issued at most, and neither after
the iteration that the request found has ended. -/
theorem drained_before_stopped (setup : ConsumerSetup ι σ) (workOnStartup createQueue : Bool)
    (plan : FaultPlan) (ofDay : Instant) (handlers : σ) (events : List Event) :
    let r := (opening setup workOnStartup createQueue plan ofDay handlers).run setup events
    let inIteration := r.site.consumer.stage.inIteration
    r.site.consumer.gate.inFlight = inIteration ∧
    (r.site.apply setup .stop).2.1 = .state (if inIteration then .stopping else .stopped) ∧
    (r.state = .stopping → inIteration = true ∧ ∀ event, (r.next setup event).state =
      if (r.next setup event).site.consumer.stage.inIteration then .stopping else .stopped) ∧
    (r.state = .stopped → ∀ later, .command .start ∉ later → r.Quiet setup later) ∧
    ∀ later, .command .start ∉ later →
      let halted := r.next setup (.command .stop)
      (halted.run setup later).site.surroundings.queue.deletes ≤
        halted.site.surroundings.queue.deletes + 1 ∧
      (halted.reported setup later).countP Notice.isInvocation ≤ 1 ∧
      ∀ during rest, later = during ++ rest →
        (halted.run setup during).site.consumer.stage.inIteration = false →
        (halted.run setup during).Quiet setup rest := by
  intro r inIteration
  have hx : r.crowd.Exclusive :=
    crowd_exclusive setup workOnStartup createQueue plan ofDay handlers events
  refine ⟨Consumer.inFlight_eq_inIteration hx, stop_reply hx setup, fun hs => ?_,
    fun hs later unstarted => quiet_of_stopped hx hs setup unstarted, fun later unstarted => ?_⟩
  · exact ⟨inIteration_of_stopping hx hs, state_next_of_stopping hx hs setup⟩
  · intro halted
    have hclosed : halted.state ≠ .working := closed_next_stop setup r
    obtain ⟨hdeletes, hcalls⟩ := run_within hclosed setup unstarted
    have hone := halted.site.consumer.stage.deletesLeft_le_one
    have hcall := halted.site.consumer.stage.invocationsLeft_le_one
    refine ⟨by omega, by omega, ?_⟩
    rintro during rest rfl outside
    have hbefore : .command .start ∉ during := fun hm =>
      unstarted (List.mem_append_left _ hm)
    have hafter : .command .start ∉ rest := fun hm => unstarted (List.mem_append_right _ hm)
    have hx' := exclusive_run (exclusive_next hx setup (.command .stop)) setup during
    exact quiet_of_stopped hx'
      (stopped_of_outside hx' (closed_run hclosed setup hbefore) outside) setup hafter

/-- A stop request that finds a handler asleep waits for it, and the message is deleted then. -/
theorem drained_before_stopped_of_sleeping :
    let awake := ConsumerSetup.uniform 3 (.ok ())
    let setup := { awake with
      handler := ⟨fun _ handled => (handled + 1, .sleep (.ofSeconds 1) (.done (.ok ())))⟩ }
    let body := "\x7b\"id\":\"a\",\"type\":\"t\"\x7d"
    let events : List Event := [.command (.send body .zero), .step, .step]
    let later : List Event := [.tick nanosPerSecond, .step]
    let r := (opening setup true true .none 0 0).run setup events
    let halted := r.next setup (.command .stop)
    let last := halted.run setup later
    .command .start ∉ later ∧ halted.state = .stopping ∧ last.state = .stopped ∧
      last.site.surroundings.queue.deletes = 1 ∧
      (halted.reported setup later).countP Notice.isInvocation ≤ 1 ∧ last.Quiet setup [] := by
  intro awake setup body events later r halted last
  have hunstarted : .command .start ∉ later := by simp [later]
  have hdraining : halted.state = .stopping := by decide +kernel
  have hstopped : last.state = .stopped := by decide +kernel
  have hdeleted : last.site.surroundings.queue.deletes = 1 := by decide +kernel
  obtain ⟨-, -, -, -, hlater⟩ := drained_before_stopped setup true true .none 0 0 events
  obtain ⟨-, hcalls, hquiet⟩ := hlater later hunstarted
  have hend : last.Quiet setup [] := by
    refine hquiet later [] (List.append_nil later).symm ?_
    decide +kernel
  exact ⟨hunstarted, hdraining, hstopped, hdeleted, hcalls, hend⟩

end Chronicle
end WorkQueue
