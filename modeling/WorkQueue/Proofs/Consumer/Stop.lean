import WorkQueue.Proofs.Consumer.Custody

/-! # What ends the loop

The loop ends at the first step that meets a cancellation, be it that the token has fired or that
a receive, a delete or a dispatch answers with one. The two are not told apart: a handler that
reports a cancellation of its own ends the loop although nobody has cancelled the service.
-/
namespace WorkQueue
variable {ι σ : Type} {setup : ConsumerSetup ι σ} {plan : FaultPlan}

theorem Failure.isCancellation_iff {f : Failure} : f.isCancellation = true ↔ f = .cancelled := by
  cases f <;> simp [Failure.isCancellation]

theorem stageAfter_eq_ended {now : Instant} {result : Except Failure IterationEnd} :
    stageAfter setup now result = .ended ↔ result = .error .cancelled := by
  cases result with
  | ok e => cases e <;> simp [stageAfter]
  | error failure =>
    by_cases hc : failure = .cancelled
    · subst hc
      simp [stageAfter, Failure.isCancellation]
    · simp [stageAfter, mt Failure.isCancellation_iff.mp hc, hc]

theorem Ending.verdict_eq_abandon {maxAttempts attempt : Nat} {ending : Ending} :
    ending.verdict maxAttempts attempt = .abandon ↔
      ∃ item, ending = .dispatched item (.error .cancelled) := by
  cases ending with
  | malformed failure => simp [Ending.verdict]
  | dispatched item result =>
    cases result with
    | ok done => simp [Ending.verdict, WorkQueue.verdict]
    | error failure =>
      by_cases hc : failure = .cancelled
      · subst hc
        simp [Ending.verdict, WorkQueue.verdict, Failure.isCancellation]
      · simp only [Ending.verdict, WorkQueue.verdict, mt Failure.isCancellation_iff.mp hc,
          Bool.false_eq_true, ↓reduceIte, Ending.dispatched.injEq, Except.error.injEq, hc,
          and_false, exists_false, iff_false]
        split
        · simp
        · split <;> simp

theorem Verdict.onward_eq_ended {v : Verdict} : v.onward = .ended ↔ v = .abandon := by
  cases v <;> simp [Verdict.onward]

namespace Consumer
variable {c : Consumer} {s : Surroundings σ} {d : Delivery}

theorem isStopped_iff_stage : c.isStopped = true ↔ c.stage = .ended := by
  unfold isStopped
  cases c.stage <;> simp

/-- Whether a step meets a cancellation: the token has fired, or the receive, the delete or the
dispatch answers with one. -/
def MeetsCancellation (setup : ConsumerSetup ι σ) (c : Consumer) (s : Surroundings σ) : Prop :=
  c.cancelled = true ∨
    .received (.error .cancelled) ∈ (c.step setup s).notices ∨
    (∃ id, .deleted id (.error .cancelled) ∈ (c.step setup s).notices) ∨
    ∃ item, c.ending? setup s = some (.dispatched item (.error .cancelled))

/-- What a turn says of a cancellation that was not the token's. -/
def Reported (t : Turn σ) (ending : Option Ending) : Prop :=
  .received (.error .cancelled) ∈ queueCalls t.notices ∨
    (∃ id, .deleted id (.error .cancelled) ∈ queueCalls t.notices) ∨
    ∃ item, ending = some (.dispatched item (.error .cancelled))

theorem follow_ends_iff (setup : ConsumerSetup ι σ) (c : Consumer) (d : Delivery)
    {run : AttemptRun σ} (hn : queueCalls run.notices = []) :
    (c.follow setup d run).consumer.stage = .ended ↔
      Reported (c.follow setup d run) run.progress.ending? := by
  cases he : run.progress with
  | suspended item wait =>
    rw [follow_suspended he]
    simp [Reported, hn, AttemptProgress.ending?]
  | ended ending =>
    rw [follow_ended he]
    cases hv : (ending.verdict setup.options.maxAttempts d.attempt).deletes with
    | false =>
      obtain ⟨-, hcalls, hstage⟩ := close_of_keeps (c := c) (s := run.surroundings) hv
      simp only [Turn.after, hstage, Reported, queueCalls_append, hn, hcalls,
        AttemptProgress.ending?, Verdict.onward_eq_ended, Ending.verdict_eq_abandon]
      simp
    | true =>
      obtain ⟨-, hcalls, hstage⟩ := close_of_deletes (c := c) (s := run.surroundings) hv
      have hgoesOn : ¬ ∃ item, ending = .dispatched item (.error .cancelled) := fun h => by
        rw [Ending.verdict_eq_abandon.mpr h] at hv
        cases hv
      simp only [Turn.after, hstage, Reported, queueCalls_append, hn, hcalls,
        AttemptProgress.ending?, stageAfter_eq_ended]
      cases hanswer : deleteAnswer setup run.surroundings d with
      | ok done => simpa [Except.map] using hgoesOn
      | error failure =>
        have hnone : ∀ item, ending ≠ .dispatched item (.error .cancelled) :=
          not_exists.mp hgoesOn
        simpa [Except.map, hnone] using eq_comm

theorem finish_ends_iff {before : List Notice} (result : Except Failure IterationEnd) :
    (Turn.after before (c.finish setup s result)).consumer.stage = .ended ↔
      result = .error .cancelled := by
  simp only [Turn.after, finish_consumer]
  exact stageAfter_eq_ended

theorem queueCalls_received {answer : Except Failure (Option Delivery)} {t : Turn σ} :
    queueCalls (Turn.after [.received answer] t).notices =
      .received answer :: queueCalls t.notices := rfl

theorem receive_ends_iff {ready : Instant} (at_ : c.stage = .receiving ready)
    (token : c.cancelled = false) (due : ready ≤ s.now.running) :
    (c.receive setup s).consumer.stage = .ended ↔
      Reported (c.receive setup s) (c.ending? setup s) := by
  simp only [ending?, at_, token, due, ↓reduceIte, receive, Bool.false_eq_true]
  cases hr : s.queue.receive s.now setup.options.queue setup.options.invisibility with
  | mk queue answer =>
    cases answer with
    | error failure =>
      dsimp only
      rw [finish_ends_iff, Reported, queueCalls_received, finish_queueCalls]
      simpa using eq_comm
    | ok found =>
      cases found with
      | none =>
        dsimp only
        rw [finish_ends_iff, Reported, queueCalls_received, finish_queueCalls]
        simp
      | some d =>
        obtain ⟨-, -, hcalls⟩ := attempt_frame setup c { s with queue := queue } d
        have hf := follow_ends_iff setup c d hcalls
        dsimp only
        rw [Reported, queueCalls_received]
        simpa [Turn.after, Reported] using hf

/-- A step that begins in front of the end goes there if it meets a cancellation, and only then. -/
theorem step_ends_iff (h : c.stage ≠ .ended) :
    (c.step setup s).consumer.stage = .ended ↔ MeetsCancellation setup c s := by
  -- What is reported beside the queue calls says nothing here and differs from course to course.
  have hreported : MeetsCancellation setup c s ↔
      c.cancelled = true ∨ Reported (c.step setup s) (c.ending? setup s) := by
    simp only [MeetsCancellation, Reported]
    rw [mem_queueCalls rfl]
    simp only [mem_queueCalls (n := .deleted _ _) rfl]
  rw [hreported]
  refine step_induction setup c s fun t hcourse => ?_
  cases hcourse with
  | ended at_ => exact absurd at_ h
  | waiting at_ polled =>
    have token : ¬ c.cancelled = true := fun hc => by
      simpa [polled] using (Gate.poll_eq_refused (g := c.gate) (i := ())).mpr hc
    simp [at_, token, Reported, ending?]
  | refused at_ polled =>
    have token := Gate.poll_eq_refused.mp (congrArg Prod.snd polled)
    simp [conclude, token]
  | granted at_ polled =>
    have token : ¬ c.cancelled = true := fun hc => by
      simpa [polled] using (Gate.poll_eq_refused (g := c.gate) (i := ())).mpr hc
    simp only [beginReceive, Reported, ending?, at_, token]
    split <;> simp [queueCalls, Notice.isQueueCall]
  | interrupted at_ token =>
    simp [finish_consumer, stageAfter_eq_ended, token]
  | receiving at_ token early =>
    simp [at_, token, Reported, ending?, Nat.not_le_of_lt early]
  | received at_ token due =>
    simpa [token] using receive_ends_iff at_ token due
  | @handled d item wait at_ =>
    have hf := follow_ends_iff setup c d (resume_queueCalls c s item wait)
    rw [hf]
    cases hc : c.cancelled with
    | true => simp [Reported, resume, hc, AttemptProgress.ending?]
    | false => simp [Reported, ending?, at_]
  | left at_ token =>
    simp [conclude, token]
  | pausing at_ token early =>
    simp [at_, token, Reported, ending?]
  | awakened at_ token due =>
    simp [at_, token, Reported, ending?]

theorem follow_cancelled {run : AttemptRun σ} :
    (c.follow setup d run).consumer.cancelled = c.cancelled := by
  cases he : run.progress with
  | suspended item wait => rw [follow_suspended he]
  | ended ending =>
    rw [follow_ended he]
    cases hv : (ending.verdict setup.options.maxAttempts d.attempt).deletes with
    | false => simp only [Turn.after, (close_of_keeps (c := c) hv).2.2]
    | true => simp only [Turn.after, (close_of_deletes (c := c) hv).2.2]

theorem step_cancelled : (c.step setup s).consumer.cancelled = c.cancelled := by
  refine step_induction setup c s fun t hcourse => ?_
  cases hcourse with
  | interrupted at_ token => rw [finish_consumer]
  | received at_ token due =>
    unfold receive
    dsimp only
    split
    · simp only [Turn.after, finish_consumer]
    · simp only [Turn.after, finish_consumer]
    · exact follow_cancelled
  | handled at_ => exact follow_cancelled
  | _ => rfl

end Consumer

namespace Chronicle
variable {r : Chronicle σ} {event : Event} {events : List Event}

theorem next_cancelled :
    (r.next setup event).site.consumer.cancelled = true ↔
      r.site.consumer.cancelled = true ∨ event = .command .cancel := by
  cases event with
  | step =>
    change (r.site.consumer.step setup r.site.surroundings).consumer.cancelled = true ↔ _
    rw [Consumer.step_cancelled]
    simp
  | command command =>
    cases command <;> simp [next, Site.happen, Site.apply, Site.withGate, Site.withQueue]
  | tick span => simp [next, Site.happen, Site.moveClock]
  | foreign call => simp [next, Site.happen, Site.withQueue]

theorem run_cancelled :
    (r.run setup events).site.consumer.cancelled = true ↔
      r.site.consumer.cancelled = true ∨ .command .cancel ∈ events := by
  induction events generalizing r with
  | nil => simp [run]
  | cons event rest ih =>
    change ((r.next setup event).run setup rest).site.consumer.cancelled = true ↔ _
    rw [ih, next_cancelled, List.mem_cons, or_assoc]
    simp only [eq_comm]

/-- Only a step goes to the end, and nothing leads away from it. -/
theorem next_ended :
    (r.next setup event).site.consumer.stage = .ended ↔
      r.site.consumer.stage = .ended ∨
        event = .step ∧ r.site.consumer.MeetsCancellation setup r.site.surroundings := by
  cases event with
  | step =>
    change (r.site.consumer.step setup r.site.surroundings).consumer.stage = .ended ↔ _
    by_cases h : r.site.consumer.stage = .ended
    · simp [Consumer.step, h]
    · simp [Consumer.step_ends_iff h, h]
  | command command =>
    change (r.site.apply setup command).1.consumer.stage = .ended ↔ _
    simp [apply_keeps]
  | tick span => simp [next, Site.happen, Site.moveClock]
  | foreign call => simp [next, Site.happen, Site.withQueue]

theorem run_ended :
    (r.run setup events).site.consumer.stage = .ended ↔
      r.site.consumer.stage = .ended ∨ ∃ before after, events = before ++ .step :: after ∧
        (r.run setup before).site.consumer.MeetsCancellation setup
          (r.run setup before).site.surroundings := by
  induction events generalizing r with
  | nil => simp [run]
  | cons event rest ih =>
    change ((r.next setup event).run setup rest).site.consumer.stage = .ended ↔ _
    rw [ih, next_ended, or_assoc]
    refine or_congr_right ⟨?_, ?_⟩
    · rintro (⟨rfl, hmeets⟩ | ⟨before, after, rfl, hmeets⟩)
      · exact ⟨[], rest, rfl, hmeets⟩
      · exact ⟨event :: before, after, rfl, hmeets⟩
    · rintro ⟨before, after, he, hmeets⟩
      cases before with
      | nil =>
        obtain ⟨rfl, rfl⟩ := List.cons.inj he
        exact .inl ⟨rfl, hmeets⟩
      | cons first before =>
        obtain ⟨rfl, rfl⟩ := List.cons.inj he
        exact .inr ⟨before, after, rfl, hmeets⟩

/-- The loop of a consumer has ended exactly if one of its steps came after the cancellation of
the service, or if the receive, the delete or the dispatch of one of its steps answered with a
cancellation. -/
theorem isStopped_iff (setup : ConsumerSetup ι σ) (workOnStartup createQueue : Bool)
    (plan : FaultPlan) (ofDay : Instant) (handlers : σ) (events : List Event) :
    let start := opening setup workOnStartup createQueue plan ofDay handlers
    (start.run setup events).site.consumer.isStopped = true ↔
      ∃ before after, events = before ++ .step :: after ∧
        let site := (start.run setup before).site
        let turn := site.consumer.step setup site.surroundings
        (.command .cancel ∈ before ∨
          .received (.error .cancelled) ∈ turn.notices ∨
          (∃ id, .deleted id (.error .cancelled) ∈ turn.notices) ∨
          ∃ item, site.consumer.ending? setup site.surroundings =
            some (.dispatched item (.error .cancelled))) := by
  intro start
  have htoken : ∀ before, (start.run setup before).site.consumer.cancelled = true ↔
      .command .cancel ∈ before := by
    intro before
    rw [run_cancelled]
    simp [start, opening, Site.initial, Consumer.start]
  rw [Consumer.isStopped_iff_stage, run_ended]
  simp only [Consumer.MeetsCancellation, htoken]
  simp [start, opening, Site.initial, Consumer.start]

/-- The loop of a consumer that nobody has cancelled ends when a handler reports a cancellation. -/
theorem isStopped_of_uncancelled :
    let setup := ConsumerSetup.uniform 3 (.error .cancelled)
    let body := "\x7b\"id\":\"a\",\"type\":\"t\"\x7d"
    let events : List Event := [.command (.send body .zero), .step, .step]
    .command .cancel ∉ events ∧
      ((opening setup true true .none 0 0).run setup events).site.consumer.isStopped = true :=
  ⟨by simp, by decide +kernel⟩

end Chronicle
end WorkQueue
