import WorkQueue.Proofs.Consumer.Passage
import WorkQueue.Proofs.Consumer.Stop

/-! # The work of a consumer

A consumer is at work when it receives, has a message handled or deletes one. It shows in the calls
that the queue has counted, in the memory of the handlers and in what is reported. A consumer that
has been cancelled does no more work, and neither does one outside an iteration whose processor is
not working; inside an iteration there is one handler to call and one message to delete.
-/
namespace WorkQueue
variable {ι σ : Type} {setup : ConsumerSetup ι σ}

/-- Whether a notice tells of a receive, of a handler that is called, or of a delete. -/
def Notice.isWork : Notice → Bool
  | .receiving => true
  | .received _ => true
  | .deleted _ _ => true
  | .handlerBuilt _ => true
  | .handlerResolved _ _ => true
  | .handlingBegan _ _ => true
  | _ => false

def Notice.isInvocation : Notice → Bool
  | .handlerResolved _ _ => true
  | _ => false

def Workless (notices : List Notice) : Prop := ∀ n ∈ notices, n.isWork = false

theorem Workless.append {xs ys : List Notice} (hx : Workless xs) (hy : Workless ys) :
    Workless (xs ++ ys) := by
  intro n hn
  rcases List.mem_append.mp hn with hn | hn
  · exact hx n hn
  · exact hy n hn

theorem Workless.countP_isInvocation {xs : List Notice} (h : Workless xs) :
    xs.countP Notice.isInvocation = 0 := by
  refine List.countP_eq_zero.mpr fun n hn hi => ?_
  have hwork := h n hn
  cases n <;> cases hi
  cases hwork

theorem workless_changes (replica : String) (changes : List GateNotice) :
    Workless (changes.map (GateNotice.toNotice replica)) := by
  intro n hn
  obtain ⟨change, -, rfl⟩ := List.mem_map.mp hn
  cases change <;> rfl

theorem workless_production {α : Type} [Payload α] (p : α) (delay : Duration)
    (answer : Except Failure Receipt) : Workless (Producer.notices p delay answer) := by
  cases answer <;> simp [Workless, Producer.notices, Notice.isWork]

theorem countP_reports (reports : List Report) :
    (reports.map Report.toNotice).countP Notice.isInvocation = 0 := by
  refine List.countP_eq_zero.mpr fun n hn hi => ?_
  obtain ⟨what, -, rfl⟩ := List.mem_map.mp hn
  cases what <;> cases hi

/-! ## Turns without work -/

/-- A turn that leaves the queue and the handlers alone. -/
structure Turn.Quiet (s : Surroundings σ) (t : Turn σ) : Prop where
  queue : t.surroundings.queue = s.queue
  handlers : t.surroundings.handlers = s.handlers
  reported : Workless t.notices

namespace Consumer
variable {c : Consumer} {s : Surroundings σ} {d : Delivery}

theorem finish_workless (setup : ConsumerSetup ι σ) (c : Consumer) (s : Surroundings σ)
    (result : Except Failure IterationEnd) : Workless (c.finish setup s result).notices := by
  unfold finish
  refine (workless_changes _ _).append ?_
  cases result with
  | ok e => cases e <;> simp [Workless, pause, Notice.isWork]
  | error failure =>
    by_cases hc : failure.isCancellation = true <;>
      simp [hc, Workless, conclude, pause, Notice.isWork]

theorem finish_quiet (setup : ConsumerSetup ι σ) (c : Consumer) (s : Surroundings σ)
    (result : Except Failure IterationEnd) : (c.finish setup s result).Quiet s :=
  ⟨by rw [finish_surroundings], by rw [finish_surroundings], finish_workless setup c s result⟩

theorem conclude_quiet (setup : ConsumerSetup ι σ) (c : Consumer) (s : Surroundings σ) :
    (c.conclude setup s).Quiet s :=
  ⟨rfl, rfl, by simp [Workless, conclude, Notice.isWork]⟩

theorem stay_quiet (c : Consumer) (s : Surroundings σ) : (⟨c, s, []⟩ : Turn σ).Quiet s :=
  ⟨rfl, rfl, List.forall_mem_nil _⟩

/-- A cancelled consumer abandons the attempt that it has in hand. -/
theorem follow_resume_of_cancelled (setup : ConsumerSetup ι σ) (s : Surroundings σ) (d : Delivery)
    (item : WorkItem) (wait : Suspension) (token : c.cancelled = true) :
    c.follow setup d (c.resume s item wait) =
      Turn.after [.attemptMeasured item.workItemType false]
        (Turn.after [.attemptEnded .cancelled, .attemptCancelled]
          (c.finish setup s (.error .cancelled))) := by
  simp [resume, token, follow, close, judge, verdict, Failure.isCancellation]

theorem step_quiet_of_cancelled (setup : ConsumerSetup ι σ) (s : Surroundings σ)
    (token : c.cancelled = true) : (c.step setup s).Quiet s := by
  refine step_induction setup c s fun t hcourse => ?_
  cases hcourse with
  | ended at_ => exact stay_quiet c s
  | waiting at_ polled => exact stay_quiet _ s
  | refused at_ polled => exact conclude_quiet setup _ s
  | granted at_ polled =>
    have refused := (Gate.poll_eq_refused (g := c.gate) (i := ())).mpr token
    rw [polled] at refused
    cases refused
  | interrupted at_ _ => exact finish_quiet setup c s _
  | receiving at_ live early =>
    rw [token] at live
    cases live
  | received at_ live due =>
    rw [token] at live
    cases live
  | @handled d item wait at_ =>
    rw [follow_resume_of_cancelled setup s d item wait token]
    have hend := finish_quiet setup c s (.error .cancelled)
    have hnotes : Workless [.attemptMeasured item.workItemType false, .attemptEnded .cancelled,
        .attemptCancelled] := by simp [Workless, Notice.isWork]
    exact ⟨hend.queue, hend.handlers, hnotes.append hend.reported⟩
  | left at_ _ => exact conclude_quiet setup c s
  | pausing at_ live early => exact stay_quiet c s
  | awakened at_ live due => exact stay_quiet _ s

/-- Nothing that a consumer does outside an iteration is work as long as the processor is not
working. -/
theorem step_quiet_of_closed (setup : ConsumerSetup ι σ) (s : Surroundings σ)
    (outside : c.stage.inIteration = false) (closed : c.gate.state ≠ .working) :
    (c.step setup s).Quiet s := by
  refine step_induction setup c s fun t hcourse => ?_
  cases hcourse with
  | ended at_ => exact stay_quiet c s
  | waiting at_ polled => exact stay_quiet _ s
  | refused at_ polled => exact conclude_quiet setup _ s
  | granted at_ polled =>
    have answered := c.gate.answered_poll () c.cancelled
    rw [polled] at answered
    exact absurd answered.2.1 closed
  | interrupted at_ token => simp [at_, Stage.inIteration] at outside
  | receiving at_ token early => simp [at_, Stage.inIteration] at outside
  | received at_ token due => simp [at_, Stage.inIteration] at outside
  | handled at_ => simp [at_, Stage.inIteration] at outside
  | left at_ token => exact conclude_quiet setup c s
  | pausing at_ token early => exact stay_quiet c s
  | awakened at_ token due => exact stay_quiet _ s

end Consumer

/-! ## What an iteration has left to do -/

/-- The deletes that the iteration may still issue. -/
def Stage.deletesLeft (stage : Stage) : Nat := if stage.inIteration then 1 else 0

/-- The handlers that the iteration may still call. -/
def Stage.invocationsLeft : Stage → Nat
  | .receiving _ => 1
  | _ => 0

theorem Stage.deletesLeft_le_one (stage : Stage) : stage.deletesLeft ≤ 1 := by
  unfold deletesLeft
  split <;> omega

theorem Stage.invocationsLeft_le_one (stage : Stage) : stage.invocationsLeft ≤ 1 := by
  cases stage <;> simp [invocationsLeft]

theorem Stage.left_of_outside {stage : Stage} (h : stage.inIteration = false) :
    stage.deletesLeft = 0 ∧ stage.invocationsLeft = 0 := by
  cases stage <;> first | exact ⟨rfl, rfl⟩ | cases h

/-- A turn that does no more than the iteration had left to do. -/
structure Turn.Within (stage : Stage) (s : Surroundings σ) (t : Turn σ) : Prop where
  deletes : t.surroundings.queue.deletes + t.consumer.stage.deletesLeft ≤
    s.queue.deletes + stage.deletesLeft
  invocations : t.notices.countP Notice.isInvocation + t.consumer.stage.invocationsLeft ≤
    stage.invocationsLeft

theorem Turn.Quiet.within {s : Surroundings σ} {t : Turn σ} (h : t.Quiet s)
    (outside : t.consumer.stage.inIteration = false) (stage : Stage) : t.Within stage s := by
  obtain ⟨hd, hi⟩ := Stage.left_of_outside outside
  constructor
  · rw [h.queue, hd]
    omega
  · rw [h.reported.countP_isInvocation, hi]
    omega

namespace Consumer
variable {c : Consumer} {s : Surroundings σ} {d : Delivery}

theorem finish_invocations (setup : ConsumerSetup ι σ) (c : Consumer) (s : Surroundings σ)
    (result : Except Failure IterationEnd) :
    (c.finish setup s result).notices.countP Notice.isInvocation = 0 :=
  (finish_workless setup c s result).countP_isInvocation

theorem acknowledge_invocations (setup : ConsumerSetup ι σ) (c : Consumer) (s : Surroundings σ)
    (d : Delivery) : (c.acknowledge setup s d).notices.countP Notice.isInvocation = 0 := by
  rw [acknowledge_eq]
  simp only [Turn.after, List.countP_append, finish_invocations]
  rfl

theorem failures_invocations (setup : ConsumerSetup ι σ) (d : Delivery)
    (result : Except Failure Unit) : (failures setup d result).countP Notice.isInvocation = 0 := by
  cases result <;> rfl

theorem close_invocations (setup : ConsumerSetup ι σ) (c : Consumer) (s : Surroundings σ)
    (d : Delivery) (ending : Ending) :
    (c.close setup s d ending).notices.countP Notice.isInvocation = 0 := by
  cases ending with
  | malformed failure =>
    simp only [close, Turn.after, List.countP_append, acknowledge_invocations]
    rfl
  | dispatched item result =>
    cases hv : WorkQueue.verdict setup.options.maxAttempts d.attempt result with
    | acknowledge =>
      simp only [close, judge, hv, Turn.after, List.countP_append, acknowledge_invocations]
      rfl
    | discard reason =>
      simp only [close, judge, hv, Turn.after, List.countP_append, acknowledge_invocations,
        failures_invocations]
      rfl
    | leave =>
      simp only [close, judge, hv, Turn.after, List.countP_append, failures_invocations,
        finish_invocations]
      rfl
    | abandon =>
      simp only [close, judge, hv, Turn.after, List.countP_append, finish_invocations]
      rfl

theorem close_deletes (setup : ConsumerSetup ι σ) (c : Consumer) (s : Surroundings σ)
    (d : Delivery) (ending : Ending) :
    (c.close setup s d ending).surroundings.queue.deletes ≤ s.queue.deletes + 1 ∧
    (c.close setup s d ending).consumer.stage.inIteration = false := by
  cases hv : (ending.verdict setup.options.maxAttempts d.attempt).deletes with
  | false =>
    obtain ⟨hs, -, hc⟩ := close_of_keeps (c := c) (s := s) hv
    rw [hs, hc]
    exact ⟨Nat.le_succ _, Verdict.onward_inIteration _⟩
  | true =>
    obtain ⟨hs, -, hc⟩ := close_of_deletes (c := c) (s := s) hv
    rw [hs, hc]
    refine ⟨?_, stageAfter_inIteration setup _ _⟩
    simp only [afterDelete, UnreliableQueue.deletes_delete]
    omega

theorem afterRun_invocations (s : Surroundings σ) (item : WorkItem) (run : ActivityRun) :
    (afterRun s item run).notices.countP Notice.isInvocation = 0 := by
  unfold afterRun
  cases run.progress <;>
    simp only [AttemptRun.after, List.countP_append, countP_reports] <;> rfl

theorem resume_invocations (c : Consumer) (s : Surroundings σ) (item : WorkItem)
    (wait : Suspension) : (c.resume s item wait).notices.countP Notice.isInvocation = 0 := by
  unfold resume
  split
  · rfl
  · exact afterRun_invocations s item _

theorem attempt_invocations (setup : ConsumerSetup ι σ) (c : Consumer) (s : Surroundings σ)
    (d : Delivery) : (c.attempt setup s d).notices.countP Notice.isInvocation ≤ 1 := by
  unfold attempt
  cases WorkItem.parse d.body with
  | error failure => exact Nat.zero_le 1
  | ok item =>
    simp only [dispatch, AttemptRun.after]
    cases setup.registry.resolve item.workItemType with
    | error failure => exact Nat.zero_le 1
    | ok registration =>
      simp only [List.countP_append, afterRun_invocations]
      exact Nat.le_refl 1

/-- Going on with a delivery issues one delete at most, and calls no handler. -/
theorem follow_within (setup : ConsumerSetup ι σ) (c : Consumer) (d : Delivery)
    (run : AttemptRun σ) :
    (c.follow setup d run).surroundings.queue.deletes +
        (c.follow setup d run).consumer.stage.deletesLeft ≤
      run.surroundings.queue.deletes + 1 ∧
    (c.follow setup d run).notices.countP Notice.isInvocation =
      run.notices.countP Notice.isInvocation ∧
    (c.follow setup d run).consumer.stage.invocationsLeft = 0 := by
  cases he : run.progress with
  | suspended item wait =>
    rw [follow_suspended he]
    exact ⟨Nat.le_refl _, rfl, rfl⟩
  | ended ending =>
    rw [follow_ended he]
    obtain ⟨hdeletes, houtside⟩ := close_deletes setup c run.surroundings d ending
    obtain ⟨hd, hi⟩ := Stage.left_of_outside houtside
    refine ⟨?_, ?_, hi⟩
    · simp only [Turn.after, hd]
      exact hdeletes
    · simp only [Turn.after, List.countP_append, close_invocations, Nat.add_zero]

theorem finish_within (setup : ConsumerSetup ι σ) (c : Consumer) (s : Surroundings σ)
    (result : Except Failure IterationEnd) (stage : Stage) :
    (c.finish setup s result).Within stage s := by
  refine (finish_quiet setup c s result).within ?_ stage
  rw [finish_consumer]
  exact stageAfter_inIteration setup _ _

theorem receive_within (setup : ConsumerSetup ι σ) (c : Consumer) (s : Surroundings σ)
    (ready : Instant) : (c.receive setup s).Within (.receiving ready) s := by
  have hcount : (s.queue.receive s.now setup.options.queue setup.options.invisibility).1.deletes =
      s.queue.deletes := UnreliableQueue.deletes_receive
  unfold receive
  cases hr : s.queue.receive s.now setup.options.queue setup.options.invisibility with
  | mk queue answer =>
    rw [hr] at hcount
    dsimp only at hcount ⊢
    cases answer with
    | error failure =>
      obtain ⟨hd, hi⟩ := finish_within setup c { s with queue := queue } (.error failure)
        (.receiving ready)
      exact ⟨by simpa only [Turn.after, hcount] using hd, hi⟩
    | ok found =>
      cases found with
      | none =>
        obtain ⟨hd, hi⟩ := finish_within setup c { s with queue := queue } (.ok .queueEmpty)
          (.receiving ready)
        exact ⟨by simpa only [Turn.after, hcount] using hd, hi⟩
      | some d =>
        -- Of all that a receive leads to only the attempt at a delivery calls or deletes.
        obtain ⟨hqueue, -, -⟩ := attempt_frame setup c { s with queue := queue } d
        have hone := attempt_invocations setup c { s with queue := queue } d
        obtain ⟨hd, hi, hleft⟩ :=
          follow_within setup c d (c.attempt setup { s with queue := queue } d)
        rw [hqueue, hcount] at hd
        refine ⟨hd, ?_⟩
        have hanswer : [Notice.received (.ok (some d))].countP Notice.isInvocation = 0 := rfl
        simp only [Turn.after, List.countP_append, hi, hleft, hanswer, Nat.zero_add, Nat.add_zero]
        exact hone

theorem stay_within {c' : Consumer} (s : Surroundings σ) (h : c'.stage = c.stage) :
    (⟨c', s, []⟩ : Turn σ).Within c.stage s := by
  constructor
  · exact Nat.le_of_eq (by rw [h])
  · rw [h]
    exact Nat.le_of_eq (Nat.zero_add _)

/-- A step does no more than the iteration had left to do, as long as the processor is not working
and no iteration begins. -/
theorem step_within (setup : ConsumerSetup ι σ) (s : Surroundings σ)
    (closed : c.gate.state ≠ .working) : (c.step setup s).Within c.stage s := by
  refine step_induction setup c s fun t hcourse => ?_
  cases hcourse with
  | ended at_ => exact stay_within s rfl
  | waiting at_ polled => exact stay_within s rfl
  | refused at_ polled => exact (conclude_quiet setup _ s).within rfl _
  | granted at_ polled =>
    have answered := c.gate.answered_poll () c.cancelled
    rw [polled] at answered
    exact absurd answered.2.1 closed
  | interrupted at_ token => exact finish_within setup c s _ _
  | receiving at_ token early => exact stay_within s rfl
  | received at_ token due => exact at_ ▸ receive_within setup c s _
  | @handled d item wait at_ =>
    obtain ⟨released, hsur⟩ := resume_surroundings c s item wait
    obtain ⟨hd, hi, hleft⟩ := follow_within setup c d (c.resume s item wait)
    rw [hsur] at hd
    refine ⟨by rwa [at_], ?_⟩
    rw [hi, hleft, resume_invocations]
    exact Nat.zero_le _
  | left at_ token => exact (conclude_quiet setup c s).within rfl _
  | pausing at_ token early => exact stay_within s rfl
  | awakened at_ token due => exact (stay_quiet _ s).within rfl _

end Consumer

/-! ## Runs without work -/

namespace UnreliableQueue
variable {q : UnreliableQueue} {queue body : String} {now : Moment} {delay : Duration}

theorem receives_send : (q.send now queue body delay).1.receives = q.receives := by
  unfold send
  dsimp only
  split <;> rfl

end UnreliableQueue

theorem Producer.submit_counts {α : Type} [Payload α] (producer : Producer) (q : UnreliableQueue)
    (now : Moment) (p : α) (delay : Duration) :
    (producer.submit q now p delay).1.receives = q.receives ∧
    (producer.submit q now p delay).1.deletes = q.deletes := by
  unfold Producer.submit
  split
  · exact ⟨rfl, rfl⟩
  · exact ⟨UnreliableQueue.receives_send, UnreliableQueue.deletes_send⟩

/-- A change of the surroundings without a receive, a delete or a call of a handler. -/
structure Surroundings.Spared (s t : Surroundings σ) : Prop where
  receives : t.queue.receives = s.queue.receives
  deletes : t.queue.deletes = s.queue.deletes
  handlers : t.handlers = s.handlers

theorem Surroundings.Spared.trans {s t u : Surroundings σ} (hst : s.Spared t) (htu : t.Spared u) :
    s.Spared u :=
  ⟨htu.receives.trans hst.receives, htu.deletes.trans hst.deletes,
    htu.handlers.trans hst.handlers⟩

theorem Turn.Quiet.spared {s : Surroundings σ} {t : Turn σ} (h : t.Quiet s) :
    s.Spared t.surroundings :=
  ⟨by rw [h.queue], by rw [h.queue], h.handlers⟩

theorem Site.apply_spared (setup : ConsumerSetup ι σ) (site : Site σ) (command : Command) :
    site.surroundings.Spared (site.apply setup command).1.surroundings ∧
    Workless (site.apply setup command).2.2 := by
  cases command with
  | start => exact ⟨⟨rfl, rfl, rfl⟩, workless_changes _ _⟩
  | stop => exact ⟨⟨rfl, rfl, rfl⟩, workless_changes _ _⟩
  | send body delay =>
    exact ⟨⟨UnreliableQueue.receives_send, UnreliableQueue.deletes_send, rfl⟩,
      List.forall_mem_nil _⟩
  | produce payload delay =>
    obtain ⟨hreceives, hdeletes⟩ := Producer.submit_counts ⟨setup.options.queue⟩
      site.surroundings.queue site.surroundings.now payload.value delay
    exact ⟨⟨hreceives, hdeletes, rfl⟩, workless_production _ _ _⟩
  | _ => exact ⟨⟨rfl, rfl, rfl⟩, List.forall_mem_nil _⟩

/-- Only a step of the consumer does work. -/
theorem Site.happen_spared (setup : ConsumerSetup ι σ) (site : Site σ) (event : Event)
    (h : event ≠ .step) :
    site.surroundings.Spared (site.happen setup event).1.surroundings ∧
    Workless (site.happen setup event).2.2 := by
  cases event with
  | step => exact absurd rfl h
  | command command => exact site.apply_spared setup command
  | tick span => exact ⟨⟨rfl, rfl, rfl⟩, List.forall_mem_nil _⟩
  | foreign call => exact ⟨⟨rfl, rfl, rfl⟩, List.forall_mem_nil _⟩

namespace Chronicle

/-- What the events of a run report, in their order. -/
def reported (setup : ConsumerSetup ι σ) (r : Chronicle σ) : List Event → List Notice
  | [] => []
  | event :: rest => (r.site.happen setup event).2.2 ++ (r.next setup event).reported setup rest

/-- A stretch of a run without a receive, a delete or a call of a handler. -/
structure Quiet (setup : ConsumerSetup ι σ) (r : Chronicle σ) (events : List Event) : Prop where
  spared : r.site.surroundings.Spared (r.run setup events).site.surroundings
  reported : Workless (r.reported setup events)

/-- A run is quiet if a condition that its events preserve makes every step quiet. -/
theorem quiet_of_invariant (setup : ConsumerSetup ι σ) (r : Chronicle σ) (events : List Event)
    (invariant : Chronicle σ → Prop) (holds : invariant r)
    (preserved : ∀ event ∈ events, ∀ r, invariant r → invariant (r.next setup event))
    (quiet : ∀ r : Chronicle σ, invariant r →
      (r.site.consumer.step setup r.site.surroundings).Quiet r.site.surroundings) :
    r.Quiet setup events := by
  induction events generalizing r with
  | nil => exact ⟨⟨rfl, rfl, rfl⟩, List.forall_mem_nil _⟩
  | cons event rest ih =>
    have hfirst : r.site.surroundings.Spared (r.next setup event).site.surroundings ∧
        Workless (r.site.happen setup event).2.2 := by
      by_cases he : event = .step
      · subst he
        exact ⟨(quiet r holds).spared, (quiet r holds).reported⟩
      · exact r.site.happen_spared setup event he
    have hrest := ih (r.next setup event) (preserved event List.mem_cons_self r holds)
      fun e hm => preserved e (List.mem_cons_of_mem _ hm)
    exact ⟨hfirst.1.trans hrest.spared, hfirst.2.append hrest.reported⟩

end Chronicle
end WorkQueue
