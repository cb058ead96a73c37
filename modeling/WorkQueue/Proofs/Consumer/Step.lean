import WorkQueue.Consumer.Journal

/-! # What a step of the consumer does

`step_course` names every course that a step can take. An attempt touches neither the queue nor
the gate; it ends, or its handler waits. Closing an attempt gives the permit back and deletes
the message exactly where the verdict says so.
-/
namespace WorkQueue
variable {ι σ : Type} {setup : ConsumerSetup ι σ}

/-! ## Queue calls among notices -/

/-- Whether a queue call is behind a notice. -/
def Notice.isQueueCall : Notice → Bool
  | .received _ => true
  | .deleted _ _ => true
  | _ => false

def queueCalls (notices : List Notice) : List Notice := notices.filter Notice.isQueueCall

@[simp] theorem queueCalls_nil : queueCalls [] = [] := rfl

@[simp] theorem queueCalls_append (xs ys : List Notice) :
    queueCalls (xs ++ ys) = queueCalls xs ++ queueCalls ys := List.filter_append ..

@[simp] theorem queueCalls_changes (replica : String) (changes : List GateNotice) :
    queueCalls (changes.map (GateNotice.toNotice replica)) = [] := by
  refine List.filter_eq_nil_iff.mpr fun n hn => ?_
  obtain ⟨change, -, rfl⟩ := List.mem_map.mp hn
  cases change <;> simp [GateNotice.toNotice, Notice.isQueueCall]

@[simp] theorem queueCalls_reports (reports : List Report) :
    queueCalls (reports.map Report.toNotice) = [] := by
  refine List.filter_eq_nil_iff.mpr fun n hn => ?_
  obtain ⟨what, -, rfl⟩ := List.mem_map.mp hn
  cases what <;> simp [Report.toNotice, Notice.isQueueCall]

@[simp] theorem queueCalls_production {α : Type} [Payload α] (p : α) (delay : Duration)
    (answer : Except Failure Receipt) : queueCalls (Producer.notices p delay answer) = [] := by
  cases answer <;> rfl

theorem mem_queueCalls {n : Notice} {notices : List Notice} (h : n.isQueueCall = true) :
    n ∈ queueCalls notices ↔ n ∈ notices := by
  simp [queueCalls, h]

/-! ## The end of an iteration -/

def Verdict.deletes : Verdict → Bool
  | .acknowledge => true
  | .discard _ => true
  | .leave => false
  | .abandon => false

/-- Where the consumer goes from a message that it does not delete. -/
def Verdict.onward : Verdict → Stage
  | .abandon => .ended
  | _ => .atGate

/-- What becomes of the message of an attempt that has ended. -/
def Ending.verdict (maxAttempts attempt : Nat) : Ending → Verdict
  | .malformed _ => .discard .malformed
  | .dispatched _ result => WorkQueue.verdict maxAttempts attempt result

/-- Where the consumer goes from the end of an iteration. -/
def stageAfter (setup : ConsumerSetup ι σ) (now : Instant) : Except Failure IterationEnd → Stage
  | .ok .processed => .atGate
  | .ok .queueEmpty => .pausing (now + setup.options.pollInterval.toNanos)
  | .error failure =>
    if failure.isCancellation then .ended
    else .pausing (now + setup.options.pollInterval.toNanos)

/-! ## What an attempt is about -/

/-- The payload that a work item is handled as, if its type is registered and it decodes. -/
def ConsumerSetup.payloadOf? (setup : ConsumerSetup ι σ) (item : WorkItem) : Option ι :=
  match setup.registry.resolve item.workItemType with
  | .error _ => none
  | .ok registration => (registration.decode item).toOption

def ConsumerSetup.payload? (setup : ConsumerSetup ι σ) (body : String) : Option ι :=
  match WorkItem.parse body with
  | .error _ => none
  | .ok item => setup.payloadOf? item

/-- The memory of the handlers after a delivery of a body. -/
def ConsumerSetup.handled (setup : ConsumerSetup ι σ) (body : String) (handlers : σ) : σ :=
  match setup.payload? body with
  | some payload => (setup.handler.handle payload handlers).1
  | none => handlers

/-- Why a work item is not handled: nobody is registered for its type, or it does not decode. -/
def ConsumerSetup.Unserved (setup : ConsumerSetup ι σ) (item : WorkItem) (failure : Failure) :
    Prop :=
  setup.registry.resolve item.workItemType = .error failure ∨
    ∃ registration, setup.registry.resolve item.workItemType = .ok registration ∧
      registration.decode item = .error failure

/-- An ending that a body can have: a malformed body is refused, and only a work item that is
handled can end otherwise than by the failure that keeps it from being handled. -/
def Ending.Of (setup : ConsumerSetup ι σ) (body : String) : Ending → Prop
  | .malformed failure => WorkItem.parse body = .error failure
  | .dispatched item result => WorkItem.parse body = .ok item ∧
      ((setup.payloadOf? item).isSome = true ∨
        ∃ failure, result = .error failure ∧ setup.Unserved item failure)

def AttemptProgress.Of (setup : ConsumerSetup ι σ) (body : String) : AttemptProgress → Prop
  | .ended ending => ending.Of setup body
  | .suspended item _ => WorkItem.parse body = .ok item ∧ (setup.payloadOf? item).isSome = true

/-! ## The end of an iteration, and attempts -/

namespace Consumer
variable {c : Consumer} {s : Surroundings σ} {d : Delivery}

theorem finish_consumer (result : Except Failure IterationEnd) :
    (c.finish setup s result).consumer =
      { c with gate := c.gate.release.1, stage := stageAfter setup s.now.running result } := by
  cases result with
  | ok e => cases e <;> rfl
  | error failure =>
    by_cases hc : failure.isCancellation = true <;>
      simp [finish, hc, Turn.after, conclude, pause, stageAfter]

@[simp] theorem finish_surroundings (result : Except Failure IterationEnd) :
    (c.finish setup s result).surroundings = s := by
  cases result with
  | ok e => cases e <;> rfl
  | error failure =>
    by_cases hc : failure.isCancellation = true <;>
      simp [finish, hc, Turn.after, conclude, pause]

@[simp] theorem finish_queueCalls (result : Except Failure IterationEnd) :
    queueCalls (c.finish setup s result).notices = [] := by
  cases result with
  | ok e =>
    cases e <;> simp only [finish, Turn.after, pause, queueCalls_append, queueCalls_changes] <;>
      rfl
  | error failure =>
    by_cases hc : failure.isCancellation = true <;>
      simp only [finish, hc, Turn.after, conclude, pause, queueCalls_append,
        queueCalls_changes] <;> rfl

@[simp] theorem failures_queueCalls (result : Except Failure Unit) :
    queueCalls (failures setup d result) = [] := by
  cases result <;> rfl

def deleteAnswer (setup : ConsumerSetup ι σ) (s : Surroundings σ) (d : Delivery) :
    Except Failure Unit :=
  (s.queue.delete setup.options.queue d.id).2

def afterDelete (setup : ConsumerSetup ι σ) (s : Surroundings σ) (d : Delivery) :
    Surroundings σ :=
  { s with queue := (s.queue.delete setup.options.queue d.id).1 }

theorem acknowledge_eq :
    c.acknowledge setup s d = Turn.after [.deleted d.id (deleteAnswer setup s d)]
      (c.finish setup (afterDelete setup s d)
        ((deleteAnswer setup s d).map fun _ => .processed)) := rfl

theorem after_acknowledge {before : List Notice} (h : queueCalls before = []) :
    (Turn.after before (c.acknowledge setup s d)).surroundings = afterDelete setup s d ∧
    queueCalls (Turn.after before (c.acknowledge setup s d)).notices =
      [.deleted d.id (deleteAnswer setup s d)] ∧
    (Turn.after before (c.acknowledge setup s d)).consumer =
      { c with
        gate := c.gate.release.1
        stage := stageAfter setup s.now.running
          ((deleteAnswer setup s d).map fun _ => .processed) } := by
  refine ⟨?_, ?_, ?_⟩
  · simp [acknowledge_eq, Turn.after]
  · simp only [acknowledge_eq, Turn.after, queueCalls_append, h, finish_queueCalls]
    rfl
  · simp only [acknowledge_eq, Turn.after, finish_consumer]
    rfl

/-- An attempt whose message is deleted makes one queue call, that delete. -/
theorem close_of_deletes {ending : Ending}
    (h : (ending.verdict setup.options.maxAttempts d.attempt).deletes = true) :
    (c.close setup s d ending).surroundings = afterDelete setup s d ∧
    queueCalls (c.close setup s d ending).notices = [.deleted d.id (deleteAnswer setup s d)] ∧
    (c.close setup s d ending).consumer =
      { c with
        gate := c.gate.release.1
        stage := stageAfter setup s.now.running
          ((deleteAnswer setup s d).map fun _ => .processed) } := by
  cases ending with
  | malformed failure =>
    simp only [close]
    exact after_acknowledge rfl
  | dispatched item result =>
    simp only [Ending.verdict] at h
    cases hv : WorkQueue.verdict setup.options.maxAttempts d.attempt result with
    | acknowledge =>
      simp only [close, judge, hv]
      exact after_acknowledge rfl
    | discard reason =>
      simp only [close, judge, hv]
      refine after_acknowledge ?_
      rw [queueCalls_append, failures_queueCalls]
      rfl
    | leave => simp [hv, Verdict.deletes] at h
    | abandon => simp [hv, Verdict.deletes] at h

theorem close_of_keeps {ending : Ending}
    (h : (ending.verdict setup.options.maxAttempts d.attempt).deletes = false) :
    (c.close setup s d ending).surroundings = s ∧
    queueCalls (c.close setup s d ending).notices = [] ∧
    (c.close setup s d ending).consumer =
      { c with
        gate := c.gate.release.1
        stage := (ending.verdict setup.options.maxAttempts d.attempt).onward } := by
  cases ending with
  | malformed failure => cases h
  | dispatched item result =>
    simp only [Ending.verdict] at h ⊢
    cases hv : WorkQueue.verdict setup.options.maxAttempts d.attempt result with
    | acknowledge => simp [hv, Verdict.deletes] at h
    | discard reason => simp [hv, Verdict.deletes] at h
    | leave =>
      simp only [close, judge, hv]
      refine ⟨by simp [Turn.after], ?_, ?_⟩
      · simp only [Turn.after, queueCalls_append, failures_queueCalls, finish_queueCalls]
        rfl
      · simp [Turn.after, finish_consumer, stageAfter, Verdict.onward]
    | abandon =>
      simp only [close, judge, hv]
      refine ⟨by simp [Turn.after], ?_, ?_⟩
      · simp only [Turn.after, queueCalls_append, finish_queueCalls]
        rfl
      · simp [Turn.after, finish_consumer, stageAfter, Failure.isCancellation, Verdict.onward]

theorem afterRun_surroundings {item : WorkItem} {run : ActivityRun} :
    (afterRun s item run).surroundings = { s with released := run.released } := by
  unfold afterRun
  cases run.progress <;> rfl

theorem afterRun_queueCalls {item : WorkItem} {run : ActivityRun} :
    queueCalls (afterRun s item run).notices = [] := by
  unfold afterRun
  cases run.progress <;> simp only [AttemptRun.after, queueCalls_append, queueCalls_reports] <;> rfl

theorem afterRun_of {item : WorkItem} {run : ActivityRun} {body : String}
    (hp : WorkItem.parse body = .ok item) (h : (setup.payloadOf? item).isSome = true) :
    (afterRun s item run).progress.Of setup body := by
  unfold afterRun
  cases run.progress with
  | ended result => exact ⟨hp, .inl h⟩
  | suspended wait => exact ⟨hp, h⟩

theorem attempt_frame (setup : ConsumerSetup ι σ) (c : Consumer) (s : Surroundings σ)
    (d : Delivery) :
    (c.attempt setup s d).surroundings.queue = s.queue ∧
    (c.attempt setup s d).surroundings.now = s.now ∧
    queueCalls (c.attempt setup s d).notices = [] := by
  unfold attempt
  cases WorkItem.parse d.body with
  | error failure => exact ⟨rfl, rfl, rfl⟩
  | ok item =>
    simp only [dispatch, AttemptRun.after]
    cases setup.registry.resolve item.workItemType with
    | error failure => exact ⟨rfl, rfl, rfl⟩
    | ok registration =>
      simp only [afterRun_surroundings, queueCalls_append, afterRun_queueCalls]
      exact ⟨trivial, trivial, rfl⟩

theorem attempt_of (setup : ConsumerSetup ι σ) (c : Consumer) (s : Surroundings σ) (d : Delivery) :
    (c.attempt setup s d).progress.Of setup d.body := by
  unfold attempt
  cases hp : WorkItem.parse d.body with
  | error failure => exact hp
  | ok item =>
    simp only [dispatch, AttemptRun.after]
    cases hr : setup.registry.resolve item.workItemType with
    | error failure => exact ⟨hp, .inr ⟨failure, rfl, .inl hr⟩⟩
    | ok registration =>
      simp only [Handler.activity]
      cases hd : registration.decode item with
      | error failure => exact ⟨hp, .inr ⟨failure, rfl, .inr ⟨registration, hr, hd⟩⟩⟩
      | ok payload =>
        exact afterRun_of hp (by simp [ConsumerSetup.payloadOf?, hr, hd, Except.toOption])

theorem attempt_handlers (setup : ConsumerSetup ι σ) (c : Consumer) (s : Surroundings σ)
    (d : Delivery) :
    (c.attempt setup s d).surroundings.handlers = setup.handled d.body s.handlers := by
  unfold attempt ConsumerSetup.handled ConsumerSetup.payload?
  cases WorkItem.parse d.body with
  | error failure => rfl
  | ok item =>
    simp only [dispatch, AttemptRun.after, ConsumerSetup.payloadOf?]
    cases setup.registry.resolve item.workItemType with
    | error failure => rfl
    | ok registration =>
      simp only [Handler.activity, afterRun_surroundings]
      cases registration.decode item <;> rfl

theorem resume_surroundings (c : Consumer) (s : Surroundings σ) (item : WorkItem)
    (wait : Suspension) :
    ∃ released, (c.resume s item wait).surroundings = { s with released := released } := by
  unfold resume
  split
  · exact ⟨s.released, rfl⟩
  · exact ⟨_, afterRun_surroundings⟩

theorem resume_queueCalls (c : Consumer) (s : Surroundings σ) (item : WorkItem)
    (wait : Suspension) :
    queueCalls (c.resume s item wait).notices = [] := by
  unfold resume
  split
  · rfl
  · exact afterRun_queueCalls

theorem resume_of {item : WorkItem} {wait : Suspension} {body : String}
    (hp : WorkItem.parse body = .ok item) (h : (setup.payloadOf? item).isSome = true) :
    (c.resume s item wait).progress.Of setup body := by
  unfold resume
  split
  · exact ⟨hp, .inl h⟩
  · exact afterRun_of hp h

theorem follow_suspended {run : AttemptRun σ} {item : WorkItem} {wait : Suspension}
    (h : run.progress = .suspended item wait) :
    c.follow setup d run =
      ⟨{ c with stage := .handling d item wait }, run.surroundings, run.notices⟩ := by
  simp [follow, h, Turn.after]

theorem follow_ended {run : AttemptRun σ} {ending : Ending} (h : run.progress = .ended ending) :
    c.follow setup d run = Turn.after run.notices (c.close setup run.surroundings d ending) := by
  simp [follow, h]

/-! ## The courses of a step -/

/-- Every course that a step can take from where the consumer stands. -/
inductive Course (setup : ConsumerSetup ι σ) (c : Consumer) (s : Surroundings σ) : Turn σ → Prop
  | ended (at_ : c.stage = .ended) : Course setup c s ⟨c, s, []⟩
  | waiting {gate : Gate Unit} (at_ : c.stage = .atGate)
      (polled : c.gate.poll () c.cancelled = (gate, .pending)) :
      Course setup c s ⟨{ c with gate := gate }, s, []⟩
  | refused {gate : Gate Unit} (at_ : c.stage = .atGate)
      (polled : c.gate.poll () c.cancelled = (gate, .refused)) :
      Course setup c s (conclude setup { c with gate := gate } s)
  | granted {gate : Gate Unit} (at_ : c.stage = .atGate)
      (polled : c.gate.poll () c.cancelled = (gate, .granted)) :
      Course setup c s (beginReceive setup { c with gate := gate } s)
  | interrupted {ready : Instant} (at_ : c.stage = .receiving ready) (token : c.cancelled = true) :
      Course setup c s (c.finish setup s (.error .cancelled))
  | receiving {ready : Instant} (at_ : c.stage = .receiving ready) (token : c.cancelled = false)
      (early : s.now.running < ready) : Course setup c s ⟨c, s, []⟩
  | received {ready : Instant} (at_ : c.stage = .receiving ready) (token : c.cancelled = false)
      (due : ready ≤ s.now.running) : Course setup c s (c.receive setup s)
  | handled {d : Delivery} {item : WorkItem} {wait : Suspension}
      (at_ : c.stage = .handling d item wait) :
      Course setup c s (c.follow setup d (c.resume s item wait))
  | left {until_ : Instant} (at_ : c.stage = .pausing until_) (token : c.cancelled = true) :
      Course setup c s (c.conclude setup s)
  | pausing {until_ : Instant} (at_ : c.stage = .pausing until_) (token : c.cancelled = false)
      (early : s.now.running < until_) : Course setup c s ⟨c, s, []⟩
  | awakened {until_ : Instant} (at_ : c.stage = .pausing until_) (token : c.cancelled = false)
      (due : until_ ≤ s.now.running) : Course setup c s ⟨{ c with stage := .atGate }, s, []⟩

theorem step_course (setup : ConsumerSetup ι σ) (c : Consumer) (s : Surroundings σ) :
    Course setup c s (c.step setup s) := by
  cases hs : c.stage with
  | atGate =>
    cases hp : c.gate.poll () c.cancelled with
    | mk gate answer =>
      cases answer with
      | pending =>
        have hstep : c.step setup s = ⟨{ c with gate := gate }, s, []⟩ := by
          simp only [step, hs, hp]
        exact hstep ▸ .waiting hs hp
      | granted =>
        have hstep : c.step setup s = beginReceive setup { c with gate := gate } s := by
          simp only [step, hs, hp]
        exact hstep ▸ .granted hs hp
      | refused =>
        have hstep : c.step setup s = conclude setup { c with gate := gate } s := by
          simp only [step, hs, hp]
        exact hstep ▸ .refused hs hp
  | receiving ready =>
    cases hc : c.cancelled with
    | true =>
      have hstep : c.step setup s = c.finish setup s (.error .cancelled) := by
        simp [step, hs, hc]
      exact hstep ▸ .interrupted hs hc
    | false =>
      by_cases hr : ready ≤ s.now.running
      · have hstep : c.step setup s = c.receive setup s := by simp [step, hs, hc, hr]
        exact hstep ▸ .received hs hc hr
      · have hstep : c.step setup s = ⟨c, s, []⟩ := by simp [step, hs, hc, hr]
        exact hstep ▸ .receiving hs hc (Nat.lt_of_not_le hr)
  | handling d item wait =>
    have hstep : c.step setup s = c.follow setup d (c.resume s item wait) := by
      simp only [step, hs]
    exact hstep ▸ .handled hs
  | pausing until_ =>
    cases hc : c.cancelled with
    | true =>
      have hstep : c.step setup s = c.conclude setup s := by simp [step, hs, hc]
      exact hstep ▸ .left hs hc
    | false =>
      by_cases hr : until_ ≤ s.now.running
      · have hstep : c.step setup s = ⟨{ c with stage := .atGate }, s, []⟩ := by
          simp [step, hs, hc, hr]
        exact hstep ▸ .awakened hs hc hr
      · have hstep : c.step setup s = ⟨c, s, []⟩ := by simp [step, hs, hc, hr]
        exact hstep ▸ .pausing hs hc (Nat.lt_of_not_le hr)
  | ended =>
    have hstep : c.step setup s = ⟨c, s, []⟩ := by simp only [step, hs]
    exact hstep ▸ .ended hs

/-- What holds of every course holds of a step. -/
@[elab_as_elim]
theorem step_induction (setup : ConsumerSetup ι σ) (c : Consumer) (s : Surroundings σ)
    {motive : Turn σ → Prop} (courses : ∀ t, Course setup c s t → motive t) :
    motive (c.step setup s) :=
  courses _ (step_course setup c s)

end Consumer
end WorkQueue
