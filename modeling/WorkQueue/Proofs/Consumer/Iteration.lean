import WorkQueue.Proofs.Consumer.Booking
import WorkQueue.Proofs.Consumer.Stop
import WorkQueue.Proofs.Consumer.Work

/-! # What an iteration writes down

An iteration passes the gate, receives, and follows a delivery to the end of its attempt. `Written`
says of one step where it leads, which queue calls it makes, and what the journal has of deliveries
afterwards. The consumer goes on without a pause only from an iteration that was processed: its
attempt was not cancelled, and its delete, if it issued one, was answered.
-/
namespace WorkQueue
variable {ι σ : Type} {setup : ConsumerSetup ι σ}

/-- Whether the consumer neither pauses nor has come to its end. -/
def Stage.goesOn : Stage → Bool
  | .pausing _ => false
  | .ended => false
  | _ => true

/-- How many iterations have begun whose receive has not been answered. -/
def Stage.begun : Stage → Nat
  | .receiving _ => 1
  | _ => 0

theorem Stage.begun_le_one (stage : Stage) : stage.begun ≤ 1 := by
  unfold begun
  split <;> decide

/-- Whether an attempt, if it has ended, was not cancelled, and no delete of it has failed. -/
def Entry.processed (setup : ConsumerSetup ι σ) (entry : Entry) : Bool :=
  entry.ending.all (fun ending =>
    ending.verdict setup.options.maxAttempts entry.delivery.attempt != .abandon) &&
  entry.deletes.all fun delete => delete.2.isOk

/-- Whether the queue had nothing to hand out, or failed to receive or to delete otherwise than by
a cancellation. -/
def Notice.isSetback : Notice → Bool
  | .received (.ok none) => true
  | .received (.error failure) => !failure.isCancellation
  | .deleted _ (.error failure) => !failure.isCancellation
  | _ => false

theorem Notice.isQueueCall_of_isSetback {n : Notice} (h : n.isSetback = true) :
    n.isQueueCall = true := by
  cases n <;> first | rfl | cases h

/-! ## Where an iteration ends -/

section
variable {now : Instant}

theorem stageAfter_goesOn {result : Except Failure IterationEnd} :
    (stageAfter setup now result).goesOn = true ↔ result = .ok .processed := by
  cases result with
  | ok e => cases e <;> simp [stageAfter, Stage.goesOn]
  | error failure =>
    cases hc : failure.isCancellation <;> simp [stageAfter, hc, Stage.goesOn]

theorem stageAfter_error {failure : Failure} (genuine : failure.isCancellation = false) :
    stageAfter setup now (.error failure) =
      .pausing (now + setup.options.pollInterval.toNanos) := by
  simp [stageAfter, genuine]

end

/-! ## Following a delivery -/

/-- How going on with a delivery comes out: how its attempt has ended, where the consumer is then,
which queue calls it has made, and which deletes are written down. -/
inductive Followed (setup : ConsumerSetup ι σ) (now : Instant) (d : Delivery) :
    Option Ending → Stage → List Notice → List (Int × Except Failure Unit) → Prop
  | suspended {item : WorkItem} {wait : Suspension} :
      Followed setup now d none (.handling d item wait) [] []
  | kept {ending : Ending}
      (keeps : (ending.verdict setup.options.maxAttempts d.attempt).deletes = false) :
      Followed setup now d (some ending)
        (ending.verdict setup.options.maxAttempts d.attempt).onward [] []
  | deleted {ending : Ending} {answer : Except Failure Unit}
      (warranted : (ending.verdict setup.options.maxAttempts d.attempt).deletes = true) :
      Followed setup now d (some ending) (stageAfter setup now (answer.map fun _ => .processed))
        [.deleted d.id answer] [(d.id, answer)]

namespace Followed
variable {now : Instant} {d : Delivery} {ending : Option Ending} {after : Stage}
  {calls : List Notice} {deletes : List (Int × Except Failure Unit)}

/-- The consumer goes on without a pause exactly if the delivery has been processed. -/
theorem goesOn_iff (h : Followed setup now d ending after calls deletes) :
    after.goesOn = true ↔ Entry.processed setup ⟨d, ending, deletes⟩ = true := by
  cases h with
  | suspended => exact ⟨fun _ => rfl, fun _ => rfl⟩
  | @kept ending keeps =>
    simp only [Entry.processed, Option.all_some, List.all_nil, Bool.and_true]
    cases hv : ending.verdict setup.options.maxAttempts d.attempt with
    | leave => exact ⟨fun _ => rfl, fun _ => rfl⟩
    | abandon => exact ⟨nofun, nofun⟩
    | _ =>
      rw [hv] at keeps
      cases keeps
  | @deleted ending answer warranted =>
    have hgenuine : (ending.verdict setup.options.maxAttempts d.attempt != .abandon) = true := by
      cases hv : ending.verdict setup.options.maxAttempts d.attempt with
      | abandon =>
        rw [hv] at warranted
        cases warranted
      | _ => rfl
    rw [stageAfter_goesOn]
    simp only [Entry.processed, Option.all_some, hgenuine, List.all_cons, List.all_nil,
      Bool.and_true, Bool.true_and]
    cases answer with
    | ok done => exact ⟨fun _ => rfl, fun _ => rfl⟩
    | error failure => exact ⟨nofun, nofun⟩

theorem pausing_of_setback (h : Followed setup now d ending after calls deletes) {n : Notice}
    (hn : n ∈ calls) (setback : n.isSetback = true) :
    after = .pausing (now + setup.options.pollInterval.toNanos) := by
  cases h with
  | suspended => cases hn
  | kept keeps => cases hn
  | @deleted ending answer warranted =>
    obtain rfl := List.mem_singleton.mp hn
    cases answer with
    | ok done => cases setback
    | error failure => exact stageAfter_error (by simpa [Notice.isSetback] using setback)

end Followed

namespace Consumer
variable {c : Consumer} {s : Surroundings σ} {d : Delivery} {j : Journal} {older : List Entry}

theorem follow_followed (setup : ConsumerSetup ι σ) (c : Consumer) {run : AttemptRun σ}
    (hn : queueCalls run.notices = []) (latest : j.entries = { delivery := d } :: older) :
    ∃ deletes, Followed setup run.surroundings.now.running d run.progress.ending?
        (c.follow setup d run).consumer.stage (queueCalls (c.follow setup d run).notices) deletes ∧
      (((c.follow setup d run).notices.foldl Journal.note j).close run.progress.ending?).entries =
        ⟨d, run.progress.ending?, deletes⟩ :: older := by
  cases he : run.progress with
  | suspended item wait =>
    rw [follow_suspended he]
    refine ⟨[], ?_, ?_⟩
    · dsimp only
      rw [hn]
      exact .suspended
    · rw [Journal.foldl_note_of_nil hn]
      exact latest
  | ended ending =>
    rw [follow_ended he]
    cases hv : (ending.verdict setup.options.maxAttempts d.attempt).deletes with
    | false =>
      obtain ⟨-, hc, hstage⟩ := close_of_keeps (c := c) (s := run.surroundings) hv
      have hnone : queueCalls (run.notices ++ (c.close setup run.surroundings d ending).notices) =
          [] := by
        rw [queueCalls_append, hn, hc]
        rfl
      refine ⟨[], ?_, ?_⟩
      · simp only [Turn.after, hnone, hstage]
        exact .kept hv
      · simp only [Turn.after, Journal.foldl_note_of_nil hnone]
        exact congrArg Journal.entries (Journal.close_open latest)
    | true =>
      obtain ⟨-, hc, hstage⟩ := close_of_deletes (c := c) (s := run.surroundings) hv
      have hcalls : queueCalls (run.notices ++ (c.close setup run.surroundings d ending).notices) =
          [.deleted d.id (deleteAnswer setup run.surroundings d)] := by
        rw [queueCalls_append, hn, hc]
        rfl
      refine ⟨[(d.id, deleteAnswer setup run.surroundings d)], ?_, ?_⟩
      · simp only [Turn.after, hcalls, hstage]
        exact .deleted hv
      · simp only [Turn.after]
        rw [Journal.foldl_note, hcalls]
        exact congrArg Journal.entries (Journal.close_deleted latest)

/-! ## What a step writes down -/

/-- What a step leads to from a point of the loop and the entries so far: the point then, the queue
calls that it makes, and the entries. -/
inductive Written (setup : ConsumerSetup ι σ) (now : Instant) (before : Stage)
    (entries : List Entry) : Stage → List Notice → List Entry → Prop
  /-- The consumer passes the gate. -/
  | passed {ready : Instant} (at_ : before = .atGate) :
      Written setup now before entries (.receiving ready) [] entries
  /-- It makes no queue call and begins no iteration. -/
  | silent {after : Stage} (same : after.goesOn = true → after.begun = before.begun) :
      Written setup now before entries after [] entries
  /-- The queue is empty. -/
  | nothing :
      Written setup now before entries (stageAfter setup now (.ok .queueEmpty))
        [.received (.ok none)] entries
  /-- The receive fails. -/
  | failed {failure : Failure} :
      Written setup now before entries (stageAfter setup now (.error failure))
        [.received (.error failure)] entries
  /-- A message is delivered, and its attempt begins. -/
  | delivered {ready : Instant} {d : Delivery} {ending : Option Ending} {after : Stage}
      {calls : List Notice} {deletes : List (Int × Except Failure Unit)}
      (at_ : before = .receiving ready)
      (followed : Followed setup now d ending after calls deletes) :
      Written setup now before entries after (.received (.ok (some d)) :: calls)
        (⟨d, ending, deletes⟩ :: entries)
  /-- The attempt at the message in hand goes on. -/
  | resumed {d : Delivery} {item : WorkItem} {wait : Suspension} {older : List Entry}
      {ending : Option Ending} {after : Stage} {calls : List Notice}
      {deletes : List (Int × Except Failure Unit)} (at_ : before = .handling d item wait)
      (latest : entries = { delivery := d } :: older)
      (followed : Followed setup now d ending after calls deletes) :
      Written setup now before entries after calls (⟨d, ending, deletes⟩ :: older)

/-- What a turn has written once the ending that it brings is in the journal. -/
def Writes (setup : ConsumerSetup ι σ) (c : Consumer) (s : Surroundings σ) (j : Journal)
    (t : Turn σ) (ending : Option Ending) : Prop :=
  Written setup s.now.running c.stage j.entries t.consumer.stage (queueCalls t.notices)
    ((t.notices.foldl Journal.note j).close ending).entries

theorem writes_silent {t : Turn σ} (calls : queueCalls t.notices = [])
    (same : t.consumer.stage.goesOn = true → t.consumer.stage.begun = c.stage.begun) :
    Writes setup c s j t none := by
  rw [Writes, Journal.foldl_note_of_nil calls, calls]
  exact .silent same

theorem receive_writes {ready : Instant} (at_ : c.stage = .receiving ready)
    (token : c.cancelled = false) (due : ready ≤ s.now.running) :
    Writes setup c s j (c.receive setup s) (c.ending? setup s) := by
  simp only [ending?, at_, token, due, ↓reduceIte, receive, Bool.false_eq_true]
  cases hr : s.queue.receive s.now setup.options.queue setup.options.invisibility with
  | mk queue answer =>
    cases answer with
    | error failure =>
      have hcalls :
          queueCalls (c.finish setup { s with queue := queue } (.error failure)).notices = [] :=
        finish_queueCalls _
      dsimp only
      rw [Writes, Journal.foldl_note, queueCalls_received, hcalls]
      simp only [Turn.after, finish_consumer]
      exact .failed
    | ok found =>
      cases found with
      | none =>
        have hcalls :
            queueCalls (c.finish setup { s with queue := queue } (.ok .queueEmpty)).notices = [] :=
          finish_queueCalls _
        dsimp only
        rw [Writes, Journal.foldl_note, queueCalls_received, hcalls]
        simp only [Turn.after, finish_consumer]
        exact .nothing
      | some d =>
        obtain ⟨-, hclock, hcalls⟩ := attempt_frame setup c { s with queue := queue } d
        have latest : (j.note (.received (.ok (some d)))).entries =
            { delivery := d } :: j.entries := rfl
        obtain ⟨deletes, hfollowed, hentries⟩ := follow_followed setup c hcalls latest
        rw [hclock] at hfollowed
        have hdelivered : Written setup s.now.running c.stage j.entries _ _ (_ :: j.entries) :=
          .delivered at_ hfollowed
        rw [← hentries] at hdelivered
        exact hdelivered

/-- Every step writes down one of the things that it may. -/
theorem step_writes (entered : Custody.Entered setup j.entries c.stage.inHand?) :
    Writes setup c s j (c.step setup s) (c.ending? setup s) := by
  refine step_induction setup c s fun t hcourse => ?_
  cases hcourse with
  | ended at_ =>
    simp only [ending?, at_]
    exact .silent fun _ => rfl
  | waiting at_ polled =>
    simp only [ending?, at_]
    exact .silent fun _ => by rw [at_]
  | refused at_ polled =>
    simp only [ending?, at_]
    exact .silent fun goesOn => by cases goesOn
  | granted at_ polled =>
    simp only [ending?, at_, beginReceive]
    split <;> exact .passed at_
  | interrupted at_ token =>
    have hended : (c.finish setup s (.error .cancelled)).consumer.stage = .ended := by
      rw [finish_consumer]
      rfl
    simp only [ending?, at_, token, ↓reduceIte]
    refine writes_silent (finish_queueCalls _) fun goesOn => ?_
    rw [hended] at goesOn
    cases goesOn
  | receiving at_ token early =>
    simp only [ending?, at_, token, Nat.not_le_of_lt early, ↓reduceIte, Bool.false_eq_true]
    exact .silent fun _ => rfl
  | received at_ token due => exact receive_writes at_ token due
  | @handled d item wait at_ =>
    rw [at_] at entered
    obtain ⟨older, latest, -⟩ := entered
    obtain ⟨released, hsur⟩ := resume_surroundings c s item wait
    obtain ⟨deletes, hfollowed, hentries⟩ :=
      follow_followed setup c (resume_queueCalls c s item wait) latest
    rw [hsur] at hfollowed
    have hresumed := Written.resumed at_ latest hfollowed
    rw [← hentries] at hresumed
    simp only [ending?, at_]
    exact hresumed
  | left at_ token =>
    simp only [ending?, at_]
    exact .silent fun goesOn => by cases goesOn
  | pausing at_ token early =>
    simp only [ending?, at_]
    exact .silent fun _ => rfl
  | awakened at_ token due =>
    simp only [ending?, at_]
    exact .silent fun _ => by rw [at_]; rfl

namespace Written
variable {now : Instant} {before after : Stage} {entries next : List Entry} {calls : List Notice}

/-- After a setback the consumer pauses. -/
theorem pausing_of_setback (h : Written setup now before entries after calls next) {n : Notice}
    (hn : n ∈ calls) (setback : n.isSetback = true) :
    after = .pausing (now + setup.options.pollInterval.toNanos) := by
  cases h with
  | passed at_ => cases hn
  | silent same => cases hn
  | nothing => rfl
  | @failed failure =>
    obtain rfl := List.mem_singleton.mp hn
    exact stageAfter_error (by simpa [Notice.isSetback] using setback)
  | delivered at_ followed =>
    rcases List.mem_cons.mp hn with rfl | hn
    · cases setback
    · exact followed.pausing_of_setback hn setback
  | resumed at_ latest followed => exact followed.pausing_of_setback hn setback

/-- What the consumer goes on from without a pause has been processed. -/
theorem processed_of_goesOn (h : Written setup now before entries after calls next)
    (goesOn : after.goesOn = true) (processed : ∀ entry ∈ entries, entry.processed setup = true) :
    ∀ entry ∈ next, entry.processed setup = true := by
  cases h with
  | delivered at_ followed =>
    exact List.forall_mem_cons.mpr ⟨followed.goesOn_iff.mp goesOn, processed⟩
  | resumed at_ latest followed =>
    rw [latest] at processed
    exact List.forall_mem_cons.mpr
      ⟨followed.goesOn_iff.mp goesOn, (List.forall_mem_cons.mp processed).2⟩
  | _ => exact processed

/-- As long as the consumer goes on, every iteration that has begun comes to its delivery. -/
theorem begun_le_of_goesOn (h : Written setup now before entries after calls next)
    (goesOn : after.goesOn = true) :
    entries.length + before.begun ≤ next.length + after.begun := by
  cases h with
  | passed at_ =>
    subst at_
    exact Nat.le_succ _
  | silent same => exact Nat.le_of_eq (congrArg (entries.length + ·) (same goesOn).symm)
  | nothing => cases goesOn
  | failed => cases stageAfter_goesOn.mp goesOn
  | delivered at_ followed =>
    subst at_
    exact Nat.le_add_right _ _
  | resumed at_ latest followed =>
    subst at_ latest
    exact Nat.le_add_right _ _

/-- A step writes down one delivery at most, and none is forgotten. -/
theorem length_bounds (h : Written setup now before entries after calls next) :
    entries.length ≤ next.length ∧ next.length ≤ entries.length + 1 := by
  cases h with
  | delivered at_ followed => exact ⟨Nat.le_succ _, Nat.le_refl _⟩
  | resumed at_ latest followed =>
    subst latest
    exact ⟨Nat.le_refl _, Nat.le_succ _⟩
  | _ => exact ⟨Nat.le_refl _, Nat.le_succ _⟩

end Written
end Consumer

/-! ## What other events leave alone -/

theorem Workless.queueCalls_eq_nil {notices : List Notice} (h : Workless notices) :
    queueCalls notices = [] := by
  refine List.filter_eq_nil_iff.mpr fun n hn hcall => ?_
  have hwork := h n hn
  cases n <;> cases hcall <;> cases hwork

theorem Journal.accept_entries (j : Journal) (queue body : String) (reply : Reply) :
    (j.accept queue body reply).entries = j.entries := by
  unfold accept
  split
  · split <;> rfl
  · rfl

namespace Chronicle
variable {r : Chronicle σ} {event : Event}

theorem next_entries (h : event ≠ .step) (setup : ConsumerSetup ι σ) (r : Chronicle σ) :
    (r.next setup event).journal.entries = r.journal.entries := by
  have hcalls := (r.site.happen_spared setup event h).2.queueCalls_eq_nil
  have hjournal : (r.next setup event).journal = (((r.site.happen setup event).2.2.foldl
      Journal.note r.journal).close none).accept setup.options.queue event.body
        (r.site.happen setup event).2.1 := by
    cases event <;> first | exact absurd rfl h | rfl
  rw [hjournal, Journal.accept_entries, Journal.foldl_note_of_nil hcalls]
  rfl

theorem next_stage (h : event ≠ .step) (setup : ConsumerSetup ι σ) (r : Chronicle σ) :
    (r.next setup event).site.consumer.stage = r.site.consumer.stage := by
  cases event with
  | step => exact absurd rfl h
  | command command => exact (apply_keeps setup r.site command).2
  | tick span => rfl
  | foreign call => rfl

end Chronicle
end WorkQueue
