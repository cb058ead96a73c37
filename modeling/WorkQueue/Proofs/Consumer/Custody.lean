import Mathlib.Logic.Relation
import WorkQueue.Proofs.Consumer.Step
import WorkQueue.Proofs.Queue.View

/-! # Messages in custody

Of a site and its journal the custody keeps what concerns messages: the clock, the store, the
number of deletes issued, the memory of the handlers, the journal, and the delivery in hand. An
event takes the custody through a chain of effects, each of them one call to the queue, the end of
one attempt, or the passing of time.
-/
namespace WorkQueue
variable {ι σ : Type} {setup : ConsumerSetup ι σ} {plan : FaultPlan}

/-- Whether only a work item that somebody serves is being handled. -/
def Stage.Serves (setup : ConsumerSetup ι σ) : Stage → Prop
  | .handling d item _ => WorkItem.parse d.body = .ok item ∧ (setup.payloadOf? item).isSome = true
  | _ => True

/-- What a site and its journal say of messages. -/
structure Custody (σ : Type) where
  now : Moment
  store : QueueStore
  issued : Nat
  handlers : σ
  journal : Journal := {}
  inHand : Option Delivery := none

def Custody.of (s : Surroundings σ) (j : Journal) (inHand : Option Delivery) : Custody σ :=
  { now := s.now, store := s.queue.store, issued := s.queue.deletes, handlers := s.handlers
    journal := j, inHand := inHand }

def Custody.after (t : Turn σ) (j : Journal) (ending : Option Ending) : Custody σ :=
  .of t.surroundings ((t.notices.foldl Journal.note j).close ending) t.consumer.stage.inHand?

def Chronicle.custody (r : Chronicle σ) : Custody σ :=
  .of r.site.surroundings r.journal r.site.consumer.stage.inHand?

/-- A change of the store beside one of its queues. -/
structure QueueStore.Beside (queue : String) (s t : QueueStore) : Prop where
  held : t.held queue = s.held queue
  counter : s.lastId ≤ t.lastId
  ordered : s.Ordered → t.Ordered

/-- The effects of an event. -/
inductive Effect (setup : ConsumerSetup ι σ) (plan : FaultPlan) (event : Event) :
    Custody σ → Custody σ → Prop
  /-- A receive hands a message out, and its attempt begins. -/
  | takes {k : Custody σ} {store : QueueStore} {d : Delivery} (free : k.inHand = none)
      (received : k.store.receive k.now setup.options.queue setup.options.invisibility =
        (store, .ok (some d))) :
      Effect setup plan event k
        { k with
          store := store
          handlers := setup.handled d.body k.handlers
          journal := k.journal.note (.received (.ok (some d)))
          inHand := some d }
  /-- The attempt ends, and the message is left alone. -/
  | leaves {k : Custody σ} {d : Delivery} {ending : Ending} (hand : k.inHand = some d)
      (of : ending.Of setup d.body)
      (kept : (ending.verdict setup.options.maxAttempts d.attempt).deletes = false) :
      Effect setup plan event k
        { k with journal := k.journal.close (some ending), inHand := none }
  /-- The attempt ends, and a delete of the message is issued. -/
  | deletes {k : Custody σ} {d : Delivery} {ending : Ending} {store : QueueStore}
      {answer : Except Failure Unit} (hand : k.inHand = some d) (of : ending.Of setup d.body)
      (warranted : (ending.verdict setup.options.maxAttempts d.attempt).deletes = true)
      (answered : (store, answer) = k.store.delete setup.options.queue d.id ∨
        store = k.store ∧ ∃ n failure, plan.delete n = some failure ∧ answer = .error failure) :
      Effect setup plan event k
        { k with
          store := store
          issued := k.issued + 1
          journal := (k.journal.note (.deleted d.id answer)).close (some ending)
          inHand := none }
  /-- A message is accepted into the queue. -/
  | accepts {k : Custody σ} {delay : Duration} {store : QueueStore} {receipt : Receipt}
      (sent : k.store.send k.now setup.options.queue event.body delay = (store, .ok receipt)) :
      Effect setup plan event k
        { k with
          store := store
          journal := { k.journal with
            accepted := (receipt.id, event.body) :: k.journal.accepted } }
  /-- The store changes beside the queue. -/
  | beside {k : Custody σ} {store : QueueStore}
      (change : QueueStore.Beside setup.options.queue k.store store) :
      Effect setup plan event k { k with store := store }
  /-- Another client receives from the queue. -/
  | borrowed {k : Custody σ} {window : Duration}
      (by_ : event = .foreign (.receive setup.options.queue window)) :
      Effect setup plan event k
        { k with store := (k.store.receive k.now setup.options.queue window).1 }
  /-- Another client deletes from the queue. -/
  | removed {k : Custody σ} {id : Int}
      (by_ : event = .foreign (.delete setup.options.queue id)) :
      Effect setup plan event k
        { k with store := (k.store.delete setup.options.queue id).1 }
  /-- Time passes. -/
  | passes {k : Custody σ} {span : Nat} (by_ : event = .tick span) :
      Effect setup plan event k
        { k with now := ⟨k.now.running + span, k.now.ofDay + span⟩ }

abbrev Effects (setup : ConsumerSetup ι σ) (plan : FaultPlan) (event : Event) :
    Custody σ → Custody σ → Prop := Relation.ReflTransGen (Effect setup plan event)

/-- A turn that leads from a custody through effects, keeps the plan, and leaves nothing in hand
that nobody serves. -/
structure Turn.Traced (setup : ConsumerSetup ι σ) (plan : FaultPlan) (event : Event)
    (k : Custody σ) (j : Journal) (ending : Option Ending) (t : Turn σ) : Prop where
  serves : t.consumer.stage.Serves setup
  planned : t.surroundings.queue.plan = plan
  effects : Effects setup plan event k (.after t j ending)

/-! ## Changes beside a queue -/

namespace QueueStore
variable {s : QueueStore} {queue other body : String} {now : Moment} {delay window : Duration}

theorem Beside.create : Beside queue s (s.create other) :=
  ⟨held_create, by simp, Ordered.create⟩

theorem Beside.send_error {failure : Failure}
    (h : (s.send now other body delay).2 = .error failure) :
    Beside queue s (s.send now other body delay).1 := by
  refine ⟨?_, by rw [lastId_send]; omega, Ordered.send⟩
  rcases s.send_cases now other body delay with ⟨-, hheld⟩ | ⟨ha, -⟩
  · exact hheld queue
  · rw [ha] at h
    cases h

theorem Beside.send_of_ne (h : other ≠ queue) :
    Beside queue s (s.send now other body delay).1 := by
  refine ⟨?_, by rw [lastId_send]; omega, Ordered.send⟩
  rcases s.send_cases now other body delay with ⟨-, hheld⟩ | ⟨-, hheld⟩
  · exact hheld queue
  · rw [hheld, if_neg (Ne.symm h)]

theorem Beside.receive_of_ne (h : other ≠ queue) :
    Beside queue s (s.receive now other window).1 := by
  rcases s.receive_cases now other window with
    ⟨hs, -⟩ | ⟨front, m, back, -, -, -, -, hl, hheld⟩
  · rw [hs]
    exact ⟨rfl, Int.le_refl _, id⟩
  · exact ⟨by rw [hheld, if_neg (Ne.symm h)], Int.le_of_eq hl.symm, Ordered.receive⟩

theorem Beside.delete_of_ne (h : other ≠ queue) {id : Int} :
    Beside queue s (s.delete other id).1 :=
  ⟨by rw [held_delete, if_neg (Ne.symm h)], by simp, Ordered.delete⟩

end QueueStore

theorem Effect.ordered {event : Event} {k k' : Custody σ} (he : Effect setup plan event k k')
    (h : k.store.Ordered) : k'.store.Ordered := by
  cases he with
  | @takes store d free received =>
    rw [show store = (k.store.receive k.now _ _).1 from (congrArg Prod.fst received).symm]
    exact h.receive
  | leaves hand of kept => exact h
  | @deletes d ending store answer hand of warranted answered =>
    rcases answered with reached | ⟨rfl, -⟩
    · rw [show store = (k.store.delete setup.options.queue d.id).1 from congrArg Prod.fst reached]
      exact h.delete
    · exact h
  | @accepts delay store receipt sent =>
    rw [show store = (k.store.send k.now _ _ delay).1 from (congrArg Prod.fst sent).symm]
    exact h.send
  | beside change => exact change.ordered h
  | borrowed by_ => exact h.receive
  | removed by_ => exact h.delete
  | passes by_ => exact h

/-! ## Notices that no queue call is behind -/

theorem Journal.note_of_not_isQueueCall {n : Notice} (j : Journal) (h : n.isQueueCall = false) :
    j.note n = j := by
  cases n <;> first | rfl | cases h

theorem Journal.foldl_note (notices : List Notice) (j : Journal) :
    notices.foldl Journal.note j = (queueCalls notices).foldl Journal.note j := by
  induction notices generalizing j with
  | nil => rfl
  | cons n rest ih =>
    cases hn : n.isQueueCall with
    | true => simpa [queueCalls, hn] using ih (j.note n)
    | false => simpa [queueCalls, hn, j.note_of_not_isQueueCall hn] using ih j

theorem Journal.foldl_note_of_nil {notices : List Notice} (h : queueCalls notices = [])
    (j : Journal) : notices.foldl Journal.note j = j := by
  rw [foldl_note, h]
  rfl

/-! ## The effects of a step -/

theorem stageAfter_inHand? (setup : ConsumerSetup ι σ) (now : Instant)
    (result : Except Failure IterationEnd) :
    (stageAfter setup now result).inHand? = none ∧ (stageAfter setup now result).Serves setup := by
  cases result with
  | ok e => cases e <;> exact ⟨rfl, trivial⟩
  | error failure =>
    cases hc : failure.isCancellation <;> simp [stageAfter, hc, Stage.inHand?, Stage.Serves]

theorem Verdict.onward_inHand? (setup : ConsumerSetup ι σ) (v : Verdict) :
    v.onward.inHand? = none ∧ v.onward.Serves setup := by
  cases v <;> exact ⟨rfl, trivial⟩

namespace Consumer
variable {c : Consumer} {s : Surroundings σ} {d : Delivery} {event : Event}

/-- Going on with the delivery in hand has at most one effect, and that ends the attempt. -/
theorem follow_traced (event : Event) (j : Journal) {run : AttemptRun σ}
    (hn : queueCalls run.notices = []) (hof : run.progress.Of setup d.body)
    (hp : run.surroundings.queue.plan = plan) :
    (c.follow setup d run).Traced setup plan event (.of run.surroundings j (some d)) j
      run.progress.ending? := by
  cases he : run.progress with
  | suspended item wait =>
    rw [he] at hof
    rw [follow_suspended he]
    refine ⟨hof, hp, ?_⟩
    simp only [Custody.after, Journal.foldl_note_of_nil hn]
    exact .refl
  | ended ending =>
    rw [he] at hof
    rw [follow_ended he]
    cases hv : (ending.verdict setup.options.maxAttempts d.attempt).deletes with
    | false =>
      obtain ⟨hs, hc, hstage⟩ := close_of_keeps (c := c) (s := run.surroundings) hv
      have hidle := Verdict.onward_inHand? setup
        (ending.verdict setup.options.maxAttempts d.attempt)
      refine ⟨?_, ?_, .single ?_⟩
      · simpa [Turn.after, hstage] using hidle.2
      · simpa [Turn.after, hs] using hp
      · have hnone : queueCalls (run.notices ++ (c.close setup run.surroundings d ending).notices)
            = [] := by rw [queueCalls_append, hn, hc]; rfl
        simp only [Custody.after, Turn.after, Journal.foldl_note_of_nil hnone, hs, hstage,
          hidle.1, AttemptProgress.ending?]
        exact .leaves rfl hof hv
    | true =>
      obtain ⟨hs, hc, hstage⟩ := close_of_deletes (c := c) (s := run.surroundings) hv
      have hidle := stageAfter_inHand? setup run.surroundings.now.running
        ((deleteAnswer setup run.surroundings d).map fun _ => .processed)
      refine ⟨?_, ?_, .single ?_⟩
      · simpa [Turn.after, hstage] using hidle.2
      · simpa [Turn.after, hs, afterDelete] using hp
      · have hone : (run.notices ++ (c.close setup run.surroundings d ending).notices).foldl
            Journal.note j = j.note (.deleted d.id (deleteAnswer setup run.surroundings d)) := by
          rw [Journal.foldl_note, queueCalls_append, hn, hc]
          rfl
        have hissue : Effect setup plan event (.of run.surroundings j (some d)) _ :=
          .deletes rfl hof hv (hp ▸ run.surroundings.queue.delete_cases setup.options.queue d.id)
        simp only [Custody.after, Custody.of, Turn.after, hone, hs, hstage, hidle.1,
          AttemptProgress.ending?, afterDelete, UnreliableQueue.deletes_delete]
        exact hissue

theorem after_idle {t : Turn σ} {j : Journal} (ht : t.surroundings.now = s.now)
    (hs : t.surroundings.queue.store = s.queue.store)
    (hd : t.surroundings.queue.deletes = s.queue.deletes)
    (hh : t.surroundings.handlers = s.handlers) (hn : t.notices.foldl Journal.note j = j)
    (hi : t.consumer.stage.inHand? = none) :
    Custody.after t j none = .of s j none := by
  simp only [Custody.after, Custody.of, ht, hs, hd, hh, hn, hi]
  rfl

theorem finish_traced (event : Event) (c : Consumer) {s' : Surroundings σ} {j : Journal}
    (before : List Notice) (result : Except Failure IterationEnd) (ht : s'.now = s.now)
    (hs : s'.queue.store = s.queue.store) (hd : s'.queue.deletes = s.queue.deletes)
    (hh : s'.handlers = s.handlers) (hp : s'.queue.plan = plan)
    (hn : before.foldl Journal.note j = j) :
    (Turn.after before (c.finish setup s' result)).Traced setup plan event (.of s j none) j
      none := by
  have hidle := stageAfter_inHand? setup s'.now.running result
  have hstage : (Turn.after before (c.finish setup s' result)).consumer.stage =
      stageAfter setup s'.now.running result := by
    simp only [Turn.after, finish_consumer]
  have hsur : (Turn.after before (c.finish setup s' result)).surroundings = s' := by
    simp only [Turn.after, finish_surroundings]
  have hnotes : (Turn.after before (c.finish setup s' result)).notices.foldl Journal.note j =
      j := by
    simp only [Turn.after, List.foldl_append, hn]
    exact Journal.foldl_note_of_nil (finish_queueCalls result) j
  refine ⟨hstage ▸ hidle.2, by rw [hsur]; exact hp, ?_⟩
  rw [after_idle (s := s) (by rw [hsur]; exact ht) (by rw [hsur]; exact hs) (by rw [hsur]; exact hd)
    (by rw [hsur]; exact hh) hnotes (hstage ▸ hidle.1)]

theorem receive_traced (event : Event) (j : Journal) (hp : s.queue.plan = plan) {ready : Instant}
    (at_ : c.stage = .receiving ready) (token : c.cancelled = false)
    (due : ready ≤ s.now.running) :
    (c.receive setup s).Traced setup plan event (.of s j none) j (c.ending? setup s) := by
  have hplan : (s.queue.receive s.now setup.options.queue setup.options.invisibility).1.plan
      = plan := by rw [UnreliableQueue.plan_receive, hp]
  have hdeletes : (s.queue.receive s.now setup.options.queue setup.options.invisibility).1.deletes
      = s.queue.deletes := UnreliableQueue.deletes_receive
  have hkeeps := s.queue.store_receive_of_ne_some s.now setup.options.queue
    setup.options.invisibility
  simp only [ending?, at_, token, due, ↓reduceIte, receive, Bool.false_eq_true]
  cases hr : s.queue.receive s.now setup.options.queue setup.options.invisibility with
  | mk queue answer =>
    rw [hr] at hplan hdeletes hkeeps
    cases answer with
    | error failure => exact finish_traced event c _ _ rfl (hkeeps (by simp)) hdeletes rfl hplan rfl
    | ok found =>
      cases found with
      | none => exact finish_traced event c _ _ rfl (hkeeps (by simp)) hdeletes rfl hplan rfl
      | some d =>
        obtain ⟨hqueue, hclock, hcalls⟩ := attempt_frame setup c { s with queue := queue } d
        have hmemory := attempt_handlers setup c { s with queue := queue } d
        obtain ⟨hserves, hplan', hgoes⟩ := follow_traced event
          (j.note (.received (.ok (some d)))) (c := c) hcalls (attempt_of setup c _ d)
          (show _ = plan by rw [hqueue]; exact hplan)
        refine ⟨hserves, hplan', .head (.takes rfl (UnreliableQueue.store_receive_of_some hr)) ?_⟩
        dsimp only at hdeletes
        simp only [Custody.of, hclock, hqueue, hmemory, hdeletes] at hgoes
        exact hgoes

/-- A step of the consumer takes a message, ends an attempt, does both, or does neither. -/
theorem step_traced (event : Event) (j : Journal) (hs : c.stage.Serves setup)
    (hp : s.queue.plan = plan) :
    (c.step setup s).Traced setup plan event (.of s j c.stage.inHand?) j (c.ending? setup s) := by
  refine step_induction setup c s fun t h => ?_
  cases h with
  | ended at_ =>
    refine ⟨hs, hp, ?_⟩
    simp only [Custody.after, ending?, at_]
    exact .refl
  | waiting at_ polled =>
    refine ⟨hs, hp, ?_⟩
    simp only [Custody.after, ending?, at_]
    exact .refl
  | refused at_ polled =>
    refine ⟨trivial, hp, ?_⟩
    simp only [Custody.after, ending?, at_, conclude]
    exact .refl
  | granted at_ polled =>
    refine ⟨trivial, hp, ?_⟩
    simp only [Custody.after, ending?, at_, beginReceive]
    split <;> exact .refl
  | interrupted at_ token =>
    simp only [ending?, at_, token, ↓reduceIte, Stage.inHand?]
    exact finish_traced event c [] (.error .cancelled) rfl rfl rfl rfl hp rfl
  | receiving at_ token early =>
    refine ⟨hs, hp, ?_⟩
    simp only [Custody.after, ending?, at_, token, Nat.not_le_of_lt early]
    exact .refl
  | received at_ token due =>
    rw [show c.stage.inHand? = none by rw [at_]; rfl]
    exact receive_traced event j hp at_ token due
  | handled at_ =>
    next d item wait =>
    rw [at_] at hs
    obtain ⟨released, hsur⟩ := resume_surroundings c s item wait
    have hgoes := follow_traced event j (c := c) (resume_queueCalls c s item wait)
      (resume_of hs.1 hs.2) (show _ = plan by rw [hsur]; exact hp)
    rw [hsur] at hgoes
    simp only [ending?, at_, Stage.inHand?]
    exact hgoes
  | left at_ token =>
    refine ⟨trivial, hp, ?_⟩
    simp only [Custody.after, ending?, at_, conclude]
    exact .refl
  | pausing at_ token early =>
    refine ⟨hs, hp, ?_⟩
    simp only [Custody.after, ending?, at_]
    exact .refl
  | awakened at_ token due =>
    refine ⟨trivial, hp, ?_⟩
    simp only [Custody.after, ending?, at_]
    exact .refl

end Consumer

/-! ## The effects of an event -/

section
variable {k : Custody σ} {delay : Duration} {event : Event}

theorem send_effects (name : String) :
    Effects setup plan event k
      { k with
        store := (k.store.send k.now name event.body delay).1
        journal := k.journal.accept setup.options.queue event.body
          (Site.sendReply (k.store.send k.now name event.body delay).2) } := by
  rcases k.store.send_cases k.now name event.body delay with ⟨ha, -⟩ | ⟨ha, -⟩
  · rw [ha]
    exact .single (.beside (.send_error ha))
  · rw [ha]
    by_cases hn : name = setup.options.queue
    · subst hn
      simp only [Site.sendReply, Journal.accept, ↓reduceIte]
      exact .single (.accepts (Prod.ext rfl ha))
    · simp only [Site.sendReply, Journal.accept, if_neg hn]
      exact .single (.beside (.send_of_ne hn))

theorem unreliable_send_effects {s : Surroundings σ} {j : Journal} {inHand : Option Delivery} :
    Effects setup plan event (.of s j inHand)
      (.of { s with queue := (s.queue.send s.now setup.options.queue event.body delay).1 }
        (j.accept setup.options.queue event.body
          (Site.sendReply (s.queue.send s.now setup.options.queue event.body delay).2)) inHand) := by
  simp only [Custody.of, UnreliableQueue.deletes_send]
  rcases s.queue.send_cases s.now setup.options.queue event.body delay with
    he | ⟨hs, n, failure, -, hf⟩
  · obtain ⟨hs, ha⟩ := Prod.mk.inj he
    rw [hs, ha]
    exact send_effects (k := .of s j inHand) setup.options.queue
  · rw [hs, hf]
    exact .refl

end

namespace Chronicle
variable {r : Chronicle σ}

theorem command_effects (command : Command) :
    Effects setup plan (.command command) r.custody (r.next setup (.command command)).custody := by
  cases command with
  | settle => exact .refl
  | advance span => exact .refl
  | cancel => exact .refl
  | release => exact .refl
  | start =>
    simp only [custody, next, Site.happen, Site.apply, Site.withGate, Journal.accept, Journal.close,
      Journal.foldl_note_of_nil (queueCalls_changes ..)]
    exact .refl
  | stop =>
    simp only [custody, next, Site.happen, Site.apply, Site.withGate, Journal.accept, Journal.close,
      Journal.foldl_note_of_nil (queueCalls_changes ..)]
    exact .refl
  | createQueue => exact .single (.beside .create)
  | send body delay => exact unreliable_send_effects
  | produce payload delay =>
    simp only [custody, next, Site.happen, Site.apply, Journal.close, Producer.produceDelayed,
      Journal.foldl_note_of_nil (queueCalls_production ..)]
    cases he : payload.encode with
    | error failure =>
      simp only [Producer.submit_of_error he]
      exact .refl
    | ok body =>
      have hbody : body = Event.body (.command (.produce payload delay)) := by
        simp [Event.body, he, Except.toOption]
      simp only [Producer.submit_of_ok he, hbody]
      exact unreliable_send_effects

theorem apply_keeps (setup : ConsumerSetup ι σ) (site : Site σ) (command : Command) :
    (site.apply setup command).1.surroundings.queue.plan = site.surroundings.queue.plan ∧
    (site.apply setup command).1.consumer.stage = site.consumer.stage := by
  cases command with
  | send body delay => exact ⟨UnreliableQueue.plan_send, rfl⟩
  | produce payload delay =>
    refine ⟨?_, rfl⟩
    simp only [Site.apply, Site.withQueue, Producer.produceDelayed, Producer.submit]
    split
    · rfl
    · exact UnreliableQueue.plan_send
  | _ => exact ⟨rfl, rfl⟩

theorem foreign_effects (call : ForeignCall) :
    Effects setup plan (.foreign call) r.custody (r.next setup (.foreign call)).custody := by
  cases call with
  | create name => exact .single (.beside .create)
  | send name body delay => exact send_effects name
  | receive name window =>
    by_cases hn : name = setup.options.queue
    · subst hn
      exact .single (.borrowed rfl)
    · exact .single (.beside (.receive_of_ne hn))
  | delete name id =>
    by_cases hn : name = setup.options.queue
    · subst hn
      exact .single (.removed rfl)
    · exact .single (.beside (.delete_of_ne hn))

theorem custody_tick (setup : ConsumerSetup ι σ) (r : Chronicle σ) (span : Nat) :
    (r.next setup (.tick span)).custody =
      { r.custody with now := ⟨r.custody.now.running + span, r.custody.now.ofDay + span⟩ } := by
  have hspan : r.site.surroundings.now.running + span - r.site.surroundings.now.running = span :=
    Nat.add_sub_cancel_left _ _
  simp only [custody, Custody.of, next, Site.happen, Site.moveClock, Site.now, hspan]
  rfl

/-- The plan of a site and the stage of its consumer, as far as a run keeps them. -/
structure Standing (setup : ConsumerSetup ι σ) (plan : FaultPlan) (r : Chronicle σ) : Prop where
  planned : r.site.surroundings.queue.plan = plan
  serves : r.site.consumer.stage.Serves setup

/-- Every event takes the custody through a chain of effects. -/
theorem Standing.next (h : r.Standing setup plan) (event : Event) :
    (r.next setup event).Standing setup plan ∧
    Effects setup plan event r.custody (r.next setup event).custody := by
  cases event with
  | step =>
    obtain ⟨hserves, hplan, heff⟩ := Consumer.step_traced .step r.journal h.serves h.planned
    exact ⟨⟨hplan, hserves⟩, heff⟩
  | command command =>
    obtain ⟨hplan, hstage⟩ := apply_keeps setup r.site command
    exact ⟨⟨hplan.trans h.planned, hstage ▸ h.serves⟩, command_effects command⟩
  | tick span =>
    refine ⟨⟨h.planned, h.serves⟩, .single ?_⟩
    rw [custody_tick]
    exact .passes rfl
  | foreign call => exact ⟨⟨h.planned, h.serves⟩, foreign_effects call⟩

theorem standing_opening (setup : ConsumerSetup ι σ) (workOnStartup createQueue : Bool)
    (plan : FaultPlan) (ofDay : Instant) (handlers : σ) :
    (opening setup workOnStartup createQueue plan ofDay handlers).Standing setup plan :=
  ⟨rfl, trivial⟩

/-- What every effect of every event preserves holds after a run. -/
theorem Standing.run_invariant {events : List Event} (h : r.Standing setup plan)
    (invariant : Custody σ → Prop) (holds : invariant r.custody)
    (preserved : ∀ event ∈ events, ∀ k k', invariant k → Effect setup plan event k k' →
      invariant k') :
    invariant (r.run setup events).custody := by
  induction events generalizing r with
  | nil => exact holds
  | cons event rest ih =>
    obtain ⟨hnext, heff⟩ := h.next event
    -- One event may have several effects: the invariant is carried through their chain.
    refine ih hnext ?_ fun e he => preserved e (List.mem_cons_of_mem _ he)
    generalize (r.next setup event).custody = last at heff
    induction heff with
    | refl => exact holds
    | tail _ effect hk => exact preserved event List.mem_cons_self _ _ hk effect

end Chronicle
end WorkQueue
