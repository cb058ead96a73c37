import Mathlib.Algebra.Order.BigOperators.Group.Finset
import Mathlib.Data.Fintype.Basic
import WorkQueue.Consumer.Fleet
import WorkQueue.Proofs.Consumer.Booking
import WorkQueue.Proofs.Queue.Visibility

/-! # Leases

A receive puts a window on the message that it hands out, and until that ends no other receive
hands it out. As long as every replica is done with its message before the window ends, the window
is a lease: nobody else takes the message in hand, and a message whose delete has been answered is
taken by nobody again.
-/
namespace WorkQueue
variable {ι σ : Type} {plan : FaultPlan}

/-! ## Messages that are gone -/

namespace QueueStore
variable {s : QueueStore} {queue : String} {id : Int}

/-- Whether an identity was given out and no message stands under it any more. -/
def Gone (s : QueueStore) (queue : String) (id : Int) : Prop :=
  id ≤ s.lastId ∧ s.message? queue id = none

/-- A message that never shows is gone. -/
theorem gone_iff_hidden (now : Instant) :
    s.Gone queue id ↔ ∀ until_, now < until_ → s.Hidden queue id until_ := by
  constructor
  · rintro ⟨hid, hnone⟩ until_ -
    refine ⟨hid, fun m hm => ?_⟩
    rw [hnone] at hm
    cases hm
  · intro h
    refine ⟨(h (now + 1) (Nat.lt_succ_self now)).1, ?_⟩
    cases hm : s.message? queue id with
    | none => rfl
    | some m =>
      have hlate := (h (max now m.visibleAt + 1) (Nat.lt_succ_of_le (Nat.le_max_left ..))).2 m hm
      exact absurd (Nat.le_max_right now m.visibleAt) (Nat.not_le_of_lt hlate)

end QueueStore

/-! ## What an effect does to leases -/

section
variable {setup : ConsumerSetup ι σ} {event : Event} {k k' : Custody σ} {id : Int}
  {until_ : Instant}

theorem Effect.now_le (he : Effect setup plan event k k') :
    k.now.running ≤ k'.now.running := by
  cases he with
  | passes by_ => exact Nat.le_add_right _ _
  | _ => exact Nat.le_refl _

theorem Effect.now_eq (he : Effect setup plan .step k k') : k'.now = k.now := by
  cases he with
  | passes by_ => cases by_
  | _ => rfl

theorem Effect.lastId_le (he : Effect setup plan event k k') :
    k.store.lastId ≤ k'.store.lastId := by
  cases he with
  | @takes store d free received =>
    rw [show store = (k.store.receive k.now _ _).1 from (congrArg Prod.fst received).symm,
      QueueStore.lastId_receive]
  | leaves hand of kept => exact Int.le_refl _
  | @deletes d ending store answer hand of warranted answered =>
    rcases answered with reached | ⟨rfl, -⟩
    · rw [show store = (k.store.delete setup.options.queue d.id).1 from congrArg Prod.fst reached,
        QueueStore.lastId_delete]
    · exact Int.le_refl _
  | @accepts delay store receipt sent =>
    rw [show store = (k.store.send k.now _ _ delay).1 from (congrArg Prod.fst sent).symm,
      QueueStore.lastId_send]
    omega
  | beside change => exact change.counter
  | borrowed by_ => rw [QueueStore.lastId_receive]
  | removed by_ => rw [QueueStore.lastId_delete]
  | passes by_ => exact Int.le_refl _

/-- What is out of sight stays there, and nobody gets it in hand. -/
theorem Effect.hidden (he : Effect setup plan event k k') (hs : k.store.Ordered)
    (h : k.store.Hidden setup.options.queue id until_) (early : k.now.running < until_) :
    k'.store.Hidden setup.options.queue id until_ ∧
      ∀ d, k'.inHand = some d → k.inHand = some d ∨ d.id ≠ id := by
  cases he with
  | @takes store d free received =>
    obtain ⟨hhidden, hother⟩ := h.receive hs early setup.options.invisibility
    rw [received] at hhidden hother
    refine ⟨hhidden, ?_⟩
    rintro e ⟨⟩
    exact .inr (hother d rfl)
  | leaves hand of kept => exact ⟨h, nofun⟩
  | @deletes d ending store answer hand of warranted answered =>
    refine ⟨?_, nofun⟩
    rcases answered with reached | ⟨rfl, -⟩
    · rw [show store = (k.store.delete setup.options.queue d.id).1 from congrArg Prod.fst reached]
      exact h.delete d.id
    · exact h
  | @accepts delay store receipt sent =>
    have hhidden := h.send hs (congrArg Prod.snd sent)
    rw [sent] at hhidden
    exact ⟨hhidden, fun d hd => .inl hd⟩
  | beside change => exact ⟨h.of_held_eq change.held change.counter, fun d hd => .inl hd⟩
  | borrowed by_ => exact ⟨(h.receive hs early _).1, fun d hd => .inl hd⟩
  | removed by_ => exact ⟨h.delete _, fun d hd => .inl hd⟩
  | passes by_ => exact ⟨h, fun d hd => .inl hd⟩

/-- What every effect of a chain preserves, as far as the clock comes, holds at its end. -/
theorem Effects.invariant (h : Effects setup plan event k k') (invariant : Custody σ → Prop)
    (holds : invariant k) (preserved : ∀ l l', invariant l → Effect setup plan event l l' →
      l'.now.running ≤ k'.now.running → invariant l') : invariant k' := by
  have reached : ∀ l, Effects setup plan event k l → l.now.running ≤ k'.now.running →
      invariant l := by
    intro l hl
    induction hl with
    | refl => exact fun _ => holds
    | @tail l l' _ he ih =>
      exact fun hle => preserved l l' (ih (Nat.le_trans he.now_le hle)) he hle
  exact reached k' h (Nat.le_refl _)

namespace Custody
variable {leases : Int → Instant → Prop} {others : Int → Nat}

/-- What the custody of one replica says as long as the others hold leases. -/
structure Apart (queue : String) (leases : Int → Instant → Prop) (k : Custody σ) : Prop where
  ordered : k.store.Ordered
  known : ∀ d, k.inHand = some d → d.id ≤ k.store.lastId
  hidden : ∀ id until_, leases id until_ → k.store.Hidden queue id until_
  apart : ∀ d until_, k.inHand = some d → ¬ leases d.id until_

theorem Apart.effect (h : k.Apart setup.options.queue leases)
    (early : ∀ id until_, leases id until_ → k.now.running < until_)
    (he : Effect setup plan event k k') : k'.Apart setup.options.queue leases := by
  refine ⟨he.ordered h.ordered, ?_, fun id until_ hl => ?_, fun d until_ hand hl => ?_⟩
  · have hcounter := he.lastId_le
    cases he with
    | takes free received =>
      rintro d ⟨⟩
      exact (QueueStore.hidden_of_received h.ordered received).1
    | leaves hand of kept => exact nofun
    | deletes hand of warranted answered => exact nofun
    | _ => exact fun d hd => Int.le_trans (h.known d hd) hcounter
  · exact (he.hidden h.ordered (h.hidden id until_ hl) (early id until_ hl)).1
  · rcases (he.hidden h.ordered (h.hidden d.id until_ hl) (early d.id until_ hl)).2 d hand with
      before | hne
    · exact h.apart d until_ before hl
    · exact hne rfl

end Custody

/-! ## Acknowledged messages -/

/-- How often the delete of a message was issued and answered. -/
def Journal.acknowledged (j : Journal) (id : Int) : Nat :=
  j.deletes.countP fun delete => delete.1 == id && delete.2.isOk

/-- An effect acknowledges at most the message in hand. -/
theorem Effect.acknowledged (he : Effect setup plan event k k')
    (entered : Custody.Entered setup k.journal.entries k.inHand) (id : Int) :
    k'.journal.acknowledged id = k.journal.acknowledged id ∨
      k'.journal.acknowledged id = k.journal.acknowledged id + 1 ∧
        (∃ d, k.inHand = some d ∧ d.id = id) ∧ k'.inHand = none ∧
        k'.store = (k.store.delete setup.options.queue id).1 := by
  unfold Journal.acknowledged
  cases he with
  | takes free received => exact .inl rfl
  | @leaves d ending hand of kept =>
    obtain ⟨older, hentries, -⟩ := entered.latest hand
    left
    simp only [Journal.close_open hentries, Journal.deletes, hentries, List.flatMap_cons]
  | @deletes d ending store answer hand of warranted answered =>
    obtain ⟨older, hentries, -⟩ := entered.latest hand
    simp only [Journal.close_deleted hentries, Journal.deletes, hentries, List.flatMap_cons,
      List.nil_append, List.singleton_append, List.countP_cons]
    by_cases hit : d.id = id ∧ answer.isOk = true
    · obtain ⟨rfl, hok⟩ := hit
      rcases answered with reached | ⟨-, n, failure, -, rfl⟩
      · exact .inr ⟨by simp [hok], ⟨d, hand, rfl⟩, trivial, congrArg Prod.fst reached⟩
      · cases hok
    · left
      have hmiss : (d.id == id && answer.isOk) = false := by simpa using hit
      simp [hmiss]
  | accepts sent => exact .inl rfl
  | beside change => exact .inl rfl
  | borrowed by_ => exact .inl rfl
  | removed by_ => exact .inl rfl
  | passes by_ => exact .inl rfl

theorem Effect.gone (he : Effect setup plan event k k') (hs : k.store.Ordered)
    (h : k.store.Gone setup.options.queue id) :
    k'.store.Gone setup.options.queue id ∧
      ∀ d, k'.inHand = some d → k.inHand = some d ∨ d.id ≠ id := by
  have hidden := (QueueStore.gone_iff_hidden k.now.running).mp h
  refine ⟨(QueueStore.gone_iff_hidden k.now.running).mpr fun until_ early => ?_, ?_⟩
  · exact (he.hidden hs (hidden until_ early) early).1
  · have early := Nat.lt_succ_self k.now.running
    exact (he.hidden hs (hidden _ early) early).2

namespace Custody
variable {leases : Int → Instant → Prop} {others : Int → Nat}

/-- Each message is acknowledged once at most, by this replica or by another. After that it is gone
and nobody has it in hand. -/
structure Spent (queue : String) (leases : Int → Instant → Prop) (others : Int → Nat)
    (k : Custody σ) : Prop where
  once : ∀ id, k.journal.acknowledged id + others id ≤ 1
  gone : ∀ id, k.journal.acknowledged id + others id ≠ 0 → k.store.Gone queue id ∧
    (∀ until_, ¬ leases id until_) ∧ ∀ d, k.inHand = some d → d.id ≠ id

theorem Spent.effect (h : k.Spent setup.options.queue leases others)
    (apart : k.Apart setup.options.queue leases)
    (entered : Entered setup k.journal.entries k.inHand) (he : Effect setup plan event k k') :
    k'.Spent setup.options.queue leases others := by
  have each : ∀ id, k'.journal.acknowledged id + others id ≤ 1 ∧
      (k'.journal.acknowledged id + others id ≠ 0 → k'.store.Gone setup.options.queue id ∧
        (∀ until_, ¬ leases id until_) ∧ ∀ d, k'.inHand = some d → d.id ≠ id) := by
    intro id
    rcases he.acknowledged entered id with same | ⟨raised, ⟨d, hand, rfl⟩, free, hstore⟩
    · rw [same]
      refine ⟨h.once id, fun spent => ?_⟩
      obtain ⟨gone, unleased, away⟩ := h.gone id spent
      obtain ⟨gone', kept⟩ := he.gone apart.ordered gone
      refine ⟨gone', unleased, fun d hd => ?_⟩
      rcases kept d hd with before | hne
      · exact away d before
      · exact hne
    · -- The message in hand has not been acknowledged before, or nobody would have it in hand.
      have first : k.journal.acknowledged d.id + others d.id = 0 := by
        by_contra spent
        exact (h.gone d.id spent).2.2 d hand rfl
      refine ⟨by omega, fun _ => ⟨⟨?_, ?_⟩, fun until_ => apart.apart d until_ hand, ?_⟩⟩
      · rw [hstore, QueueStore.lastId_delete]
        exact apart.known d hand
      · rw [hstore, QueueStore.message?_delete, if_pos ⟨rfl, rfl⟩]
      · rw [free]
        exact nofun
  exact ⟨fun id => (each id).1, fun id => (each id).2⟩

end Custody

theorem countP_le_countP_flatMap {α β : Type} {p : α → Bool} {q : β → Bool} {f : α → List β}
    {l : List α} (h : ∀ x ∈ l, p x = true → 0 < (f x).countP q) :
    l.countP p ≤ (l.flatMap f).countP q := by
  induction l with
  | nil => exact Nat.le_refl _
  | cons x rest ih =>
    have hrest := ih fun y hy => h y (List.mem_cons_of_mem x hy)
    have hfirst := h x List.mem_cons_self
    rw [List.flatMap_cons, List.countP_append, List.countP_cons]
    split
    · next hp =>
      have hpos := hfirst hp
      omega
    · omega

/-- If every delete was answered, a handler has succeeded with a message no more often than that was
acknowledged. -/
theorem Custody.Entered.successes_le {j : Journal} {inHand : Option Delivery}
    (h : Entered setup j.entries inHand) (answered : ∀ delete ∈ j.deletes, delete.2.isOk = true)
    (id : Int) : j.successes id ≤ j.acknowledged id := by
  rw [Journal.successes, Journal.entriesOf, List.countP_filter]
  refine countP_le_countP_flatMap fun entry hm hboth => ?_
  obtain ⟨succeeded, hid⟩ := Bool.and_eq_true_iff.mp hboth
  rcases h.settled_or_open hm with ⟨ending, hending, -, hdeletes⟩ | ⟨d, -, rfl⟩
  · simp only [Entry.succeeded, hending] at succeeded
    cases ending with
    | malformed failure => cases succeeded
    | dispatched item result =>
      cases result with
      | error failure => cases succeeded
      | ok done =>
        obtain ⟨answer, hdeletes⟩ := hdeletes
        have hok : answer.isOk = true := by
          refine answered (entry.delivery.id, answer) (List.mem_flatMap.mpr ⟨entry, hm, ?_⟩)
          rw [hdeletes]
          exact List.mem_singleton_self _
        have hacknowledged : (entry.delivery.id == id && answer.isOk) = true := by
          rw [hid, hok]
          rfl
        simp [hdeletes, hacknowledged]
  · cases succeeded

end

/-! ## Leases of a fleet -/

namespace Consumer
variable {setup : ConsumerSetup ι σ} {c : Consumer} {d : Delivery}

/-- Going on with a delivery keeps it in hand, or ends with nothing in hand. -/
theorem follow_inHand? (setup : ConsumerSetup ι σ) (c : Consumer) (d : Delivery)
    (run : AttemptRun σ) :
    (c.follow setup d run).consumer.stage.inHand? = some d ∨
      (c.follow setup d run).consumer.stage.inHand? = none := by
  cases he : run.progress with
  | suspended item wait =>
    rw [follow_suspended he]
    exact .inl rfl
  | ended ending =>
    right
    rw [follow_ended he]
    cases hv : (ending.verdict setup.options.maxAttempts d.attempt).deletes with
    | false =>
      obtain ⟨-, -, hc⟩ := close_of_keeps (c := c) (s := run.surroundings) hv
      simp only [Turn.after, hc]
      exact (Verdict.onward_inHand? setup _).1
    | true =>
      obtain ⟨-, -, hc⟩ := close_of_deletes (c := c) (s := run.surroundings) hv
      simp only [Turn.after, hc]
      exact (stageAfter_inHand? setup _ _).1

end Consumer

/-- An event keeps the delivery in hand or ends with nothing in hand, and only a step takes one. -/
theorem Chronicle.next_inHand? (setup : ConsumerSetup ι σ) (r : Chronicle σ) (event : Event) :
    let before := r.site.consumer.stage.inHand?
    let after := (r.next setup event).site.consumer.stage.inHand?
    (before.isSome = true → after = before ∨ after = none) ∧ (event ≠ .step → after = before) := by
  intro before after
  cases event with
  | step =>
    refine ⟨fun hsome => ?_, fun h => absurd rfl h⟩
    cases hs : r.site.consumer.stage with
    | handling d item wait =>
      have hstep : r.site.consumer.step setup r.site.surroundings =
          r.site.consumer.follow setup d (r.site.consumer.resume r.site.surroundings item wait) := by
        simp only [Consumer.step, hs]
      have hafter : after =
          (r.site.consumer.step setup r.site.surroundings).consumer.stage.inHand? := rfl
      rw [hafter, hstep, show before = some d by simp [before, hs, Stage.inHand?]]
      exact Consumer.follow_inHand? setup _ d _
    | _ => simp [before, hs, Stage.inHand?] at hsome
  | command command =>
    have heq : after = before := congrArg Stage.inHand? (apply_keeps setup r.site command).2
    exact ⟨fun _ => .inl heq, fun _ => heq⟩
  | tick span => exact ⟨fun _ => .inl rfl, fun _ => rfl⟩
  | foreign call => exact ⟨fun _ => .inl rfl, fun _ => rfl⟩

namespace Fleet
variable {κ : Type} [DecidableEq κ] {setup : κ → ConsumerSetup ι σ} {queue : String}
  {f : Fleet κ σ} {i j : κ} {event : Event}

theorem chronicle_next (setup : κ → ConsumerSetup ι σ) (f : Fleet κ σ) (i : κ) (event : Event) :
    (f.next setup (i, event)).chronicle i = (f.chronicle i).next (setup i) event := by
  simp [next, chronicle]

theorem member_next_of_ne (h : j ≠ i) : (f.next setup (i, event)).member j = f.member j :=
  Function.update_of_ne h _ _

theorem inHand?_next_of_ne (h : j ≠ i) : (f.next setup (i, event)).inHand? j = f.inHand? j := by
  simp only [inHand?, member_next_of_ne h]

theorem leaseEnd_next_of_ne (h : j ≠ i) :
    (f.next setup (i, event)).leaseEnd setup j = f.leaseEnd setup j := by
  simp only [leaseEnd, member_next_of_ne h]

/-- The leases that all replicas but one hold. -/
def Leases (setup : κ → ConsumerSetup ι σ) (f : Fleet κ σ) (i : κ) (id : Int) (until_ : Instant) :
    Prop :=
  ∃ j d, j ≠ i ∧ f.inHand? j = some d ∧ d.id = id ∧ f.leaseEnd setup j = until_

/-- Every message in hand is out of sight until its lease ends, and no two replicas have the same
message in hand. -/
structure Leased (setup : κ → ConsumerSetup ι σ) (plan : FaultPlan) (queue : String)
    (f : Fleet κ σ) : Prop where
  standing : ∀ i, (f.chronicle i).Standing (setup i) plan
  ordered : f.queue.store.Ordered
  hidden : ∀ i d, f.inHand? i = some d → f.queue.store.Hidden queue d.id (f.leaseEnd setup i)
  apart : ∀ i j d e, i ≠ j → f.inHand? i = some d → f.inHand? j = some e → d.id ≠ e.id

omit [DecidableEq κ] in
theorem Leased.custody (h : f.Leased setup plan queue) (i : κ) :
    (f.chronicle i).custody.Apart queue (f.Leases setup i) := by
  refine ⟨h.ordered, fun d hand => (h.hidden i d hand).1, ?_, ?_⟩
  · rintro id until_ ⟨j, d, -, hand, rfl, rfl⟩
    exact h.hidden j d hand
  · rintro d until_ hand ⟨j, e, hne, hand', hid, -⟩
    exact h.apart i j d e hne.symm hand hand' hid.symm

/-- The other replicas' leases outlast an event that leaves everybody in time. -/
theorem InTime.early (timely : (f.next setup (i, event)).InTime setup) {id : Int}
    {until_ : Instant} (hl : f.Leases setup i id until_) :
    (f.next setup (i, event)).now.running < until_ := by
  obtain ⟨j, d, hne, hand, -, rfl⟩ := hl
  have hj := timely j
  rw [inHand?_next_of_ne hne, hand, leaseEnd_next_of_ne hne] at hj
  exact hj rfl

/-- What the effects of an event preserve, as long as the other replicas' leases run. -/
theorem Leased.next_invariant (h : f.Leased setup plan queue)
    (shared : (setup i).options.queue = queue) (timely : (f.next setup (i, event)).InTime setup)
    (invariant : Custody σ → Prop) (holds : invariant (f.chronicle i).custody)
    (preserved : ∀ k k', k.Apart (setup i).options.queue (f.Leases setup i) → invariant k →
      Effect (setup i) plan event k k' →
      k'.now.running ≤ (f.next setup (i, event)).now.running → invariant k') :
    ((f.next setup (i, event)).chronicle i).custody.Apart queue (f.Leases setup i) ∧
      invariant ((f.next setup (i, event)).chronicle i).custody := by
  subst shared
  rw [chronicle_next]
  refine Effects.invariant ((h.standing i).next event).2
    (fun k => k.Apart (setup i).options.queue (f.Leases setup i) ∧ invariant k)
    ⟨h.custody i, holds⟩ ?_
  rintro k k' ⟨apart, hk⟩ he hle
  have early : ∀ id until_, f.Leases setup i id until_ → k.now.running < until_ :=
    fun id until_ hl => Nat.lt_of_le_of_lt (Nat.le_trans he.now_le hle) (timely.early hl)
  exact ⟨apart.effect early he, preserved k k' apart hk he hle⟩

/-- A delivery that was taken after an event keeps out of sight until its own lease ends. -/
theorem Leased.next_hidden (h : f.Leased setup plan queue) (shared : (setup i).options.queue = queue)
    (timely : (f.next setup (i, event)).InTime setup) {d : Delivery}
    (hand : (f.next setup (i, event)).inHand? i = some d) :
    (f.next setup (i, event)).queue.store.Hidden queue d.id
      ((f.next setup (i, event)).leaseEnd setup i) := by
  have hend : (f.next setup (i, event)).now.running <
      (f.next setup (i, event)).leaseEnd setup i := timely i (by rw [hand]; rfl)
  have hlease : (f.next setup (i, event)).leaseEnd setup i =
      windowEnd (if (f.inHand? i).isSome then (f.member i).taken else f.now.running)
        (setup i).options.invisibility := by
    simp [leaseEnd, next]
  have hafter : (f.next setup (i, event)).inHand? i =
      ((f.chronicle i).next (setup i) event).site.consumer.stage.inHand? := by
    simp [inHand?, next]
  obtain ⟨hkeeps, htakes⟩ := Chronicle.next_inHand? (setup i) (f.chronicle i) event
  rw [← hafter] at hkeeps htakes
  cases hbefore : f.inHand? i with
  | some e =>
    -- It has been in hand before, and what is out of sight stays there.
    have hsame : d = e := by
      rcases hkeeps (congrArg Option.isSome hbefore) with same | none
      · exact Option.some.inj (hand.symm.trans (same.trans hbefore))
      · rw [hand] at none
        cases none
    subst hsame
    have hrest : (f.next setup (i, event)).leaseEnd setup i = f.leaseEnd setup i := by
      rw [hlease, hbefore]
      rfl
    rw [hrest] at hend ⊢
    refine (h.next_invariant shared timely
      (fun k => k.store.Hidden queue d.id (f.leaseEnd setup i)) (h.hidden i d hbefore) ?_).2
    intro k k' apart hidden he hle
    subst shared
    exact (he.hidden apart.ordered hidden
      (Nat.lt_of_le_of_lt (Nat.le_trans he.now_le hle) hend)).1
  | none =>
    -- It was taken in this step, at the time that the lease starts from.
    have hstep : event = .step := by
      by_contra hother
      have hnone := htakes hother
      rw [hand] at hnone
      exact absurd (hnone.trans hbefore) nofun
    subst hstep
    have hrest : (f.next setup (i, .step)).leaseEnd setup i =
        windowEnd f.now.running (setup i).options.invisibility := by
      rw [hlease, hbefore]
      rfl
    rw [hrest] at hend ⊢
    refine (h.next_invariant shared timely
      (fun k => k.now = f.now ∧ ∀ d, k.inHand = some d → k.store.Hidden queue d.id
        (windowEnd f.now.running (setup i).options.invisibility)) ⟨rfl, fun d hd => ?_⟩ ?_).2.2
      d hand
    · exact absurd (hbefore.symm.trans hd) nofun
    · rintro k k' apart ⟨hnow, hidden⟩ he hle
      subst shared
      have hkept := fun d (hd : k.inHand = some d) => (he.hidden apart.ordered (hidden d hd)
        (Nat.lt_of_le_of_lt (Nat.le_trans he.now_le hle) hend)).1
      refine ⟨he.now_eq.trans hnow, ?_⟩
      cases he with
      | takes free received =>
        rintro d ⟨⟩
        exact hnow ▸ QueueStore.hidden_of_received apart.ordered received
      | leaves hand of kept => exact nofun
      | deletes hand of warranted answered => exact nofun
      | _ => exact hkept

theorem Leased.next (h : f.Leased setup plan queue) (shared : (setup i).options.queue = queue)
    (timely : (f.next setup (i, event)).InTime setup) :
    (f.next setup (i, event)).Leased setup plan queue := by
  obtain ⟨⟨hplanned, hserves⟩, -⟩ := (h.standing i).next event
  obtain ⟨apart, -⟩ := h.next_invariant shared timely (fun _ => True) trivial fun _ _ _ _ _ _ =>
    trivial
  have hown : ∀ j d e, j ≠ i → (f.next setup (i, event)).inHand? i = some d →
      f.inHand? j = some e → d.id ≠ e.id := by
    intro j d e hne hand hand' hid
    exact apart.apart d _ hand ⟨j, e, hne, hand', hid.symm, rfl⟩
  refine ⟨fun j => ?_, apart.ordered, fun j d hand => ?_, fun j l d e hne hand hand' => ?_⟩
  · by_cases hj : j = i
    · subst hj
      rw [chronicle_next]
      exact ⟨hplanned, hserves⟩
    · have hmember : (f.next setup (i, event)).member j = f.member j := member_next_of_ne hj
      refine ⟨hplanned, ?_⟩
      change ((f.next setup (i, event)).member j).consumer.stage.Serves (setup j)
      exact hmember ▸ (h.standing j).serves
  · by_cases hj : j = i
    · subst hj
      exact h.next_hidden shared timely hand
    · rw [inHand?_next_of_ne hj] at hand
      rw [leaseEnd_next_of_ne hj]
      exact apart.hidden d.id _ ⟨j, d, hj, hand, rfl, rfl⟩
  · by_cases hj : j = i
    · subst hj
      rw [inHand?_next_of_ne hne.symm] at hand'
      exact hown l d e hne.symm hand hand'
    · rw [inHand?_next_of_ne hj] at hand
      by_cases hl : l = i
      · subst hl
        exact (hown j e d hj hand' hand).symm
      · rw [inHand?_next_of_ne hl] at hand'
        exact h.apart j l d e hne hand hand'

/-! ## Acknowledgements of a fleet -/

section
variable [Fintype κ]

/-- How often the other replicas have acknowledged a message. -/
def others (f : Fleet κ σ) (i : κ) (id : Int) : Nat :=
  ∑ j ∈ Finset.univ.erase i, (f.member j).journal.acknowledged id

theorem acknowledged_add_others (f : Fleet κ σ) (i : κ) (id : Int) :
    (f.member i).journal.acknowledged id + f.others i id =
      ∑ j, (f.member j).journal.acknowledged id :=
  Finset.add_sum_erase Finset.univ (fun j => (f.member j).journal.acknowledged id)
    (Finset.mem_univ i)

theorem others_next (setup : κ → ConsumerSetup ι σ) (f : Fleet κ σ) (i : κ) (event : Event) :
    (f.next setup (i, event)).others i = f.others i := by
  funext id
  refine Finset.sum_congr rfl fun j hj => ?_
  rw [member_next_of_ne (Finset.ne_of_mem_erase hj)]

/-- Each message is acknowledged once at most by all replicas together. After that it is gone and
nobody has it in hand. -/
structure Spent (setup : κ → ConsumerSetup ι σ) (queue : String) (f : Fleet κ σ) : Prop where
  entered : ∀ i, Custody.Entered (setup i) (f.member i).journal.entries (f.inHand? i)
  once : ∀ id, ∑ i, (f.member i).journal.acknowledged id ≤ 1
  gone : ∀ id, ∑ i, (f.member i).journal.acknowledged id ≠ 0 → f.queue.store.Gone queue id ∧
    ∀ i d, f.inHand? i = some d → d.id ≠ id

theorem Spent.custody (h : f.Spent setup queue) (i : κ) :
    (f.chronicle i).custody.Spent queue (f.Leases setup i) (f.others i) := by
  refine ⟨fun id => ?_, fun id hspent => ?_⟩
  · exact (f.acknowledged_add_others i id).trans_le (h.once id)
  · obtain ⟨gone, away⟩ := h.gone id (f.acknowledged_add_others i id ▸ hspent)
    refine ⟨gone, ?_, fun d hand => away i d hand⟩
    rintro until_ ⟨j, d, -, hand, hid, -⟩
    exact away j d hand hid

theorem Spent.next (h : f.Spent setup queue) (leased : f.Leased setup plan queue)
    (shared : (setup i).options.queue = queue) (timely : (f.next setup (i, event)).InTime setup) :
    (f.next setup (i, event)).Spent setup queue := by
  obtain ⟨-, entered, spent⟩ := leased.next_invariant shared timely
    (fun k => Custody.Entered (setup i) k.journal.entries k.inHand ∧
      k.Spent queue (f.Leases setup i) (f.others i)) ⟨h.entered i, h.custody i⟩ (by
    rintro k k' apart ⟨entered, spent⟩ he -
    subst shared
    exact ⟨entered.effect he, spent.effect apart entered he⟩)
  rw [← others_next setup f i event] at spent
  refine ⟨fun j => ?_, fun id => ?_, fun id hspent => ?_⟩
  · by_cases hj : j = i
    · subst hj
      exact entered
    · rw [member_next_of_ne hj, inHand?_next_of_ne hj]
      exact h.entered j
  · rw [← acknowledged_add_others _ i]
    exact spent.once id
  · rw [← acknowledged_add_others _ i] at hspent
    obtain ⟨gone, unleased, away⟩ := spent.gone id hspent
    refine ⟨gone, fun j d hand hid => ?_⟩
    by_cases hj : j = i
    · subst hj
      exact away d hand hid
    · rw [inHand?_next_of_ne hj] at hand
      exact unleased _ ⟨j, d, hj, hand, hid, rfl⟩

section
variable (setup : κ → ConsumerSetup ι σ) (workOnStartup : κ → Bool) (createQueue : Bool)
  (ofDay : Instant) (handlers : κ → σ)

omit [DecidableEq κ] [Fintype κ] in
theorem leased_opening :
    (opening queue workOnStartup createQueue plan ofDay handlers).Leased setup plan queue := by
  refine ⟨fun i => ⟨rfl, trivial⟩, ?_, fun i d hand => ?_, fun i j d e _ hand => ?_⟩
  · simp only [opening]
    split
    · exact QueueStore.ordered_empty.create
    · exact QueueStore.ordered_empty
  · cases hand
  · cases hand

omit [DecidableEq κ] in
theorem spent_opening :
    (opening queue workOnStartup createQueue plan ofDay handlers).Spent setup queue := by
  have hnone : ∀ id, ∑ i, ((opening queue workOnStartup createQueue plan ofDay
      handlers).member i).journal.acknowledged id = 0 :=
    fun id => Finset.sum_eq_zero fun i _ => rfl
  refine ⟨fun i => List.forall_mem_nil _, fun id => ?_, fun id hspent => ?_⟩
  · rw [hnone]
    exact Nat.zero_le 1
  · exact absurd (hnone id) hspent

end

omit [Fintype κ] in
theorem run_concat (setup : κ → ConsumerSetup ι σ) (f : Fleet κ σ) (events : List (κ × Event))
    (last : κ × Event) : f.run setup (events ++ [last]) = (f.run setup events).next setup last :=
  List.foldl_concat _ _ _ _

/-- Leases hold through every run that is in time throughout. -/
theorem Leased.run (leased : f.Leased setup plan queue) (spent : f.Spent setup queue)
    (shared : ∀ i, (setup i).options.queue = queue) {events : List (κ × Event)}
    (timely : ∀ before, before <+: events → (f.run setup before).InTime setup) :
    (f.run setup events).Leased setup plan queue ∧ (f.run setup events).Spent setup queue := by
  induction events using List.reverseRecOn with
  | nil => exact ⟨leased, spent⟩
  | append_singleton events last ih =>
    obtain ⟨hleased, hspent⟩ :=
      ih fun before hb => timely before (hb.trans (List.prefix_append _ _))
    have hlast := timely (events ++ [last]) List.prefix_rfl
    rw [run_concat] at hlast ⊢
    exact ⟨hleased.next (shared last.1) hlast, hspent.next hleased (shared last.1) hlast⟩

/-- Any number of replicas share a queue, and whatever happens, each is done with every message that
it takes before the window ends that it has asked for. Then no two of them ever have the same
message in hand. If every delete that they issued was answered, a handler has succeeded with a
message once at most over all replicas. -/
theorem replicas_exclusive (setup : κ → ConsumerSetup ι σ) (queue : String)
    (workOnStartup : κ → Bool) (createQueue : Bool) (plan : FaultPlan) (ofDay : Instant)
    (handlers : κ → σ) (events : List (κ × Event))
    (shared : ∀ i, (setup i).options.queue = queue)
    (timely : ∀ before, before <+: events →
      ((opening queue workOnStartup createQueue plan ofDay handlers).run setup before).InTime
        setup) :
    let f := (opening queue workOnStartup createQueue plan ofDay handlers).run setup events
    (∀ i j d e, i ≠ j → f.inHand? i = some d → f.inHand? j = some e → d.id ≠ e.id) ∧
    ((∀ i, ∀ delete ∈ (f.member i).journal.entries.flatMap Entry.deletes, delete.2.isOk = true) →
      ∀ id, ∑ i, (f.member i).journal.successes id ≤ 1) := by
  intro f
  obtain ⟨leased, spent⟩ : f.Leased setup plan queue ∧ f.Spent setup queue :=
    (leased_opening setup workOnStartup createQueue ofDay handlers).run
      (spent_opening setup workOnStartup createQueue ofDay handlers) shared timely
  refine ⟨leased.apart, fun answered id => ?_⟩
  calc ∑ i, (f.member i).journal.successes id
      ≤ ∑ i, (f.member i).journal.acknowledged id :=
        Finset.sum_le_sum fun i _ => (spent.entered i).successes_le (answered i) id
    _ ≤ 1 := spent.once id

end

/-- A consumer whose handler sleeps over every work item and then succeeds. -/
def asleep (span : Duration) : ConsumerSetup WorkItem Nat :=
  { ConsumerSetup.uniform 3 (.ok ()) with
    handler := ⟨fun _ handled => (handled + 1, .sleep span (.done (.ok ())))⟩ }

/-- While the handler of one replica sleeps over a message, the other replica finds the queue empty,
and after its success nobody has it any more. -/
theorem replicas_exclusive_of_sleeping :
    let setup : Fin 2 → ConsumerSetup WorkItem Nat := fun _ => asleep (.ofSeconds 59)
    let body := "\x7b\"id\":\"a\",\"type\":\"t\"\x7d"
    let first : List (Fin 2 × Event) := [(0, .command (.send body .zero)), (0, .step), (0, .step)]
    let events := first ++ [(1, .step), (1, .step), (1, .tick (59 * nanosPerSecond)), (0, .step)]
    let f := opening "q" (fun _ => true) true .none 0 fun _ => 0
    (∀ i, (setup i).options.queue = "q") ∧
      (∀ before, before <+: events → (f.run setup before).InTime setup) ∧
      ((f.run setup first).inHand? 0).isSome = true ∧
      ∑ i, ((f.run setup events).member i).journal.successes 1 = 1 := by
  intro setup body first events f
  have hshared : ∀ i, (setup i).options.queue = "q" := fun _ => rfl
  have hinits : ∀ before ∈ events.inits, (f.run setup before).InTime setup := by decide +kernel
  have htimely : ∀ before, before <+: events → (f.run setup before).InTime setup :=
    fun before hb => hinits before ((List.mem_inits before events).mpr hb)
  obtain ⟨-, hsuccess⟩ := replicas_exclusive setup "q" (fun _ => true) true .none 0 (fun _ => 0)
    events hshared htimely
  rw [show opening "q" (fun _ => true) true .none 0 (fun _ => 0) = f from rfl] at hsuccess
  have hanswered : ∀ i, ∀ delete ∈ ((f.run setup events).member i).journal.entries.flatMap
      Entry.deletes, delete.2.isOk = true := by decide +kernel
  have hone : 1 ≤ ∑ i, ((f.run setup events).member i).journal.successes 1 := by decide +kernel
  have hhand : ((f.run setup first).inHand? 0).isSome = true := by decide +kernel
  exact ⟨hshared, htimely, hhand, Nat.le_antisymm (hsuccess hanswered 1) hone⟩

/-- At the very end of a window another replica takes the message, and two have it in hand. -/
example :
    let setup : Fin 2 → ConsumerSetup WorkItem Nat := fun _ => asleep (.ofSeconds 61)
    let body := "\x7b\"id\":\"a\",\"type\":\"t\"\x7d"
    let events : List (Fin 2 × Event) := [(0, .command (.send body .zero)), (0, .step), (0, .step),
      (0, .tick (60 * nanosPerSecond)), (1, .step), (1, .step)]
    let f := (opening "q" (fun _ => true) true .none 0 fun _ => 0).run setup events
    ∀ i, (f.inHand? i).map Delivery.id = some 1 := by
  decide +kernel

end Fleet
end WorkQueue
