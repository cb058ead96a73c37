import WorkQueue.Proofs.Consumer.Acknowledgement
import WorkQueue.Proofs.Consumer.Cancellation
import WorkQueue.Proofs.Consumer.Lease
import WorkQueue.Proofs.Consumer.Telemetry

/-! # What the counter of discarded messages counts

A message that is given up is counted as discarded before its delete is issued. So the counter is
the number of attempts that ended so: of messages that are gone, and of messages whose delete has
failed, which come back and are counted again.
-/
namespace WorkQueue
variable {ι σ : Type} {setup : ConsumerSetup ι σ} {plan : FaultPlan}

/-- Whether a series counts discarded messages. -/
def Series.isEviction : Series → Bool
  | .evicted _ _ => true
  | _ => false

def Verdict.discards : Verdict → Bool
  | .discard _ => true
  | _ => false

namespace Entry

/-- Whether the attempt ended with the message given up. -/
def discarded (setup : ConsumerSetup ι σ) (entry : Entry) : Bool :=
  entry.ending.any fun ending =>
    (ending.verdict setup.options.maxAttempts entry.delivery.attempt).discards

/-- Whether a delete of the message was issued and answered. -/
def deleted (entry : Entry) : Bool := entry.deletes.any fun delete => delete.2.isOk

end Entry

/-- Whether a message was deleted upon the success of its handler. -/
def Journal.processed (j : Journal) (id : Int) : Bool :=
  j.entries.any fun entry => entry.delivery.id == id && entry.succeeded && entry.deleted

/-- The messages that the queue accepted and does not hold any more, without having been deleted
upon a success. -/
def Chronicle.lost (setup : ConsumerSetup ι σ) (r : Chronicle σ) : List (Int × String) :=
  r.journal.accepted.filter fun m =>
    !r.site.surroundings.queue.store.contains setup.options.queue m.1 && !r.journal.processed m.1

/-! ## Where the deliveries come from -/

namespace QueueStore
variable {s : QueueStore} {queue name body : String} {now : Moment} {delay : Duration}

theorem contains_of_contains_delete {id other : Int}
    (h : (s.delete queue id).1.contains name other = true) : s.contains name other = true := by
  rw [contains_eq_isSome, message?_delete] at h
  split at h
  · cases h
  · rwa [contains_eq_isSome]

/-- Only the message that is sent can be new in a queue, and its identity has not been in use. -/
theorem contains_of_contains_send (ordered : s.Ordered) {receipt : Receipt}
    (h : (s.send now queue body delay).2 = .ok receipt) {id : Int}
    (held : (s.send now queue body delay).1.contains name id = true) :
    s.lastId < receipt.id ∧ (s.contains name id = true ∨ id = receipt.id) := by
  obtain ⟨rfl, hview⟩ := message?_send_ok ordered h
  rw [contains_eq_isSome, hview] at held
  refine ⟨Int.lt_succ s.lastId, ?_⟩
  split at held
  · next hnew => exact .inr hnew.2
  · exact .inl (by rwa [contains_eq_isSome])

end QueueStore

namespace Custody
variable {k k' : Custody σ} {event : Event}

/-- The accepted messages have identities of their own, and nothing else is held or delivered. -/
structure Sourced (queue : String) (k : Custody σ) : Prop where
  distinct : (k.journal.accepted.map Prod.fst).Nodup
  known : ∀ id ∈ k.journal.accepted.map Prod.fst, id ≤ k.store.lastId
  held : ∀ id, k.store.contains queue id = true → id ∈ k.journal.accepted.map Prod.fst
  delivered : ∀ d ∈ k.journal.entries.map Entry.delivery,
    d.id ∈ k.journal.accepted.map Prod.fst

theorem Sourced.effect (h : k.Sourced setup.options.queue) (ordered : k.store.Ordered)
    (entered : Entered setup k.journal.entries k.inHand) (he : Effect setup plan event k k') :
    k'.Sourced setup.options.queue := by
  have hcounter := he.lastId_le
  cases he with
  | @takes store d free received =>
    have hstore :
        (k.store.receive k.now setup.options.queue setup.options.invisibility).1 = store :=
      congrArg Prod.fst received
    obtain ⟨m, hm, -, -⟩ := QueueStore.message?_receive ordered (congrArg Prod.snd received)
    have hheld : k.store.contains setup.options.queue d.id = true := by
      rw [QueueStore.contains_eq_isSome, hm]
      rfl
    refine ⟨h.distinct, fun id hid => Int.le_trans (h.known id hid) hcounter, fun id hid => ?_, ?_⟩
    · rw [← hstore, QueueStore.contains_receive] at hid
      exact h.held id hid
    · intro e he
      rcases List.mem_cons.mp he with rfl | he
      · exact h.held e.id hheld
      · exact h.delivered e he
  | @leaves d ending hand of kept =>
    obtain ⟨older, hentries, -⟩ := entered.latest hand
    have hdelivered := h.delivered
    rw [hentries] at hdelivered
    rw [Journal.close_open hentries]
    exact ⟨h.distinct, h.known, h.held, hdelivered⟩
  | @deletes d ending store answer hand of warranted answered =>
    obtain ⟨older, hentries, -⟩ := entered.latest hand
    have hdelivered := h.delivered
    rw [hentries] at hdelivered
    rw [Journal.close_deleted hentries]
    refine ⟨h.distinct, fun id hid => Int.le_trans (h.known id hid) hcounter, fun id hid => ?_,
      hdelivered⟩
    rcases answered with reached | ⟨rfl, -⟩
    · rw [show store = (k.store.delete setup.options.queue d.id).1 from
        congrArg Prod.fst reached] at hid
      exact h.held id (QueueStore.contains_of_contains_delete hid)
    · exact h.held id hid
  | @accepts delay store receipt sent =>
    have haccepted : (k.store.send k.now setup.options.queue event.body delay).2 = .ok receipt :=
      congrArg Prod.snd sent
    have hstore : (k.store.send k.now setup.options.queue event.body delay).1 = store :=
      congrArg Prod.fst sent
    have hfresh := (QueueStore.contains_of_contains_send ordered haccepted
      (QueueStore.contains_send haccepted)).1
    have hlast : store.lastId = receipt.id := by
      rw [(QueueStore.message?_send_ok ordered haccepted).1, ← hstore, QueueStore.lastId_send]
    refine ⟨List.nodup_cons.mpr ⟨fun hm => ?_, h.distinct⟩, fun id hid => ?_, fun id hid => ?_,
      fun d hd => List.mem_cons_of_mem _ (h.delivered d hd)⟩
    · exact absurd (h.known _ hm) (Int.not_le_of_gt hfresh)
    · rcases List.mem_cons.mp hid with rfl | hid
      · exact Int.le_of_eq hlast.symm
      · exact Int.le_trans (h.known id hid) hcounter
    · rw [← hstore] at hid
      rcases (QueueStore.contains_of_contains_send ordered haccepted hid).2 with held | rfl
      · exact List.mem_cons_of_mem _ (h.held id held)
      · exact List.mem_cons_self
  | beside change =>
    refine ⟨h.distinct, fun id hid => Int.le_trans (h.known id hid) hcounter, fun id hid => ?_,
      h.delivered⟩
    exact h.held id ((QueueStore.contains_of_held_eq change.held id).symm.trans hid)
  | borrowed by_ =>
    refine ⟨h.distinct, fun id hid => Int.le_trans (h.known id hid) hcounter, fun id hid => ?_,
      h.delivered⟩
    exact h.held id (QueueStore.contains_receive.symm.trans hid)
  | removed by_ =>
    exact ⟨h.distinct, fun id hid => Int.le_trans (h.known id hid) hcounter,
      fun id hid => h.held id (QueueStore.contains_of_contains_delete hid), h.delivered⟩
  | passes by_ => exact ⟨h.distinct, h.known, h.held, h.delivered⟩

/-- What a run keeps of deliveries, deletes and their sources. -/
structure Kept (setup : ConsumerSetup ι σ) (k : Custody σ) : Prop where
  booked : k.Booked setup
  apart : k.Apart setup.options.queue fun _ _ => False
  spent : k.Spent setup.options.queue (fun _ _ => False) fun _ => 0
  sourced : k.Sourced setup.options.queue

theorem Kept.effect (h : k.Kept setup) (he : Effect setup plan event k k') : k'.Kept setup :=
  ⟨h.booked.effect he, h.apart.effect (fun _ _ => False.elim) he,
    h.spent.effect h.apart h.booked.entered he,
    h.sourced.effect h.apart.ordered h.booked.entered he⟩

theorem kept_opening (setup : ConsumerSetup ι σ) (workOnStartup createQueue : Bool)
    (plan : FaultPlan) (ofDay : Instant) (handlers : σ) :
    (Chronicle.opening setup workOnStartup createQueue plan ofDay handlers).custody.Kept setup := by
  have hordered := Chronicle.ordered_opening setup workOnStartup createQueue plan ofDay handlers
  have hempty : (Chronicle.opening setup workOnStartup createQueue plan ofDay
      handlers).custody.store.held setup.options.queue = [] := by
    have hcreated : (({} : QueueStore).create setup.options.queue).held setup.options.queue = [] :=
      QueueStore.held_create
    cases createQueue with
    | true => exact hcreated
    | false => rfl
  refine ⟨booked_opening, ⟨hordered, nofun, fun _ _ => False.elim, nofun⟩,
    ⟨fun id => Nat.zero_le 1, fun id spent => absurd rfl spent⟩,
    ⟨List.nodup_nil, List.forall_mem_nil _, fun id held => ?_, List.forall_mem_nil _⟩⟩
  rw [QueueStore.contains, hempty] at held
  cases held

end Custody

/-! ## Attempts and their deletes -/

theorem Stage.Serves.parsed {stage : Stage} {d : Delivery} (h : stage.Serves setup)
    (hand : stage.inHand? = some d) : ∃ item, WorkItem.parse d.body = .ok item := by
  cases stage with
  | handling d' item wait =>
    cases hand
    exact ⟨item, h.1⟩
  | _ => cases hand

namespace Entry
variable {entry : Entry}

/-- A message that is given up has one delete to its name, and it is counted once. -/
theorem Settled.account_evictions (h : entry.Settled setup) :
    tally Series.isEviction (entry.account setup) = (entry.discarded setup).toNat := by
  obtain ⟨ending, hending, of, -⟩ := h
  unfold account discarded
  rw [hending]
  cases ending with
  | malformed failure =>
    rw [show WorkItem.parse entry.delivery.body = .error failure from of]
    rfl
  | dispatched item result =>
    rw [of.1]
    simp only [Option.any_some, Ending.verdict, Ending.disposal]
    rw [tally_cons, tally_append, tally_cons]
    have hmeasured : tally Series.isEviction (setup.measured item result) = 0 := by
      unfold ConsumerSetup.measured
      split <;> rfl
    rw [hmeasured]
    cases verdict setup.options.maxAttempts entry.delivery.attempt result <;> rfl

theorem Settled.deletes_of_discarded (h : entry.Settled setup)
    (given : entry.discarded setup = true) :
    ∃ answer, entry.deletes = [(entry.delivery.id, answer)] := by
  obtain ⟨ending, hending, -, hdeletes⟩ := h
  unfold discarded at given
  rw [hending, Option.any_some] at given
  have hverdict : (ending.verdict setup.options.maxAttempts entry.delivery.attempt).deletes =
      true := by
    cases hv : ending.verdict setup.options.maxAttempts entry.delivery.attempt with
    | discard reason => rfl
    | _ =>
      rw [hv] at given
      cases given
  rwa [if_pos hverdict] at hdeletes

theorem Settled.warranted_of_deleted (h : entry.Settled setup) (gone : entry.deleted = true) :
    entry.deletes = [(entry.delivery.id, .ok ())] ∧ ∃ ending, entry.ending = some ending ∧
      (ending.verdict setup.options.maxAttempts entry.delivery.attempt).deletes = true := by
  obtain ⟨ending, hending, -, hdeletes⟩ := h
  unfold deleted at gone
  split at hdeletes
  · next warranted =>
    obtain ⟨answer, hone⟩ := hdeletes
    rw [hone] at gone
    cases answer with
    | ok done => exact ⟨hone, ending, hending, warranted⟩
    | error failure => cases gone
  · rw [hdeletes] at gone
    cases gone

/-- A delete that was answered stands under an attempt that succeeded or gave the message up. -/
theorem Settled.succeeded_or_discarded (h : entry.Settled setup) (gone : entry.deleted = true) :
    entry.succeeded = true ∧ entry.discarded setup = false ∨
      entry.succeeded = false ∧ entry.discarded setup = true := by
  obtain ⟨-, ending, hending, warranted⟩ := h.warranted_of_deleted gone
  unfold succeeded discarded
  rw [hending]
  cases ending with
  | malformed failure => exact .inr ⟨rfl, rfl⟩
  | dispatched item result =>
    cases result with
    | ok done => exact .inl ⟨rfl, rfl⟩
    | error failure =>
      refine .inr ⟨rfl, ?_⟩
      simp only [Option.any_some, Ending.verdict] at warranted ⊢
      cases hv : verdict setup.options.maxAttempts entry.delivery.attempt (.error failure) with
      | discard reason => rfl
      | acknowledge => exact absurd (isOk_of_verdict hv) Bool.false_ne_true
      | _ =>
        rw [hv] at warranted
        cases warranted

end Entry

namespace Custody
variable {k : Custody σ}

theorem Kept.settled_of_deleted (h : k.Kept setup) {entry : Entry}
    (hm : entry ∈ k.journal.entries) (gone : entry.deleted = true) : entry.Settled setup := by
  rcases h.booked.entered.settled_or_open hm with settled | ⟨d, -, rfl⟩
  · exact settled
  · cases gone

/-- No message is deleted twice. -/
theorem Kept.nodup_deleted (h : k.Kept setup) :
    ((k.journal.entries.filter Entry.deleted).map fun entry => entry.delivery.id).Nodup := by
  refine List.nodup_iff_count_le_one.mpr fun id => ?_
  rw [List.count, List.countP_map, List.countP_filter]
  refine Nat.le_trans (countP_le_countP_flatMap fun entry hm hboth => ?_) (h.spent.once id)
  obtain ⟨hid, gone⟩ := Bool.and_eq_true_iff.mp hboth
  rw [((h.settled_of_deleted hm gone).warranted_of_deleted gone).1]
  refine List.countP_pos_iff.mpr ⟨_, List.mem_singleton_self _, ?_⟩
  exact Bool.and_eq_true_iff.mpr ⟨hid, rfl⟩

theorem Kept.acknowledged_of_deleted (h : k.Kept setup) {entry : Entry}
    (hm : entry ∈ k.journal.entries) (gone : entry.deleted = true) :
    k.journal.acknowledged entry.delivery.id ≠ 0 := by
  have hdeletes := ((h.settled_of_deleted hm gone).warranted_of_deleted gone).1
  have hmem : (entry.delivery.id, .ok ()) ∈ k.journal.deletes := by
    refine List.mem_flatMap.mpr ⟨entry, hm, ?_⟩
    rw [hdeletes]
    exact List.mem_singleton_self _
  have hpos : 0 < k.journal.acknowledged entry.delivery.id :=
    List.countP_pos_iff.mpr ⟨_, hmem, Bool.and_eq_true_iff.mpr ⟨beq_self_eq_true _, rfl⟩⟩
  exact hpos.ne'

/-- A message that was deleted when it was given up was not deleted upon a success. -/
theorem Kept.not_processed (h : k.Kept setup) {entry : Entry} (hm : entry ∈ k.journal.entries)
    (gone : entry.deleted = true) (given : entry.discarded setup = true) :
    k.journal.processed entry.delivery.id = false := by
  refine Bool.eq_false_iff.mpr fun hprocessed => ?_
  obtain ⟨other, hother, hall⟩ := List.any_eq_true.mp hprocessed
  obtain ⟨hboth, gone'⟩ := Bool.and_eq_true_iff.mp hall
  obtain ⟨hid, succeeded⟩ := Bool.and_eq_true_iff.mp hboth
  have hsame : other = entry :=
    List.inj_on_of_nodup_map h.nodup_deleted (List.mem_filter.mpr ⟨hother, gone'⟩)
      (List.mem_filter.mpr ⟨hm, gone⟩) (beq_iff_eq.mp hid)
  subst hsame
  rcases (h.settled_of_deleted hm gone).succeeded_or_discarded gone with
    ⟨-, kept⟩ | ⟨failed, -⟩
  · exact Bool.false_ne_true (kept.symm.trans given)
  · exact Bool.false_ne_true (failed.symm.trans succeeded)

end Custody

namespace Chronicle
variable {r : Chronicle σ}

/-- The messages that were deleted when they were given up. -/
def discarded (setup : ConsumerSetup ι σ) (r : Chronicle σ) : List Int :=
  ((r.journal.entries.filter Entry.deleted).filter (Entry.discarded setup)).map
    fun entry => entry.delivery.id

theorem nodup_discarded (h : r.custody.Kept setup) : (r.discarded setup).Nodup :=
  h.nodup_deleted.sublist (List.filter_sublist.map _)

theorem nodup_lost (h : r.custody.Kept setup) : ((r.lost setup).map Prod.fst).Nodup :=
  h.sourced.distinct.sublist (List.filter_sublist.map _)

theorem discarded_subset_lost (h : r.custody.Kept setup) :
    r.discarded setup ⊆ (r.lost setup).map Prod.fst := by
  intro id hid
  obtain ⟨entry, hboth, rfl⟩ := List.mem_map.mp hid
  obtain ⟨hdeleted, given⟩ := List.mem_filter.mp hboth
  obtain ⟨hm, gone⟩ := List.mem_filter.mp hdeleted
  obtain ⟨m, haccepted, hsame⟩ := List.mem_map.mp
    (h.sourced.delivered entry.delivery (List.mem_map_of_mem hm))
  refine List.mem_map.mpr ⟨m, List.mem_filter.mpr ⟨haccepted, ?_⟩, hsame⟩
  rw [hsame]
  have hgone := (h.spent.gone entry.delivery.id (h.acknowledged_of_deleted hm gone)).1
  have hunheld : r.site.surroundings.queue.store.contains setup.options.queue entry.delivery.id =
      false := by
    rw [QueueStore.contains_eq_isSome, show r.site.surroundings.queue.store.message?
      setup.options.queue entry.delivery.id = none from hgone.2]
    rfl
  have hunprocessed : r.journal.processed entry.delivery.id = false := h.not_processed hm gone given
  rw [hunheld, hunprocessed]
  rfl

theorem lost_subset_discarded (h : r.custody.Kept setup)
    (accounted : r.custody.Accounted setup.options.queue) :
    (r.lost setup).map Prod.fst ⊆ r.discarded setup := by
  intro id hid
  obtain ⟨m, hboth, rfl⟩ := List.mem_map.mp hid
  obtain ⟨haccepted, hlost⟩ := List.mem_filter.mp hboth
  obtain ⟨hunheld, hunprocessed⟩ := Bool.and_eq_true_iff.mp hlost
  rcases accounted m haccepted with held | hdelete
  · rw [show r.site.surroundings.queue.store.contains setup.options.queue m.1 = true from held]
      at hunheld
    cases hunheld
  · obtain ⟨entry, hm, hissued⟩ := List.mem_flatMap.mp hdelete
    have gone : entry.deleted = true := List.any_eq_true.mpr ⟨_, hissued, rfl⟩
    have settled := h.settled_of_deleted hm gone
    have hid : m.1 = entry.delivery.id := by
      rw [(settled.warranted_of_deleted gone).1] at hissued
      exact congrArg Prod.fst (List.mem_singleton.mp hissued)
    rcases settled.succeeded_or_discarded gone with ⟨succeeded, -⟩ | ⟨-, given⟩
    · have hprocessed : r.journal.processed m.1 = true :=
        List.any_eq_true.mpr ⟨entry, hm, by rw [hid, succeeded, gone, beq_self_eq_true]; rfl⟩
      rw [hprocessed] at hunprocessed
      cases hunprocessed
    · have hdeleted : entry ∈ r.journal.entries.filter Entry.deleted :=
        List.mem_filter.mpr ⟨hm, gone⟩
      exact List.mem_map.mpr ⟨entry, List.mem_filter.mpr ⟨hdeleted, given⟩, hid.symm⟩

/-- The counter goes up with each attempt that gives its message up. -/
theorem tally_isEviction (serves : r.site.consumer.stage.Serves setup)
    (booked : r.custody.Booked setup) :
    tally Series.isEviction (r.journal.account setup) =
      r.journal.entries.countP (Entry.discarded setup) := by
  rw [← List.countP_reverse]
  refine count_flatMap_account (tally_append _) fun entry hm => ?_
  rcases booked.entered.settled_or_open (List.mem_reverse.mp hm) with settled | ⟨d, hand, rfl⟩
  · exact settled.account_evictions
  · obtain ⟨item, parsed⟩ := serves.parsed hand
    unfold Entry.account
    dsimp only
    rw [parsed]
    rfl

/-- The counter of discarded messages goes up before the delete is issued: after any run it is the
number of attempts that gave their message up, and each of these issued one delete. It exceeds the
number of messages that are gone without a success by no more than the number of those deletes that
failed. As long as nobody else deletes from the queue it exceeds it by just that, so that it counts
no more messages than are gone exactly if none of them failed. -/
theorem evictions_counted (setup : ConsumerSetup ι σ) (workOnStartup createQueue : Bool)
    (plan : FaultPlan) (ofDay : Instant) (handlers : σ) (events : List Event) :
    let start := opening setup workOnStartup createQueue plan ofDay handlers
    let r := start.run setup events
    let total := tally Series.isEviction (start.reported setup events)
    let failed := r.journal.entries.countP fun entry => entry.discarded setup && !entry.deleted
    total = r.journal.entries.countP (Entry.discarded setup) ∧
    (∀ entry ∈ r.journal.entries, entry.discarded setup = true →
      ∃ answer, entry.deletes = [(entry.delivery.id, answer)]) ∧
    total ≤ (r.lost setup).length + failed ∧
    ((∀ event ∈ events, event.Keeps setup.options.queue) →
      total = (r.lost setup).length + failed ∧
        (total ≤ (r.lost setup).length ↔ failed = 0)) := by
  intro start r total failed
  have hstanding := standing_opening setup workOnStartup createQueue plan ofDay handlers
  have hserves := (hstanding.run_booked Custody.booked_opening events).1.serves
  have hkept : r.custody.Kept setup :=
    hstanding.run_invariant _ (Custody.kept_opening setup workOnStartup createQueue plan ofDay
      handlers) fun event _ k k' h he => h.effect he
  have htotal : total = r.journal.entries.countP (Entry.discarded setup) := by
    have haccount : r.journal.account setup = accounts (start.reported setup events) :=
      run_account hstanding Custody.booked_opening events
    rw [← tally_isEviction hserves hkept.booked, haccount]
    exact (tally_accounts (fun n h => by cases n <;> first | rfl | cases h) _).symm
  have hsplit : total = (r.discarded setup).length + failed := by
    have hdiscarded : (r.discarded setup).length =
        (r.journal.entries.filter Entry.deleted).countP (Entry.discarded setup) := by
      rw [discarded, List.length_map, List.countP_eq_length_filter]
    have hfailed : failed = (r.journal.entries.filter fun entry => !entry.deleted).countP
        (Entry.discarded setup) := List.countP_filter.symm
    rw [htotal, hdiscarded, hfailed]
    exact List.countP_eq_countP_filter_add _ _ _
  have hle : (r.discarded setup).length ≤ (r.lost setup).length := by
    rw [← List.length_map Prod.fst]
    exact (List.subperm_of_subset (nodup_discarded hkept) (discarded_subset_lost hkept)).length_le
  refine ⟨htotal, fun entry hm given => ?_, by omega, fun keeps => ?_⟩
  · rcases hkept.booked.entered.settled_or_open hm with settled | ⟨d, -, rfl⟩
    · exact settled.deletes_of_discarded given
    · cases given
  · have haccounted : r.custody.Accounted setup.options.queue :=
      (hstanding.run_invariant (fun k => k.Booked setup ∧ k.Accounted setup.options.queue)
        ⟨Custody.booked_opening, List.forall_mem_nil _⟩
        fun event hmem k k' h he => ⟨h.1.effect he, h.2.effect h.1 (keeps event hmem) he⟩).2
    have hge : (r.lost setup).length ≤ (r.discarded setup).length := by
      rw [← List.length_map Prod.fst]
      exact (List.subperm_of_subset (nodup_lost hkept)
        (lost_subset_discarded hkept haccounted)).length_le
    exact ⟨by omega, by omega⟩

/-- A discarded message whose first delete fails comes back and is counted twice, though only one
message is gone. -/
theorem evictions_counted_of_failed_delete :
    let setup := ConsumerSetup.uniform 3 (.ok ())
    let plan : FaultPlan := { delete := fun n => if n = 1 then some (.other "down") else none }
    let events : List Event := [.command (.send "junk" .zero), .step, .step,
      .tick (60 * nanosPerSecond), .step, .step, .step]
    let start := opening setup true true plan 0 0
    let r := start.run setup events
    (∀ event ∈ events, event.Keeps setup.options.queue) ∧
      tally Series.isEviction (start.reported setup events) = 2 ∧ (r.lost setup).length = 1 := by
  intro setup plan events start r
  have hkeeps : ∀ event ∈ events, event.Keeps setup.options.queue := by
    simp [events, Event.Keeps]
  obtain ⟨htotal, -⟩ := (evictions_counted setup true true plan 0 0 events).2.2.2 hkeeps
  have hlost : (r.lost setup).length = 1 := by decide +kernel
  have hfailed : (r.journal.entries.countP fun entry => entry.discarded setup && !entry.deleted) =
      1 := by decide +kernel
  refine ⟨hkeeps, ?_, hlost⟩
  rw [htotal]
  exact congrArg₂ (· + ·) hlost hfailed

/-- While its delete has failed and it has not come back, a message is counted as discarded that is
still held. -/
theorem evictions_exceed_of_failed_delete :
    let setup := ConsumerSetup.uniform 3 (.ok ())
    let plan : FaultPlan := { delete := fun n => if n = 1 then some (.other "down") else none }
    let events : List Event := [.command (.send "junk" .zero), .step, .step]
    let start := opening setup true true plan 0 0
    let r := start.run setup events
    ¬ tally Series.isEviction (start.reported setup events) ≤ (r.lost setup).length ∧
      r.site.surroundings.queue.store.contains setup.options.queue 1 = true := by
  decide +kernel

end Chronicle

end WorkQueue
