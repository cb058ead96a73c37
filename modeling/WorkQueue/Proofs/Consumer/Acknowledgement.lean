import WorkQueue.Proofs.Consumer.Booking

/-! # Deletes and their warrants

The consumer deletes a message to settle one delivery of it. The journal of any run shows each
delete under the delivery that it settles, at most one there, and each has a warrant in how the
attempt ended. A message that was accepted and is no longer held has such a delete to its name.
-/
namespace WorkQueue
variable {ι σ : Type} {setup : ConsumerSetup ι σ} {plan : FaultPlan}

/-- Why the delete of a delivered message is issued. -/
inductive Warrant (setup : ConsumerSetup ι σ) (d : Delivery) : Ending → Prop
  /-- The body is no work item. -/
  | malformed {failure : Failure} (refused : WorkItem.parse d.body = .error failure) :
      Warrant setup d (.malformed failure)
  /-- The handler has succeeded. -/
  | processed {item : WorkItem} (parsed : WorkItem.parse d.body = .ok item)
      (served : (setup.payloadOf? item).isSome = true) : Warrant setup d (.dispatched item (.ok ()))
  /-- The dispatch has failed for good. -/
  | failed {item : WorkItem} {failure : Failure} (parsed : WorkItem.parse d.body = .ok item)
      (final : failure.isRetriable = false) (genuine : failure.isCancellation = false) :
      Warrant setup d (.dispatched item (.error failure))
  /-- The dispatch has failed, and no attempts are left. -/
  | exhausted {item : WorkItem} {failure : Failure} (parsed : WorkItem.parse d.body = .ok item)
      (retriable : failure.isRetriable = true) (last : setup.options.maxAttempts ≤ d.attempt) :
      Warrant setup d (.dispatched item (.error failure))

theorem warrant_of_deletes {d : Delivery} {ending : Ending} (of : ending.Of setup d.body)
    (h : (ending.verdict setup.options.maxAttempts d.attempt).deletes = true) :
    Warrant setup d ending := by
  cases ending with
  | malformed failure => exact .malformed of
  | dispatched item result =>
    obtain ⟨parsed, served⟩ := of
    cases result with
    | ok done =>
      rcases served with served | ⟨failure, he, -⟩
      · exact .processed parsed served
      · cases he
    | error failure =>
      cases hc : failure.isCancellation with
      | true => simp [Ending.verdict, verdict, hc, Verdict.deletes] at h
      | false =>
        cases hr : failure.isRetriable with
        | false => exact .failed parsed hr hc
        | true =>
          by_cases hl : setup.options.maxAttempts ≤ d.attempt
          · exact .exhausted parsed hr hl
          · simp [Ending.verdict, verdict, hc, hr, hl, Verdict.deletes] at h

theorem Entry.Settled.warranted {entry : Entry} (h : entry.Settled setup) :
    entry.deletes = [] ∨ ∃ ending answer, entry.ending = some ending ∧
      entry.deletes = [(entry.delivery.id, answer)] ∧ Warrant setup entry.delivery ending := by
  obtain ⟨ending, hending, of, hdeletes⟩ := h
  split at hdeletes
  · next warranted =>
    obtain ⟨answer, hdeletes⟩ := hdeletes
    exact .inr ⟨ending, answer, hending, hdeletes, warrant_of_deletes of warranted⟩
  · exact .inl hdeletes

/-! ## Every accepted message is held or was deleted -/

namespace Custody
variable {k k' : Custody σ} {event : Event}

/-- The messages that were accepted are held or have a delete to their name. -/
def Accounted (queue : String) (k : Custody σ) : Prop :=
  ∀ m ∈ k.journal.accepted, k.store.contains queue m.1 = true ∨ (m.1, .ok ()) ∈ k.journal.deletes

theorem Accounted.effect (h : k.Accounted setup.options.queue) (hb : k.Booked setup)
    (hkeeps : event.Keeps setup.options.queue) (he : Effect setup plan event k k') :
    k'.Accounted setup.options.queue := by
  intro m hm
  cases he with
  | @takes store d free received =>
    rcases h m hm with held | gone
    · left
      rw [← QueueStore.contains_receive, received] at held
      exact held
    · exact .inr gone
  | @leaves d ending hand of kept =>
    obtain ⟨older, hentries, -⟩ := hb.latest hand
    simp only [Accounted, Journal.deletes, hentries] at h
    rw [Journal.close_open hentries] at hm ⊢
    exact h m hm
  | @deletes d ending store answer hand of warranted answered =>
    obtain ⟨older, hentries, -⟩ := hb.latest hand
    simp only [Accounted, Journal.deletes, hentries] at h
    rw [Journal.close_deleted hentries] at hm ⊢
    rcases h m hm with held | gone
    · rcases answered with reached | ⟨rfl, -⟩
      · have hstore : store = (k.store.delete setup.options.queue d.id).1 :=
          congrArg Prod.fst reached
        have hanswer : answer = (k.store.delete setup.options.queue d.id).2 :=
          congrArg Prod.snd reached
        rcases QueueStore.contains_delete held d.id with held | ⟨hid, done⟩
        · exact .inl (hstore ▸ held)
        · exact .inr (List.mem_append_left _ (by simp [hid, hanswer, done]))
      · exact .inl held
    · exact .inr (List.mem_append_right _ gone)
  | @accepts delay store receipt sent =>
    have hnew : (k.store.send k.now setup.options.queue event.body delay).2 = .ok receipt := by
      rw [sent]
    rw [show store = (k.store.send k.now setup.options.queue event.body delay).1 by rw [sent]]
    rcases List.mem_cons.mp hm with rfl | hm
    · exact .inl (QueueStore.contains_send hnew)
    · rcases h m hm with held | gone
      · exact .inl (QueueStore.contains_send_of_contains held)
      · exact .inr gone
  | beside change =>
    rcases h m hm with held | gone
    · exact .inl ((QueueStore.contains_of_held_eq change.held m.1).trans held)
    · exact .inr gone
  | borrowed by_ =>
    rcases h m hm with held | gone
    · exact .inl (QueueStore.contains_receive.trans held)
    · exact .inr gone
  | removed by_ =>
    subst by_
    exact absurd rfl hkeeps
  | passes by_ => exact h m hm

end Custody

/-- After any run, whatever fails and whoever is cancelled, every delete that was issued stands
under the delivery that it settles, alone there, and has a warrant. As long as nobody else deletes
from the queue, a message that it accepted is held or was deleted so. -/
theorem Chronicle.deletes_warranted (setup : ConsumerSetup ι σ) (workOnStartup createQueue : Bool)
    (plan : FaultPlan) (ofDay : Instant) (handlers : σ) (events : List Event) :
    let r := (opening setup workOnStartup createQueue plan ofDay handlers).run setup events
    let issued := r.journal.entries.flatMap Entry.deletes
    r.site.surroundings.queue.deletes = issued.length ∧
    r.journal.stray = [] ∧
    (∀ entry ∈ r.journal.entries, entry.deletes = [] ∨
      ∃ ending answer, entry.ending = some ending ∧
        entry.deletes = [(entry.delivery.id, answer)] ∧ Warrant setup entry.delivery ending) ∧
    ((∀ event ∈ events, event.Keeps setup.options.queue) → ∀ m ∈ r.journal.accepted,
      r.site.surroundings.queue.store.contains setup.options.queue m.1 = true ∨
        (m.1, .ok ()) ∈ issued) := by
  intro r issued
  have hstanding := standing_opening setup workOnStartup createQueue plan ofDay handlers
  have hbooked : r.custody.Booked setup :=
    hstanding.run_invariant _ Custody.booked_opening fun event _ k k' h he => h.effect he
  refine ⟨hbooked.counted, hbooked.noStray, ?_, fun hkeeps => ?_⟩
  · intro entry hm
    rcases hbooked.entered.settled_or_open hm with settled | ⟨d, -, rfl⟩
    · exact settled.warranted
    · exact .inl rfl
  · have hboth : r.custody.Booked setup ∧ r.custody.Accounted setup.options.queue :=
      hstanding.run_invariant (fun k => k.Booked setup ∧ k.Accounted setup.options.queue)
        ⟨Custody.booked_opening, List.forall_mem_nil _⟩
        fun event hmem k k' h he => ⟨h.1.effect he, h.2.effect h.1 (hkeeps event hmem) he⟩
    exact hboth.2

/-- A message that is handled and no longer held was deleted under its delivery. -/
theorem Chronicle.deletes_warranted_of_processed :
    let setup := ConsumerSetup.uniform 3 (.ok ())
    let body := "\x7b\"id\":\"a\",\"type\":\"t\"\x7d"
    let events : List Event := [.command (.send body .zero), .step, .step]
    let r := (opening setup true true .none 0 0).run setup events
    (∀ event ∈ events, event.Keeps setup.options.queue) ∧ (1, body) ∈ r.journal.accepted ∧
      r.site.surroundings.queue.store.contains setup.options.queue 1 = false ∧
      (1, .ok ()) ∈ r.journal.entries.flatMap Entry.deletes := by
  intro setup body events r
  have hkeeps : ∀ event ∈ events, event.Keeps setup.options.queue := by
    simp [events, Event.Keeps]
  have haccepted : (1, body) ∈ r.journal.accepted := by decide +kernel
  have hgone : r.site.surroundings.queue.store.contains setup.options.queue 1 = false := by
    decide +kernel
  refine ⟨hkeeps, haccepted, hgone, ?_⟩
  rcases (deletes_warranted setup true true .none 0 0 events).2.2.2 hkeeps (1, body) haccepted with
    held | gone
  · exfalso
    revert held
    decide +kernel
  · exact gone

end WorkQueue
