import WorkQueue.Proofs.Consumer.Booking

/-! # Redelivery

As long as nothing fails and nobody interferes, the deliveries of a message are numbered from one
by its read count. Each ends undecided until one decides: the message is then deleted and never
delivered again. Until then the queue holds it with the number of its deliveries.
-/
namespace WorkQueue
variable {ι σ : Type} {setup : ConsumerSetup ι σ} {plan : FaultPlan}

/-- What makes a delivery of a given number the last one of its message. -/
inductive Entry.Decides (setup : ConsumerSetup ι σ) (number : Nat) (entry : Entry) : Prop
  /-- The body is no work item. -/
  | malformed {failure : Failure} (refused : WorkItem.parse entry.delivery.body = .error failure)
  /-- The type is registered, and the work item does not decode. -/
  | undecodable {item : WorkItem} {registration : Registration ι} {failure : Failure}
      (parsed : WorkItem.parse entry.delivery.body = .ok item)
      (registered : setup.registry.resolve item.workItemType = .ok registration)
      (refused : registration.decode item = .error failure)
  /-- The handler succeeds. -/
  | processed {item : WorkItem} (result : entry.ending = some (.dispatched item (.ok ())))
  /-- The handler fails for good. -/
  | failed {item : WorkItem} {failure : Failure}
      (served : (setup.payloadOf? item).isSome = true)
      (result : entry.ending = some (.dispatched item (.error failure)))
      (final : failure.isRetriable = false)
  /-- No attempts are left. -/
  | exhausted (last : setup.options.maxAttempts ≤ number)

/-- Whether no attempt has ended in a cancellation. -/
def Journal.Uncancelled (j : Journal) : Prop :=
  ∀ entry ∈ j.entries, ∀ item, entry.ending ≠ some (.dispatched item (.error .cancelled))

theorem Journal.uncancelled_iff {j : Journal} :
    j.Uncancelled ↔ j.entries.all (fun entry => !match entry.ending with
      | some (.dispatched _ (.error failure)) => failure.isCancellation
      | _ => false) = true := by
  rw [List.all_eq_true]
  refine forall₂_congr fun entry _ => ?_
  constructor
  · intro h
    split
    · next item failure he =>
      cases failure <;> first | rfl | exact absurd he (h item)
    · rfl
  · intro h item he
    simp [he, Failure.isCancellation] at h

instance (j : Journal) : Decidable j.Uncancelled := decidable_of_iff _ Journal.uncancelled_iff.symm

theorem Registry.isRetriable_of_resolve {registry : Registry ι} {workItemType : String}
    {failure : Failure} (h : registry.resolve workItemType = .error failure) :
    failure.isRetriable = true := by
  unfold Registry.resolve at h
  split at h
  · cases h
  · cases h
    rfl

theorem isRetriable_of_undecodable {item : WorkItem} {registration : Registration ι}
    {refusal failure : Failure}
    (registered : setup.registry.resolve item.workItemType = .ok registration)
    (refused : registration.decode item = .error refusal)
    (h : (setup.payloadOf? item).isSome = true ∨ setup.Unserved item failure) :
    failure.isRetriable = false := by
  rcases h with served | hr | ⟨registration', hr, hd⟩
  · simp [ConsumerSetup.payloadOf?, registered, refused, Except.toOption] at served
  · rw [registered] at hr
    cases hr
  · obtain ⟨text, rfl⟩ := registration'.decode_error hd
    rfl

/-- An attempt that has ended decides its message exactly if the message is deleted. -/
theorem decides_iff_deletes (entry : Entry) {ending : Ending} (he : entry.ending = some ending)
    (of : ending.Of setup entry.delivery.body)
    (genuine : ∀ item, ending ≠ .dispatched item (.error .cancelled)) :
    entry.Decides setup entry.delivery.attempt ↔
      (ending.verdict setup.options.maxAttempts entry.delivery.attempt).deletes = true := by
  cases ending with
  | malformed failure => exact ⟨fun _ => rfl, fun _ => .malformed of⟩
  | dispatched item result =>
    obtain ⟨parsed, served⟩ := of
    cases result with
    | ok done => exact ⟨fun _ => rfl, fun _ => .processed he⟩
    | error failure =>
      have hc : failure.isCancellation = false := by
        cases failure <;> first | rfl | exact absurd rfl (genuine item)
      simp only [Ending.verdict, verdict, hc, Bool.false_eq_true, ↓reduceIte]
      cases hr : failure.isRetriable with
      | false =>
        refine ⟨fun _ => rfl, fun _ => ?_⟩
        rcases served with served | ⟨f, hf, hr' | ⟨registration, hres, hdec⟩⟩
        · exact .failed served he hr
        · cases hf
          simp [Registry.isRetriable_of_resolve hr'] at hr
        · exact .undecodable parsed hres hdec
      | true =>
        by_cases hl : setup.options.maxAttempts ≤ entry.delivery.attempt
        · simp only [hl, Bool.not_true, Bool.false_eq_true, ↓reduceIte]
          exact ⟨fun _ => rfl, fun _ => .exhausted hl⟩
        · simp only [hl, Bool.not_true, Bool.false_eq_true, ↓reduceIte]
          refine ⟨fun hdecides => ?_, fun h => by cases h⟩
          cases hdecides with
          | malformed refused =>
            rw [parsed] at refused
            cases refused
          | undecodable parsed' registered refused =>
            rw [parsed] at parsed'
            cases parsed'
            have hserved : (setup.payloadOf? item).isSome = true ∨ setup.Unserved item failure := by
              rcases served with served | ⟨f, hf, unserved⟩
              · exact .inl served
              · cases hf
                exact .inr unserved
            have hfinal := isRetriable_of_undecodable registered refused hserved
            rw [hr] at hfinal
            cases hfinal
          | processed result =>
            rw [he] at result
            cases result
          | failed _ result final =>
            rw [he] at result
            cases result
            rw [hr] at final
            cases final
          | exhausted last => exact absurd last hl

/-- The payloads that deliveries were handled as, the first one first. -/
def Journal.invocations (setup : ConsumerSetup ι σ) (j : Journal) : List ι :=
  (j.entries.map Entry.delivery).reverse.filterMap fun d => setup.payload? d.body

theorem Journal.invocations_note {j : Journal} {d : Delivery} :
    (j.note (.received (.ok (some d)))).invocations setup =
      j.invocations setup ++ (setup.payload? d.body).toList := by
  simp only [Journal.invocations, Journal.note, List.map_cons, List.reverse_cons,
    List.filterMap_append]
  cases h : setup.payload? d.body <;> simp [h]

section
variable {j : Journal} {d : Delivery} {older : List Entry} {ending : Ending}
  {deletes : List (Int × Except Failure Unit)}

theorem Journal.invocations_settled (hentries : j.entries = { delivery := d } :: older) :
    { j with entries := ⟨d, some ending, deletes⟩ :: older }.invocations setup =
      j.invocations setup := by
  simp only [Journal.invocations, hentries, List.map_cons]

theorem Journal.Uncancelled.of_settled
    (h : { j with entries := ⟨d, some ending, deletes⟩ :: older }.Uncancelled)
    (hentries : j.entries = { delivery := d } :: older) : j.Uncancelled := by
  intro entry hm
  rw [hentries] at hm
  rcases List.mem_cons.mp hm with rfl | hm
  · intro item hopen
    cases hopen
  · exact h entry (List.mem_cons_of_mem _ hm)

end

/-! ## The tale of one message -/

def Entry.Undecided (setup : ConsumerSetup ι σ) (entry : Entry) : Prop :=
  entry.ending.isSome = true ∧ ¬ entry.Decides setup entry.delivery.attempt

/-- Deliveries of a body, the latest first: they are numbered from one, and all but the latest
have ended undecided. -/
def Retried (setup : ConsumerSetup ι σ) (body : String) : List Entry → Prop
  | [] => True
  | entry :: older =>
    entry.delivery.readCount = older.length + 1 ∧ entry.delivery.body = body ∧
      (∀ e ∈ older, e.Undecided setup) ∧ Retried setup body older

def Decided (setup : ConsumerSetup ι σ) (entries : List Entry) : Prop :=
  ∃ entry, entries.head? = some entry ∧ entry.ending.isSome = true ∧
    entry.Decides setup entries.length

/-- The deliveries of an accepted message, and what the queue holds of it. -/
structure Tale (setup : ConsumerSetup ι σ) (body : String) (entries : List Entry)
    (held : Option StoredMessage) : Prop where
  retried : Retried setup body entries
  gone : Decided setup entries → held = none
  kept : ¬ Decided setup entries → ∃ m, held = some m ∧ m.body = body ∧
    m.readCount = entries.length

theorem attempt_of_readCount {d : Delivery} {n : Nat} (h : d.readCount = n) : d.attempt = n := by
  simp [Delivery.attempt, deliveryCount, h]

variable {body : String} {entry : Entry} {older entries : List Entry}

theorem Retried.attempt (h : Retried setup body (entry :: older)) :
    entry.delivery.attempt = older.length + 1 :=
  attempt_of_readCount (by rw [h.1]; rfl)

theorem Retried.of_delivery_eq {other : Entry} (h : Retried setup body (entry :: older))
    (he : other.delivery = entry.delivery) : Retried setup body (other :: older) := by
  obtain ⟨hn, hb, hold⟩ := h
  exact ⟨he ▸ hn, he ▸ hb, hold⟩

theorem Retried.getElem (h : Retried setup body entries) {i : Nat} (hi : i < entries.length) :
    entries[i].delivery.readCount = (entries.length : Int) - i ∧ entries[i].delivery.body = body ∧
      (0 < i → entries[i].Undecided setup) := by
  induction entries generalizing i with
  | nil => cases hi
  | cons e rest ih =>
    obtain ⟨hn, hb, hundecided, hrest⟩ := h
    cases i with
    | zero => exact ⟨by simp [hn], hb, fun h => by cases h⟩
    | succ i =>
      obtain ⟨hn', hb', -⟩ := ih hrest (Nat.lt_of_succ_lt_succ hi)
      refine ⟨?_, hb', fun _ => hundecided _ (List.getElem_mem _)⟩
      simp only [List.getElem_cons_succ, List.length_cons]
      omega

theorem Retried.of_reverse (h : Retried setup body entries) {k : Nat}
    (hk : entries.reverse[k]? = some entry) :
    entry.delivery.readCount = k + 1 ∧ entry.delivery.body = body ∧
      (k + 1 < entries.length → entry.ending.isSome = true ∧ ¬ entry.Decides setup (k + 1)) := by
  have hlt : k < entries.length := by
    simpa using (List.getElem?_eq_some_iff.mp hk).1
  rw [List.getElem?_reverse hlt] at hk
  obtain ⟨hi, rfl⟩ := List.getElem?_eq_some_iff.mp hk
  obtain ⟨hn, hb, hu⟩ := h.getElem hi
  have hcount : entries[entries.length - 1 - k].delivery.readCount = ((k + 1 : Nat) : Int) := by
    rw [hn]
    omega
  refine ⟨hcount, hb, fun hlast => ?_⟩
  rw [← attempt_of_readCount hcount]
  exact hu (by omega)

theorem Retried.length_lt (h : Retried setup body entries)
    (bounded : (setup.options.maxAttempts : Int) ≤ maxReadCount)
    (hu : ∀ e ∈ entries, e.Undecided setup) : (entries.length : Int) < maxReadCount := by
  cases entries with
  | nil => decide
  | cons entry older =>
    -- The number of the latest delivery is their count, and it has not used the attempts up.
    have hlast : ¬ setup.options.maxAttempts ≤ entry.delivery.attempt := fun hl =>
      (hu entry List.mem_cons_self).2 (.exhausted hl)
    rw [h.attempt] at hlast
    simp only [List.length_cons]
    omega

theorem Tale.received {m : StoredMessage} (h : Tale setup body entries (some m)) (now : Moment)
    (window : Duration)
    (bounded : (setup.options.maxAttempts : Int) ≤ maxReadCount)
    (ended : ∀ e ∈ entries, e.ending.isSome = true) :
    Tale setup body ({ delivery := (m.deliver now window).delivery } :: entries)
      (some (m.deliver now window)) := by
  have hopen : ¬ Decided setup entries := fun hd => by cases h.gone hd
  obtain ⟨_, ⟨⟩, hbody, hcount⟩ := h.kept hopen
  have hu : ∀ e ∈ entries, e.Undecided setup := by
    cases entries with
    | nil => exact List.forall_mem_nil _
    | cons latest older =>
      have hr := h.retried
      intro e he
      rcases List.mem_cons.mp he with rfl | he
      · have hended := ended e List.mem_cons_self
        refine ⟨hended, fun hd => hopen ⟨e, rfl, hended, ?_⟩⟩
        rwa [hr.attempt] at hd
      · exact hr.2.2.1 e he
  -- The count does not start over: so many undecided deliveries stay below its end.
  have hnext : nextReadCount m.readCount = entries.length + 1 := by
    have := h.retried.length_lt bounded hu
    rw [nextReadCount_of_lt (by omega), hcount]
  refine ⟨⟨hnext, hbody, hu, h.retried⟩, ?_, fun _ => ⟨_, rfl, hbody, ?_⟩⟩
  · rintro ⟨e, he, hended, -⟩
    cases he
    cases hended
  · simpa [StoredMessage.deliver] using hnext

theorem decided_cons :
    Decided setup (entry :: older) ↔
      entry.ending.isSome = true ∧ entry.Decides setup (older.length + 1) := by
  simp [Decided]

theorem Tale.settled {d : Delivery} {ending : Ending} {held : Option StoredMessage}
    (h : Tale setup body ({ delivery := d } :: older) held) (of : ending.Of setup d.body)
    (genuine : ∀ item, ending ≠ .dispatched item (.error .cancelled))
    (deletes : List (Int × Except Failure Unit)) :
    Tale setup body (⟨d, some ending, deletes⟩ :: older)
      (if (ending.verdict setup.options.maxAttempts d.attempt).deletes then none else held) := by
  have hr : Retried setup body (⟨d, some ending, deletes⟩ :: older) := h.retried.of_delivery_eq rfl
  have hdecided : Decided setup (⟨d, some ending, deletes⟩ :: older) ↔
      (ending.verdict setup.options.maxAttempts d.attempt).deletes = true := by
    have hiff := decides_iff_deletes ⟨d, some ending, deletes⟩ rfl of genuine
    rw [decided_cons, ← hr.attempt]
    exact (and_iff_right rfl).trans hiff
  refine ⟨hr, fun hd => if_pos (hdecided.mp hd), fun hd => ?_⟩
  rw [if_neg (mt hdecided.mpr hd)]
  exact h.kept fun hd' => by cases (decided_cons.mp hd').1

theorem tale_of_sent {m : StoredMessage} (hbody : m.body = body) (hcount : m.readCount = 0) :
    Tale setup body [] (some m) := by
  refine ⟨trivial, ?_, fun _ => ⟨m, rfl, hbody, by simp [hcount]⟩⟩
  rintro ⟨_, he, -⟩
  cases he

/-! ## The tales of all messages -/

namespace Journal
variable {j : Journal} {d : Delivery} {id : Int}

theorem entriesOf_cons (h : j.entries = entry :: older) :
    j.entriesOf id = if entry.delivery.id = id then
      entry :: older.filter fun e => e.delivery.id == id
    else older.filter fun e => e.delivery.id == id := by
  by_cases hid : entry.delivery.id = id
  · simp [entriesOf, h, hid]
  · simp [entriesOf, h, hid]

theorem entriesOf_eq_nil (h : ∀ entry ∈ j.entries, entry.delivery.id ≠ id) :
    j.entriesOf id = [] := by
  simpa [entriesOf] using h

theorem entriesOf_note :
    (j.note (.received (.ok (some d)))).entriesOf d.id =
      { delivery := d } :: j.entriesOf d.id := by
  simp [entriesOf, note]

theorem entriesOf_note_of_ne (h : id ≠ d.id) :
    (j.note (.received (.ok (some d)))).entriesOf id = j.entriesOf id := by
  simp [entriesOf, note, Ne.symm h]

end Journal

namespace Custody

structure Told (setup : ConsumerSetup ι σ) (k : Custody σ) : Prop where
  ordered : k.store.Ordered
  known : ∀ m ∈ k.journal.accepted, m.1 ≤ k.store.lastId
  delivered : ∀ entry ∈ k.journal.entries, entry.delivery.id ≤ k.store.lastId
  tales : ∀ m ∈ k.journal.accepted, Tale setup m.2 (k.journal.entriesOf m.1)
    (k.store.message? setup.options.queue m.1)

variable {k k' : Custody σ} {event : Event}

theorem told_opening {workOnStartup createQueue : Bool} {ofDay : Instant} {handlers : σ} :
    (Chronicle.opening setup workOnStartup createQueue plan ofDay handlers).custody.Told setup := by
  refine ⟨?_, List.forall_mem_nil _, List.forall_mem_nil _, List.forall_mem_nil _⟩
  simp only [Chronicle.custody, Custody.of, Chronicle.opening, Site.initial]
  split
  · exact QueueStore.ordered_empty.create
  · exact QueueStore.ordered_empty

theorem uncancelled_of_effect (hb : k.Booked setup) (he : Effect setup plan event k k')
    (h : k'.journal.Uncancelled) : k.journal.Uncancelled := by
  intro entry hm
  cases he with
  | takes free received => exact h entry (List.mem_cons_of_mem _ hm)
  | @leaves d ending hand of kept =>
    obtain ⟨older, hentries, -⟩ := hb.latest hand
    rw [Journal.close_open hentries] at h
    exact h.of_settled hentries entry hm
  | @deletes d ending store answer hand of warranted answered =>
    obtain ⟨older, hentries, -⟩ := hb.latest hand
    rw [Journal.close_deleted hentries] at h
    exact h.of_settled hentries entry hm
  | accepts sent => exact h entry hm
  | beside change => exact h entry hm
  | borrowed by_ => exact h entry hm
  | removed by_ => exact h entry hm
  | passes by_ => exact h entry hm

theorem Told.settled (h : k.Told setup) {d : Delivery} {older : List Entry} {ending : Ending}
    (hentries : k.journal.entries = { delivery := d } :: older) (of : ending.Of setup d.body)
    (genuine : ∀ item, ending ≠ .dispatched item (.error .cancelled))
    (deletes : List (Int × Except Failure Unit)) {store : QueueStore} (ordered : store.Ordered)
    (counter : store.lastId = k.store.lastId)
    (view : ∀ id, store.message? setup.options.queue id =
      if id = d.id ∧ (ending.verdict setup.options.maxAttempts d.attempt).deletes = true then none
      else k.store.message? setup.options.queue id) (issued : Nat) :
    Told setup { k with
      store := store
      issued := issued
      journal := { k.journal with entries := ⟨d, some ending, deletes⟩ :: older }
      inHand := none } := by
  refine ⟨ordered, fun sent hm => ?_, fun entry hm => ?_, fun sent hm => ?_⟩
  · exact counter ▸ h.known sent hm
  · have hall := h.delivered
    rw [hentries] at hall
    rw [counter]
    rcases List.mem_cons.mp hm with rfl | hm
    · exact hall { delivery := d } List.mem_cons_self
    · exact hall entry (List.mem_cons_of_mem _ hm)
  · have htale := h.tales sent hm
    rw [Journal.entriesOf_cons hentries] at htale
    rw [Journal.entriesOf_cons rfl, view]
    by_cases hid : d.id = sent.1
    · rw [if_pos hid] at htale ⊢
      have hnext := htale.settled of genuine deletes
      simpa only [hid, true_and] using hnext
    · rw [if_neg hid] at htale ⊢
      rw [if_neg fun hboth => hid hboth.1.symm]
      exact htale

theorem Told.effect (h : k.Told setup) (hb : k.Booked setup)
    (bounded : (setup.options.maxAttempts : Int) ≤ maxReadCount)
    (undisturbed : event.Undisturbing setup.options.queue)
    (he : Effect setup .none event k k') (genuine : k'.journal.Uncancelled) :
    k'.Told setup := by
  cases he with
  | @takes store d free received =>
    have hstore : store = (k.store.receive k.now _ _).1 := (congrArg Prod.fst received).symm
    obtain ⟨m, hheld, hd, hview⟩ :=
      QueueStore.message?_receive h.ordered (congrArg Prod.snd received)
    subst hstore
    refine ⟨h.ordered.receive, fun sent hm => ?_, fun entry hm => ?_, fun sent hm => ?_⟩
    · rw [QueueStore.lastId_receive]
      exact h.known sent hm
    · rw [QueueStore.lastId_receive]
      rcases List.mem_cons.mp hm with rfl | hm
      · exact QueueStore.id_le_of_message? h.ordered hheld
      · exact h.delivered entry hm
    · have htale := h.tales sent hm
      rw [hview]
      by_cases hid : sent.1 = d.id
      · rw [if_pos ⟨rfl, hid⟩, hid, Journal.entriesOf_note]
        rw [hid, hheld] at htale
        have ended : ∀ e ∈ k.journal.entriesOf d.id, e.ending.isSome = true := by
          intro e he
          obtain ⟨ending, hending, -⟩ := hb.settled free (List.mem_filter.mp he).1
          simp [hending]
        have hnext := htale.received k.now setup.options.invisibility bounded ended
        rwa [← hd] at hnext
      · rw [if_neg fun hboth => hid hboth.2, Journal.entriesOf_note_of_ne hid]
        exact htale
  | @leaves d ending hand of kept =>
    obtain ⟨older, hentries, -⟩ := hb.latest hand
    rw [Journal.close_open hentries] at genuine ⊢
    refine h.settled hentries of ?_ [] h.ordered rfl ?_ k.issued
    · exact fun item he => genuine _ List.mem_cons_self item (congrArg some he)
    · simp [kept]
  | @deletes d ending store answer hand of warranted answered =>
    obtain ⟨older, hentries, -⟩ := hb.latest hand
    rw [Journal.close_deleted hentries] at genuine ⊢
    rcases answered with reached | ⟨-, n, failure, planned, -⟩
    · have hstore : store = (k.store.delete setup.options.queue d.id).1 :=
        congrArg Prod.fst reached
      subst hstore
      refine h.settled hentries of ?_ _ h.ordered.delete QueueStore.lastId_delete ?_ _
      · exact fun item he => genuine _ List.mem_cons_self item (congrArg some he)
      · intro id
        simp [QueueStore.message?_delete, warranted]
    · cases planned
  | @accepts delay store receipt sent =>
    have hstore : store = (k.store.send k.now _ _ delay).1 := (congrArg Prod.fst sent).symm
    obtain ⟨rfl, hview⟩ := QueueStore.message?_send_ok h.ordered (congrArg Prod.snd sent)
    subst hstore
    have hcounter := k.store.lastId_send k.now setup.options.queue event.body delay
    refine ⟨h.ordered.send, fun m hm => ?_, fun entry hm => ?_, fun m hm => ?_⟩
    · rw [hcounter]
      rcases List.mem_cons.mp hm with rfl | hm
      · exact Int.le_refl _
      · exact Int.le_trans (h.known m hm) (by omega)
    · rw [hcounter]
      exact Int.le_trans (h.delivered entry hm) (by omega)
    · rw [hview]
      rcases List.mem_cons.mp hm with rfl | hm
      -- The identity lies beyond the counter, so no delivery has been of this message.
      · rw [if_pos ⟨rfl, rfl⟩, Journal.entriesOf_eq_nil fun entry he => ?_]
        · exact tale_of_sent rfl rfl
        · have hdelivered := h.delivered entry he
          intro hid
          dsimp only at hid
          omega
      · have hknown := h.known m hm
        have hne : m.1 ≠ k.store.lastId + 1 := by omega
        rw [if_neg fun hboth => hne hboth.2]
        exact h.tales m hm
  | beside change =>
    refine ⟨change.ordered h.ordered, fun m hm => ?_, fun entry hm => ?_, fun m hm => ?_⟩
    · exact Int.le_trans (h.known m hm) change.counter
    · exact Int.le_trans (h.delivered entry hm) change.counter
    · rw [QueueStore.message?_of_held_eq change.held]
      exact h.tales m hm
  | borrowed by_ =>
    subst by_
    exact absurd rfl undisturbed
  | removed by_ =>
    subst by_
    exact absurd rfl undisturbed
  | passes by_ => exact ⟨h.ordered, h.known, h.delivered, h.tales⟩

/-! ## Calls to the handler -/

/-- The memory of the handlers after one call for each delivery that has a payload, in the order
of the deliveries. -/
def Invoked (setup : ConsumerSetup ι σ) (handlers : σ) (k : Custody σ) : Prop :=
  k.handlers = (k.journal.invocations setup).foldl
    (fun memory payload => (setup.handler.handle payload memory).1) handlers

theorem Invoked.effect {handlers : σ} (h : k.Invoked setup handlers) (hb : k.Booked setup)
    (he : Effect setup plan event k k') : k'.Invoked setup handlers := by
  unfold Invoked at h ⊢
  cases he with
  | @takes store d free received =>
    simp only [Journal.invocations_note, List.foldl_append, ← h, ConsumerSetup.handled]
    cases setup.payload? d.body <;> rfl
  | @leaves d ending hand of kept =>
    obtain ⟨older, hentries, -⟩ := hb.latest hand
    rwa [Journal.close_open hentries, Journal.invocations_settled hentries]
  | @deletes d ending store answer hand of warranted answered =>
    obtain ⟨older, hentries, -⟩ := hb.latest hand
    rwa [Journal.close_deleted hentries, Journal.invocations_settled hentries]
  | accepts sent => exact h
  | beside change => exact h
  | borrowed by_ => exact h
  | removed by_ => exact h
  | passes by_ => exact h

end Custody

/-- In a run without planned failures, without another client that receives or deletes what the
queue holds, and without an attempt that ends in a cancellation, the deliveries of a message are
numbered from one and all but the latest end undecided. Once the latest has ended and decided, the
message is gone; until then it is held with the number of its deliveries. The handler is called
once for each delivery that has a payload and for nothing else. -/
theorem Chronicle.retried_until_decided (setup : ConsumerSetup ι σ)
    (workOnStartup createQueue : Bool) (ofDay : Instant) (handlers : σ) (events : List Event)
    (bounded : (setup.options.maxAttempts : Int) ≤ maxReadCount)
    (undisturbed : ∀ event ∈ events, event.Undisturbing setup.options.queue)
    (uncancelled : ((opening setup workOnStartup createQueue .none ofDay handlers).run setup
      events).journal.Uncancelled) :
    let r := (opening setup workOnStartup createQueue .none ofDay handlers).run setup events
    (∀ m ∈ r.journal.accepted,
      let deliveries := (r.journal.entriesOf m.1).reverse
      (∀ (k : Nat) (entry : Entry), deliveries[k]? = some entry →
        entry.delivery.readCount = k + 1 ∧ entry.delivery.body = m.2 ∧
          (k + 1 < deliveries.length →
            entry.ending.isSome = true ∧ ¬ entry.Decides setup (k + 1))) ∧
      let decided := ∃ latest, deliveries.getLast? = some latest ∧ latest.ending.isSome = true ∧
        latest.Decides setup deliveries.length
      let count := r.site.surroundings.queue.store.readCount? setup.options.queue m.1
      (decided → count = none) ∧ (¬ decided → count = some (deliveries.length : Int))) ∧
    r.site.surroundings.handlers = (r.journal.invocations setup).foldl
      (fun memory payload => (setup.handler.handle payload memory).1) handlers := by
  intro r
  have hstanding := standing_opening setup workOnStartup createQueue .none ofDay handlers
  -- Only the last journal shows that nothing was cancelled, so the invariant has that as a premise.
  have hall : r.custody.Booked setup ∧ r.custody.Invoked setup handlers ∧
      (r.journal.Uncancelled → r.custody.Told setup) :=
    hstanding.run_invariant
      (fun k => k.Booked setup ∧ k.Invoked setup handlers ∧
        (k.journal.Uncancelled → k.Told setup))
      ⟨Custody.booked_opening, rfl, fun _ => Custody.told_opening⟩
      fun event hmem k k' h he => ⟨h.1.effect he, h.2.1.effect h.1 he, fun hu =>
        (h.2.2 (Custody.uncancelled_of_effect h.1 he hu)).effect h.1 bounded
          (undisturbed event hmem) he hu⟩
  refine ⟨fun m hm => ?_, hall.2.1⟩
  have htale : Tale setup m.2 (r.journal.entriesOf m.1)
      (r.site.surroundings.queue.store.message? setup.options.queue m.1) :=
    (hall.2.2 uncancelled).tales m hm
  refine ⟨fun k entry hk => ?_, fun hd => ?_, fun hd => ?_⟩
  · rw [List.length_reverse]
    exact htale.retried.of_reverse hk
  · rw [QueueStore.readCount?, htale.gone (by simpa [Decided] using hd)]
    rfl
  · obtain ⟨message, hheld, -, hcount⟩ := htale.kept (by simpa [Decided] using hd)
    rw [QueueStore.readCount?, hheld, List.length_reverse, ← hcount]
    rfl

/-- A message that fails on both of two attempts is held until the second has ended. -/
theorem Chronicle.retried_until_decided_of_exhausted :
    let setup := ConsumerSetup.uniform 2 (.error (.other "busy"))
    let body := "\x7b\"id\":\"a\",\"type\":\"t\"\x7d"
    let events : List Event := [.command (.send body .zero), .step, .step,
      .tick (60 * nanosPerSecond), .step, .step]
    let r := (opening setup true true .none 0 0).run setup events
    let m : Int × String := (1, body)
    (setup.options.maxAttempts : Int) ≤ maxReadCount ∧
      (∀ event ∈ events, event.Undisturbing setup.options.queue) ∧ r.journal.Uncancelled ∧
      m ∈ r.journal.accepted ∧ (r.journal.entriesOf m.1).reverse.length = 2 ∧
      r.site.surroundings.queue.store.readCount? setup.options.queue m.1 = none := by
  intro setup body events r m
  have hbounded : (setup.options.maxAttempts : Int) ≤ maxReadCount := by decide +kernel
  have hundisturbed : ∀ event ∈ events, event.Undisturbing setup.options.queue := by
    simp [events, Event.Undisturbing]
  have huncancelled : r.journal.Uncancelled := by decide +kernel
  have haccepted : m ∈ r.journal.accepted := by decide +kernel
  have htwo : (r.journal.entriesOf m.1).reverse.length = 2 := by decide +kernel
  have hended : ((r.journal.entriesOf m.1).reverse.getLast?.any fun e => e.ending.isSome) = true :=
    by decide +kernel
  refine ⟨hbounded, hundisturbed, huncancelled, haccepted, htwo, ?_⟩
  obtain ⟨latest, hlatest, hsome⟩ := (Option.any_eq_true _ _).mp hended
  have hlast : setup.options.maxAttempts ≤ (r.journal.entriesOf m.1).reverse.length :=
    Nat.le_of_eq htwo.symm
  dsimp only [r]
  exact ((retried_until_decided setup true true 0 0 events hbounded hundisturbed
    huncancelled).1 m haccepted).2.1 ⟨latest, hlatest, hsome, .exhausted hlast⟩

end WorkQueue
