import WorkQueue.Proofs.Queue.View
import WorkQueue.Queue.History

/-! # A store and its history

What a store holds is what its history tells. A call changes the view of the store in one of four
ways, and each of them is read off the record of the call: nothing changes, a message is accepted,
one is delivered once more, or one is removed.
-/
namespace WorkQueue

namespace ForeignCall
variable {s : QueueStore} {now : Moment}

theorem exists_perform (s : QueueStore) (now : Moment) (call : ForeignCall) (queue : String) :
    ((call.perform s now).1.messages? queue).isSome = true ↔
      (s.messages? queue).isSome = true ∨ call = .create queue := by
  cases call with
  | create name =>
    simp only [perform_create, QueueStore.exists_create, ForeignCall.create.injEq,
      @eq_comm _ name queue]
  | send name body delay => simp [QueueStore.exists_send]
  | receive name window => simp [QueueStore.exists_receive]
  | delete name id => simp [QueueStore.exists_delete]

theorem ordered_perform (h : s.Ordered) (now : Moment) (call : ForeignCall) :
    (call.perform s now).1.Ordered := by
  cases call with
  | create queue => exact h.create
  | send queue body delay => exact h.send
  | receive queue window => exact h.receive
  | delete queue id => exact h.delete

theorem lastId_le_perform (s : QueueStore) (now : Moment) (call : ForeignCall) :
    s.lastId ≤ (call.perform s now).1.lastId := by
  cases call with
  | create queue => simp
  | send queue body delay =>
    rw [perform_send, QueueStore.lastId_send]
    omega
  | receive queue window => simp
  | delete queue id => simp

/-- A call on a queue leaves what the other queues hold alone. -/
theorem held_perform_of_ne (s : QueueStore) (now : Moment) (call : ForeignCall) {other : String}
    (h : other ≠ call.queue) : (call.perform s now).1.held other = s.held other := by
  cases call with
  | create queue => exact QueueStore.held_create
  | send queue body delay =>
    have hne : other ≠ queue := h
    rw [perform_send]
    rcases s.send_cases now queue body delay with ⟨-, hheld⟩ | ⟨-, hheld⟩
    · exact hheld other
    · rw [hheld, if_neg hne]
  | receive queue window =>
    have hne : other ≠ queue := h
    rw [perform_receive]
    rcases s.receive_cases now queue window with ⟨hs, -⟩ | ⟨_, _, _, -, -, -, -, -, hheld⟩
    · rw [hs]
    · rw [hheld, if_neg hne]
  | delete queue id =>
    have hne : other ≠ queue := h
    rw [perform_delete, QueueStore.held_delete, if_neg hne]

/-- A call on a queue that does not exist fails, unless it creates the queue, and leaves what all
queues hold alone. -/
theorem perform_of_missing {call : ForeignCall} (missing : s.messages? call.queue = none)
    (now : Moment) (h : call ≠ .create call.queue) :
    (call.perform s now).2.failure? = some (missingQueue call.queue) ∧
    ∀ other, (call.perform s now).1.held other = s.held other := by
  cases call with
  | create queue => exact absurd rfl h
  | send queue body delay =>
    change s.messages? queue = none at missing
    rw [perform_send, QueueStore.send_of_missing missing]
    exact ⟨rfl, fun _ => rfl⟩
  | receive queue window =>
    change s.messages? queue = none at missing
    rw [perform_receive, QueueStore.receive_of_missing missing]
    exact ⟨rfl, fun _ => rfl⟩
  | delete queue id =>
    change s.messages? queue = none at missing
    rw [perform_delete, QueueStore.delete_of_missing missing]
    exact ⟨rfl, fun _ => rfl⟩

end ForeignCall

/-! ## What a call changes -/

/-- How serving a call changes the view of a store. -/
inductive Served (s : QueueStore) : Record → QueueStore → Prop
  /-- Nothing is given out or taken away. -/
  | idle {r : Record} {t : QueueStore} (receipt : r.receipt? = none)
      (delivered : r.delivered? = none) (kept : ∀ queue id, r.call ≠ .delete queue id)
      (view : ∀ queue id, t.message? queue id = s.message? queue id) : Served s r t
  /-- A body is put under the next identity. -/
  | accepts {now : Moment} {queue body : String} {delay : Duration} {t : QueueStore}
      (counter : t.lastId = s.lastId + 1)
      (view : ∀ other id, t.message? other id =
        if other = queue ∧ id = s.lastId + 1 then some (.sent id now body delay)
        else s.message? other id) :
      Served s ⟨now, .send queue body delay, .sent (.ok ⟨queue, s.lastId + 1⟩)⟩ t
  /-- A message that the queue holds is delivered once more. -/
  | delivers {now : Moment} {queue : String} {window : Duration} {m : StoredMessage}
      {d : Delivery} {t : QueueStore} (held : s.message? queue d.id = some m)
      (delivery : d = (m.deliver now window).delivery)
      (view : ∀ other id, t.message? other id =
        if other = queue ∧ id = d.id then some (m.deliver now window) else s.message? other id) :
      Served s ⟨now, .receive queue window, .received (.ok (some d))⟩ t
  /-- No message is left under an identity. -/
  | removes {now : Moment} {queue : String} {id : Int} {answer : Except Failure Unit}
      {t : QueueStore}
      (view : ∀ name other, t.message? name other =
        if name = queue ∧ other = id then none else s.message? name other) :
      Served s ⟨now, .delete queue id, .deleted answer⟩ t

theorem served_perform {s : QueueStore} (h : s.Ordered) (now : Moment) (call : ForeignCall) :
    Served s ⟨now, call, (call.perform s now).2⟩ (call.perform s now).1 := by
  cases call with
  | create queue => exact .idle rfl rfl nofun fun _ _ => QueueStore.message?_create
  | send queue body delay =>
    rw [ForeignCall.perform_send]
    cases ha : (s.send now queue body delay).2 with
    | error failure => exact .idle rfl rfl nofun (QueueStore.message?_send_error ha)
    | ok receipt =>
      obtain ⟨rfl, hview⟩ := QueueStore.message?_send_ok h ha
      exact .accepts (s.lastId_send now queue body delay) hview
  | receive queue window =>
    rw [ForeignCall.perform_receive]
    cases ha : (s.receive now queue window).2 with
    | error failure =>
      rw [QueueStore.receive_of_ne_some (by simp [ha])]
      exact .idle rfl rfl nofun fun _ _ => rfl
    | ok found =>
      cases found with
      | none =>
        rw [QueueStore.receive_of_ne_some (by simp [ha])]
        exact .idle rfl rfl nofun fun _ _ => rfl
      | some d =>
        obtain ⟨m, hm, hd, hview⟩ := QueueStore.message?_receive h ha
        exact .delivers hm hd hview
  | delete queue id => exact .removes fun _ _ => QueueStore.message?_delete

/-! ## What a record adds to a history -/

namespace Record
variable {r : Record} {queue body : String} {id : Int}

theorem not_sends (h : r.receipt? = none) : ¬ r.Sends queue id body := by
  rintro ⟨-, hr⟩
  rw [h] at hr
  cases hr

theorem hands_of_none (h : r.delivered? = none) (queue : String) (id : Int) :
    hands queue id r = false := by
  simp [hands, h]

end Record

namespace History
variable {h before after : List Record} {r x : Record} {queue body : String} {id : Int}

theorem concat_eq_iff : h ++ [r] = before ++ x :: after ↔
    (h = before ∧ r = x ∧ after = []) ∨ ∃ front, after = front ++ [r] ∧ h = before ++ x :: front := by
  constructor
  · intro he
    rcases List.eq_nil_or_concat after with rfl | ⟨front, last, rfl⟩
    · obtain ⟨hh, hr⟩ := List.append_inj' he rfl
      exact .inl ⟨hh, List.head_eq_of_cons_eq hr, rfl⟩
    · rw [List.concat_eq_append, ← List.cons_append, ← List.append_assoc] at he
      obtain ⟨hh, hr⟩ := List.append_inj' he rfl
      cases hr
      exact .inr ⟨front, List.concat_eq_append, hh⟩
  · rintro (⟨rfl, rfl, rfl⟩ | ⟨front, rfl, rfl⟩)
    · rfl
    · simp

theorem live_concat : Live (h ++ [r]) queue id body ↔
    r.Sends queue id body ∨ Live h queue id body ∧ r.call ≠ .delete queue id := by
  constructor
  · rintro ⟨before, x, after, he, hsends, hlater⟩
    rcases concat_eq_iff.mp he with ⟨rfl, rfl, rfl⟩ | ⟨front, rfl, rfl⟩
    · exact .inl hsends
    · obtain ⟨hfront, hr⟩ := List.forall_mem_append.mp hlater
      exact .inr ⟨⟨before, x, front, rfl, hsends, hfront⟩, hr r List.mem_cons_self⟩
  · rintro (hsends | ⟨⟨before, x, after, rfl, hsends, hlater⟩, hr⟩)
    · exact ⟨h, r, [], rfl, hsends, List.forall_mem_nil _⟩
    · refine ⟨before, x, after ++ [r], by simp, hsends, List.forall_mem_append.mpr ⟨hlater, ?_⟩⟩
      simpa using hr

theorem deliveries_concat (h : List Record) (r : Record) (queue : String) (id : Int) :
    deliveries (h ++ [r]) queue id =
      deliveries h queue id + if r.hands queue id then 1 else 0 := by
  simp [deliveries, List.countP_append, List.countP_cons]

theorem deliveries_le_length (h : List Record) (queue : String) (id : Int) :
    deliveries h queue id ≤ h.length := List.countP_le_length

theorem identities_concat (h : List Record) (r : Record) :
    identities (h ++ [r]) = identities h ++ (r.receipt?.map Receipt.id).toList := by
  cases hr : r.receipt? <;> simp [identities, List.filterMap_append, hr]

theorem created_concat : Created (h ++ [r]) queue ↔
    Created h queue ∨ r.call = .create queue := by
  simp [Created, or_and_right, exists_or]

/-- A delivery is of a message that is live, and counts itself. -/
def Truthful (before : List Record) (r : Record) : Prop :=
  ∀ queue d, r.delivered? = some (queue, d) →
    Live before queue d.id d.body ∧ d.readCount = deliveries before queue d.id + 1

/-- A history tells which messages a store holds. -/
structure Tracks (h : List Record) (s : QueueStore) : Prop where
  ordered : s.Ordered
  created : ∀ queue, (s.messages? queue).isSome = true ↔ Created h queue
  ascending : (identities h).Pairwise (· < ·)
  issued : ∀ id ∈ identities h, id ≤ s.lastId
  unissued : ∀ queue id, s.lastId < id → deliveries h queue id = 0
  live : ∀ queue id body, Live h queue id body ↔ ∃ m, s.message? queue id = some m ∧ m.body = body

/-- A history tells what a store holds, the read counts included. -/
structure Tells (h : List Record) (s : QueueStore) : Prop extends Tracks h s where
  counted : ∀ queue id m, s.message? queue id = some m → m.readCount = deliveries h queue id
  truthful : ∀ before r after, h = before ++ r :: after → Truthful before r

theorem tracks_empty : Tracks [] {} where
  ordered := QueueStore.ordered_empty
  created := fun queue => by simp [QueueStore.messages?, Created]
  ascending := .nil
  issued := nofun
  unissued := fun _ _ _ => rfl
  live := fun queue id body => by
    simp [Live, QueueStore.message?, QueueStore.held, QueueStore.messages?]

theorem tells_empty : Tells [] {} where
  toTracks := tracks_empty
  counted := fun queue id m hm => by cases hm
  truthful := fun before r after he => by simp at he

variable {s t : QueueStore}

theorem Tracks.not_live_of_lt (told : Tracks h s) (beyond : s.lastId < id) :
    ¬ Live h queue id body := by
  intro hlive
  obtain ⟨m, hm, -⟩ := (told.live queue id body).mp hlive
  rw [QueueStore.message?_eq_none_of_lt told.ordered beyond] at hm
  cases hm

theorem eq_of_issued (served : Served s r t) {new : Int}
    (hnew : new ∈ (r.receipt?.map Receipt.id).toList) :
    new = s.lastId + 1 ∧ new = t.lastId := by
  cases served with
  | idle receipt delivered kept view => simp [receipt] at hnew
  | accepts counter view =>
    have hnext : new = s.lastId + 1 := by simpa [Record.receipt?] using hnew
    exact ⟨hnext, hnext.trans counter.symm⟩
  | delivers held delivery view => simp [Record.receipt?] at hnew
  | removes view => simp [Record.receipt?] at hnew

theorem Tracks.ascending_next (told : Tracks h s) (served : Served s r t) :
    (identities (h ++ [r])).Pairwise (· < ·) := by
  rw [identities_concat]
  refine List.pairwise_append.mpr ⟨told.ascending, ?_, fun id hid new hnew => ?_⟩
  · cases r.receipt? with
    | none => exact .nil
    | some receipt => exact List.pairwise_singleton _ _
  · have hle := told.issued id hid
    obtain ⟨hnext, -⟩ := eq_of_issued served hnew
    omega

theorem Tracks.issued_next (told : Tracks h s) (served : Served s r t) (grown : s.lastId ≤ t.lastId) :
    ∀ id ∈ identities (h ++ [r]), id ≤ t.lastId := by
  rw [identities_concat]
  intro id hid
  rcases List.mem_append.mp hid with hold | hnew
  · exact Int.le_trans (told.issued id hold) grown
  · exact Int.le_of_eq (eq_of_issued served hnew).2

theorem Tracks.unissued_next (told : Tracks h s) (served : Served s r t)
    (grown : s.lastId ≤ t.lastId) (queue : String) (id : Int) (beyond : t.lastId < id) :
    deliveries (h ++ [r]) queue id = 0 := by
  rw [deliveries_concat, told.unissued queue id (by omega)]
  cases served with
  | idle receipt delivered kept view => simp [Record.hands_of_none delivered]
  | accepts counter view => rfl
  | @delivers now name window m d t held delivery view =>
    -- Only what the store holds is delivered, and that has been given out.
    have hle := QueueStore.id_le_of_message? told.ordered held
    have hne : d.id ≠ id := by omega
    simp [Record.hands, Record.delivered?, hne]
  | removes view => rfl

theorem Tracks.live_next (told : Tracks h s) (served : Served s r t) (queue : String) (id : Int)
    (body : String) : Live (h ++ [r]) queue id body ↔
      ∃ m, t.message? queue id = some m ∧ m.body = body := by
  rw [live_concat]
  cases served with
  | idle receipt delivered kept view =>
    rw [view, ← told.live]
    simp [Record.not_sends receipt, kept]
  | @accepts now name text delay t counter view =>
    by_cases hid : queue = name ∧ id = s.lastId + 1
    · rw [view, if_pos hid]
      obtain ⟨rfl, rfl⟩ := hid
      have hdead : ¬ Live h queue (s.lastId + 1) body := told.not_live_of_lt (by omega)
      simp [hdead, Record.Sends, Record.receipt?, StoredMessage.sent]
    · rw [view, if_neg hid, ← told.live]
      have hnot : ¬ (name = queue ∧ s.lastId + 1 = id) := by
        rintro ⟨rfl, rfl⟩
        exact hid ⟨rfl, rfl⟩
      simp [Record.Sends, Record.receipt?, hnot]
  | @delivers now name window m d t held delivery view =>
    have hsends : ¬ Record.Sends queue id body
        ⟨now, .receive name window, .received (.ok (some d))⟩ := Record.not_sends rfl
    by_cases hid : queue = name ∧ id = d.id
    · rw [view, if_pos hid]
      obtain ⟨rfl, rfl⟩ := hid
      simp [hsends, told.live, held, StoredMessage.deliver]
    · rw [view, if_neg hid, ← told.live]
      simp [hsends]
  | @removes now name other answer t view =>
    have hsends : ¬ Record.Sends queue id body ⟨now, .delete name other, .deleted answer⟩ :=
      Record.not_sends rfl
    by_cases hid : queue = name ∧ id = other
    · rw [view, if_pos hid]
      obtain ⟨rfl, rfl⟩ := hid
      simp [hsends]
    · rw [view, if_neg hid, ← told.live]
      have hnot : ¬ (name = queue ∧ other = id) := by
        rintro ⟨rfl, rfl⟩
        exact hid ⟨rfl, rfl⟩
      simp [hsends, hnot]

theorem Tells.nextReadCount_eq (told : Tells h s) (few : (h.length : Int) < maxReadCount)
    {m : StoredMessage} (held : s.message? queue id = some m) :
    nextReadCount m.readCount = deliveries h queue id + 1 := by
  have hcount := told.counted queue id m held
  have hle := deliveries_le_length h queue id
  rw [nextReadCount_of_lt (by omega), hcount]

theorem Tells.counted_next (told : Tells h s) (few : (h.length : Int) < maxReadCount)
    (served : Served s r t) (queue : String) (id : Int) (m : StoredMessage)
    (hm : t.message? queue id = some m) : m.readCount = deliveries (h ++ [r]) queue id := by
  rw [deliveries_concat]
  cases served with
  | idle receipt delivered kept view =>
    rw [view] at hm
    simp [told.counted queue id m hm, Record.hands_of_none delivered]
  | accepts counter view =>
    rw [view] at hm
    split at hm
    · next hid =>
      -- Nobody has received what has just been sent.
      cases hm
      rw [told.unissued queue id (by omega)]
      rfl
    · rw [told.counted queue id m hm]
      rfl
  | @delivers now name window n d t held delivery view =>
    rw [view] at hm
    split at hm
    · next hid =>
      obtain ⟨rfl, rfl⟩ := hid
      cases hm
      simp only [StoredMessage.deliver, told.nextReadCount_eq few held]
      simp [Record.hands, Record.delivered?]
    · next hid =>
      have hnot : ¬ (name = queue ∧ d.id = id) := by
        rintro ⟨rfl, rfl⟩
        exact hid ⟨rfl, rfl⟩
      simp [told.counted queue id m hm, Record.hands, Record.delivered?, hnot]
  | removes view =>
    rw [view] at hm
    split at hm
    · cases hm
    · rw [told.counted queue id m hm]
      rfl

theorem Tells.truthful_next (told : Tells h s) (few : (h.length : Int) < maxReadCount)
    (served : Served s r t) : Truthful h r := by
  intro queue d hd
  cases served with
  | idle receipt delivered kept view =>
    rw [delivered] at hd
    cases hd
  | accepts counter view => cases hd
  | delivers held delivery view =>
    cases hd
    refine ⟨(told.live _ _ _).mpr ⟨_, held, ?_⟩, ?_⟩
    · rw [delivery]
      rfl
    · rw [← told.nextReadCount_eq few held, delivery]
      rfl
  | removes view => cases hd

/-- The record of a call keeps the history in step with the store. -/
theorem Tracks.next (told : Tracks h s) (now : Moment) (call : ForeignCall) :
    Tracks (h ++ [⟨now, call, (call.perform s now).2⟩]) (call.perform s now).1 := by
  have hserved := served_perform told.ordered now call
  have hgrown := ForeignCall.lastId_le_perform s now call
  exact {
    ordered := ForeignCall.ordered_perform told.ordered now call
    created := fun queue => by
      rw [ForeignCall.exists_perform, created_concat, told.created]
    ascending := told.ascending_next hserved
    issued := told.issued_next hserved hgrown
    unissued := told.unissued_next hserved hgrown
    live := told.live_next hserved }

/-- The record of a call makes the history tell what the store holds afterwards. -/
theorem Tells.next (told : Tells h s) (few : (h.length : Int) < maxReadCount) (now : Moment)
    (call : ForeignCall) :
    Tells (h ++ [⟨now, call, (call.perform s now).2⟩]) (call.perform s now).1 := by
  have hserved := served_perform told.ordered now call
  exact {
    toTracks := told.toTracks.next now call
    counted := told.counted_next few hserved
    truthful := fun before r after he => by
      rcases concat_eq_iff.mp he with ⟨rfl, rfl, -⟩ | ⟨front, -, hh⟩
      · exact told.truthful_next few hserved
      · exact told.truthful before r front hh }

theorem Tells.serve (calls : List (Moment × ForeignCall)) (told : Tells h s)
    (few : (h.length + calls.length : Int) ≤ maxReadCount) :
    Tells (h ++ (s.serve calls).2) (s.serve calls).1 := by
  induction calls generalizing s h with
  | nil => simpa [QueueStore.serve] using told
  | cons first rest ih =>
    obtain ⟨now, call⟩ := first
    rw [List.length_cons] at few
    have hnext := told.next (by omega) now call
    have hrest := ih hnext (by simp only [List.length_append, List.length_singleton]; omega)
    rw [List.append_assoc] at hrest
    exact hrest

end History

namespace QueueStore
open History

/-- A store that began empty and has served fewer calls than a read count can count gives out
ascending identities, over all its queues. A queue holds a message exactly if it was sent there
and not deleted since, and its size is the number of these. The read count of a message is the
number of its deliveries, and a delivery carries the body that was sent and counts itself. To
create a queue again changes nothing, any other call on a queue that was not created fails and
changes no queue, and no call on one queue changes another. -/
theorem refines_history (calls : List (Moment × ForeignCall))
    (few : (calls.length : Int) ≤ maxReadCount) :
    let s := (({} : QueueStore).serve calls).1
    let h := (({} : QueueStore).serve calls).2
    (identities h).Pairwise (· < ·) ∧
    (∀ queue id, s.contains queue id = true ↔ ∃ body, Live h queue id body) ∧
    (∀ queue, ∃ ids : List Int, ids.Nodup ∧ (∀ id, id ∈ ids ↔ ∃ body, Live h queue id body) ∧
      s.size queue = ids.length) ∧
    (∀ queue id, s.readCount? queue id =
      if s.contains queue id then some (deliveries h queue id : Int) else none) ∧
    (∀ (before : List Record) r after, h = before ++ r :: after →
      ∀ queue (d : Delivery), r.delivered? = some (queue, d) →
        Live before queue d.id d.body ∧ d.readCount = deliveries before queue d.id + 1) ∧
    (∀ queue, Created h queue → s.create queue = s) ∧
    (∀ now (call : ForeignCall), ¬ Created h call.queue → call ≠ .create call.queue →
      (call.perform s now).2.failure? = some (missingQueue call.queue) ∧
      ∀ other, (call.perform s now).1.held other = s.held other) ∧
    ∀ now (call : ForeignCall) other, other ≠ call.queue →
      (call.perform s now).1.held other = s.held other := by
  intro s h
  have told : Tells h s := tells_empty.serve calls (by simpa using few)
  have hcontains : ∀ queue id, s.contains queue id = true ↔ ∃ body, Live h queue id body := by
    intro queue id
    rw [contains_eq_isSome, Option.isSome_iff_exists]
    simp only [told.live]
    constructor
    · rintro ⟨m, hm⟩
      exact ⟨m.body, m, hm, rfl⟩
    · rintro ⟨body, m, hm, -⟩
      exact ⟨m, hm⟩
  refine ⟨told.ascending, hcontains, fun queue => ?_, fun queue id => ?_, told.truthful,
    fun queue created => ?_, fun now call missing hcall => ?_, fun now call other hne => ?_⟩
  · refine ⟨(s.held queue).map StoredMessage.id, ?_, fun id => ?_, by rw [size, List.length_map]⟩
    · exact List.pairwise_map.mpr ((told.ordered.ascending queue).imp fun hlt => Int.ne_of_lt hlt)
    · rw [mem_ids_iff, hcontains]
  · rw [contains_eq_isSome, readCount?]
    cases hm : s.message? queue id with
    | none => rfl
    | some m => simp [told.counted queue id m hm]
  · exact create_of_exists ((told.created queue).mpr created)
  · have hnone : s.messages? call.queue = none := by
      simpa using mt (told.created call.queue).mp missing
    exact ForeignCall.perform_of_missing hnone now hcall
  · exact ForeignCall.held_perform_of_ne s now call hne

/-- A send to a missing queue uses an identity up, a message comes back after its window, and a
delete in one queue spares the other. -/
theorem refines_history_of_two_queues :
    let at_ (second : Nat) : Moment := ⟨second * nanosPerSecond, second * nanosPerSecond⟩
    let calls : List (Moment × ForeignCall) := [
      (at_ 0, .create "a"), (at_ 0, .create "b"), (at_ 0, .send "a" "x" .zero),
      (at_ 0, .send "c" "z" .zero), (at_ 0, .send "b" "y" .zero),
      (at_ 1, .receive "a" (.ofSeconds 5)), (at_ 2, .receive "a" (.ofSeconds 5)),
      (at_ 6, .receive "a" (.ofSeconds 5)), (at_ 7, .delete "b" 3), (at_ 7, .delete "a" 3)]
    let s := (({} : QueueStore).serve calls).1
    let h := (({} : QueueStore).serve calls).2
    (calls.length : Int) ≤ maxReadCount ∧ identities h = [1, 3] ∧
      (∃ body, Live h "a" 1 body) ∧ (¬ ∃ body, Live h "b" 3 body) ∧
      s.readCount? "a" 1 = some (deliveries h "a" 1 : Int) ∧ deliveries h "a" 1 = 2 := by
  intro at_ calls s h
  have hfew : (calls.length : Int) ≤ maxReadCount := by decide
  obtain ⟨-, hcontains, -, hcount, -⟩ := refines_history calls hfew
  have hheld : s.contains "a" 1 = true := by decide +kernel
  have hgone : ¬ s.contains "b" 3 = true := by decide +kernel
  refine ⟨hfew, by decide +kernel, (hcontains "a" 1).mp hheld, mt (hcontains "b" 3).mpr hgone, ?_,
    by decide +kernel⟩
  exact (hcount "a" 1).trans (if_pos hheld)

end QueueStore
end WorkQueue
