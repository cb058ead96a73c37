import WorkQueue.Payload.Catalog
import WorkQueue.Producer
import WorkQueue.Proofs.Payload.Wire
import WorkQueue.Proofs.Queue.Timestamp
import WorkQueue.Telemetry.Metric

/-! # A production enqueues one message or none

A production that comes back with a receipt has put the wire text of its payload into its queue
once, under a fresh identity, to be received when the window of its delay is over. Any other
production leaves the messages of all queues as they are and says why. Both are counted once.
-/
namespace WorkQueue

namespace Payload
variable {α : Type} [Payload α] {p : α} {failure : Failure}

/-- Why a payload has no wire text: it cannot be serialized, or it is no object. -/
inductive Unencodable (p : α) : Failure → Prop
  | unserializable {cause : Json.Error} (h : serialize p = .error cause) :
      Unencodable p (.serialization cause)
  | shapeless {v : Json.Value} (h : serialize p = .ok v) (shape : ∀ fields, v ≠ .object fields) :
      Unencodable p (.other s!"work item payload {typeName α} must serialize to a JSON object")

theorem toRecord_of_unserializable {cause : Json.Error} (h : serialize p = .error cause) :
    toRecord p = .error (.serialization cause) := by
  simp only [toRecord, h]

theorem toRecord_of_shapeless {v : Json.Value} (h : serialize p = .ok v)
    (shape : ∀ fields, v ≠ .object fields) : toRecord p =
      .error (.other s!"work item payload {typeName α} must serialize to a JSON object") := by
  cases v with
  | object fields => exact absurd rfl (shape fields)
  | _ => simp only [toRecord, h]

theorem Unencodable.encode (h : Unencodable p failure) : encode p = .error failure := by
  cases h with
  | unserializable h => rw [Payload.encode, toRecord_of_unserializable h, Except.map]
  | shapeless h shape => rw [Payload.encode, toRecord_of_shapeless h shape, Except.map]

theorem unencodable_of_encode (h : Payload.encode p = .error failure) : Unencodable p failure := by
  cases hs : serialize p with
  | error cause =>
    rw [Payload.encode, toRecord_of_unserializable hs] at h
    cases h
    exact .unserializable hs
  | ok v =>
    by_cases shape : ∃ fields, v = .object fields
    · obtain ⟨fields, rfl⟩ := shape
      rw [encode_of_serialize hs] at h
      cases h
    · rw [not_exists] at shape
      rw [Payload.encode, toRecord_of_shapeless hs shape] at h
      cases h
      exact .shapeless hs shape

end Payload

namespace Producer
open History

variable {α : Type} [Payload α] {p : α} {producer : Producer} {q : UnreliableQueue}
  {failure : Failure} {now : Moment} {delay : Duration} {body : String} {receipt : Receipt}

/-- Why a production fails: its payload has no wire text, the send is planned to fail, or there is
no such queue. -/
inductive Refuses (producer : Producer) (q : UnreliableQueue) (p : α) : Failure → Prop
  | unencodable {failure : Failure} (h : Payload.Unencodable p failure) :
      producer.Refuses q p failure
  | unsent {body : String} {failure : Failure} (h : Payload.encode p = .ok body)
      (planned : q.plan.send (q.sends + 1) = some failure) : producer.Refuses q p failure
  | missing {body : String} (h : Payload.encode p = .ok body)
      (planned : q.plan.send (q.sends + 1) = none)
      (absent : q.store.messages? producer.queue = none) :
      producer.Refuses q p (missingQueue producer.queue)

theorem Refuses.submit (h : producer.Refuses q p failure) (now : Moment) (delay : Duration) :
    (producer.submit q now p delay).2 = .error failure ∧
      ∀ queue, (producer.submit q now p delay).1.store.held queue = q.store.held queue := by
  cases h with
  | unencodable h =>
    rw [submit_of_error h.encode]
    exact ⟨rfl, fun _ => rfl⟩
  | unsent h planned =>
    rw [submit_of_ok h]
    simp only [UnreliableQueue.send, planned, implies_true, and_self]
  | missing h planned absent =>
    rw [submit_of_ok h]
    rw [UnreliableQueue.send, planned, QueueStore.send_of_missing absent]
    exact ⟨rfl, fun _ => rfl⟩

/-- What is not refused is sent. -/
theorem submit_cases (producer : Producer) (q : UnreliableQueue) (p : α) (now : Moment)
    (delay : Duration) :
    (∃ failure, producer.Refuses q p failure) ∨
      ∃ body, Payload.encode p = .ok body ∧ (q.store.messages? producer.queue).isSome = true ∧
        (producer.submit q now p delay).1.store =
          (q.store.send now producer.queue body delay).1 ∧
        (producer.submit q now p delay).2 = (q.store.send now producer.queue body delay).2 := by
  cases h : Payload.encode p with
  | error failure => exact .inl ⟨failure, .unencodable (Payload.unencodable_of_encode h)⟩
  | ok body =>
    cases planned : q.plan.send (q.sends + 1) with
    | some failure => exact .inl ⟨failure, .unsent h planned⟩
    | none =>
      cases present : q.store.messages? producer.queue with
      | none => exact .inl ⟨_, .missing h planned present⟩
      | some held =>
        refine .inr ⟨body, rfl, rfl, ?_⟩
        rw [submit_of_ok h]
        simp only [UnreliableQueue.send, planned, and_self]

/-- Every production is counted once, by the type of the payload, with whether it succeeded. -/
theorem counted_notices (p : α) (delay : Duration) (answer : Except Failure Receipt) :
    (notices p delay answer).flatMap Notice.counted =
      [.produced (Payload.typeName α) answer.isOk] := by
  cases answer <;> rfl

/-! ## What is enqueued -/

/-- What a receipt stands for, at a store with the history of the calls that led to it. -/
structure Enqueues (h : List Record) (before after : QueueStore) (now : Moment)
    (queue body : String) (delay : Duration) (receipt : Receipt) : Prop where
  named : receipt.queue = queue
  fresh : ∀ id ∈ identities h, id < receipt.id
  unheld : ∀ other, before.message? other receipt.id = none
  appended : ∃ m, after.held queue = before.held queue ++ [m] ∧
    m.id = receipt.id ∧ m.readCount = 0 ∧ m.body = body
  others : ∀ other, other ≠ queue → after.held other = before.held other
  hidden : ∀ rest, ∀ r ∈ (after.serve rest).2, r.hands queue receipt.id = true →
    r.time.running < now.running + delay.toNanos →
      ¬ FitsClock now.running delay ∧ now.running + longWindow ≤ r.time.running
  shown : ∀ rest, (∀ r ∈ (after.serve rest).2,
      r.hands queue receipt.id = false ∧ r.call ≠ .delete queue receipt.id) →
    ∀ moment, Eligible
      (h ++ ⟨now, .send queue body delay, .sent (.ok receipt)⟩ :: (after.serve rest).2)
      queue receipt.id moment ↔ windowEnd now.running delay ≤ moment

/-- Before a delay is over its window ends only if the running clock could not hold its end. -/
theorem over_before_delay {later : Instant} (early : later < now.running + delay.toNanos)
    (passed : windowEnd now.running delay ≤ later) :
    ¬ FitsClock now.running delay ∧ now.running + longWindow ≤ later := by
  have unfit : ¬ FitsClock now.running delay := fun fits => by
    rw [windowEnd_of_fits fits] at passed
    exact absurd passed (Nat.not_le_of_lt early)
  exact ⟨unfit, windowEnd_of_not_fits unfit ▸ passed⟩

theorem enqueues_send {h : List Record} {s : QueueStore} {queue : String} (told : Times h s)
    (sent : (s.send now queue body delay).2 = .ok receipt) :
    Enqueues h s (s.send now queue body delay).1 now queue body delay receipt := by
  have told' : Times (h ++ [⟨now, .send queue body delay, .sent (.ok receipt)⟩])
      (s.send now queue body delay).1 := sent ▸ told.next now (.send queue body delay)
  rcases s.send_cases now queue body delay with ⟨failed, -⟩ | ⟨accepted, hheld⟩
  · rw [failed] at sent
    cases sent
  rw [accepted] at sent
  cases sent
  have view := (QueueStore.message?_send_ok told.ordered accepted).2
  generalize (s.send now queue body delay).1 = t at *
  have held : t.message? queue (s.lastId + 1) = some (.sent (s.lastId + 1) now body delay) := by
    rw [view, if_pos ⟨rfl, rfl⟩]
  have hidden : t.Hidden queue (s.lastId + 1) (windowEnd now.running delay) := by
    refine ⟨QueueStore.id_le_of_message? told'.ordered held, fun m hm => ?_⟩
    rw [held] at hm
    cases hm
    exact Nat.le_refl _
  constructor
  case named => rfl
  case fresh => exact fun id hid => Int.lt_add_one_of_le (told.issued id hid)
  case unheld => exact fun other =>
    QueueStore.message?_eq_none_of_lt told.ordered (Int.lt_succ s.lastId)
  case appended => exact ⟨_, by rw [hheld, if_pos rfl], rfl, rfl, rfl⟩
  case others => exact fun other ne => by rw [hheld, if_neg ne]
  case hidden => exact fun rest r hr hands early =>
    over_before_delay early (hidden.serve told'.ordered rest r hr hands)
  case shown =>
    intro rest spared moment
    have last := QueueStore.message?_serve told'.ordered held rest spared
    have toldLast := told'.serve rest
    rw [List.append_assoc, List.singleton_append] at toldLast
    rw [toldLast.eligible_iff, last]
    exact ⟨fun ⟨m, same, le⟩ => by cases same; exact le, fun le => ⟨_, rfl, le⟩⟩

/-- After any calls on an empty store, a production of any payload either comes back with a receipt,
and then its queue holds one more message, which has the wire text of the payload, was never
delivered and is received before its delay is over only if the running clock cannot hold the end of
the delay, and then no sooner than after 365 days; or it comes back with the failure that its
payload or its send meets, and no queue holds another message than before. One production is
counted, under the type of the payload, as a success exactly if there is a receipt. -/
theorem produces_one_or_none (calls : List (Moment × ForeignCall)) (producer : Producer)
    (q : UnreliableQueue) (now : Moment) (p : α) (delay : Duration) :
    let h := (({} : QueueStore).serve calls).2
    let before : UnreliableQueue := { q with store := (({} : QueueStore).serve calls).1 }
    let after := (producer.produceDelayed before now p delay).1
    let answer := (producer.produceDelayed before now p delay).2.1
    let notices := (producer.produceDelayed before now p delay).2.2
    ((∃ receipt body, answer = .ok receipt ∧ Payload.encode p = .ok body ∧
        Enqueues h before.store after.store now producer.queue body delay receipt) ∨
      ∃ failure, answer = .error failure ∧ producer.Refuses before p failure ∧
        ∀ queue, after.store.held queue = before.store.held queue) ∧
    (∀ failure, producer.Refuses before p failure → answer = .error failure) ∧
    notices.flatMap Notice.counted = [.produced (Payload.typeName α) answer.isOk] := by
  intro h before after answer notices
  have told : Times h before.store := times_empty.serve calls
  refine ⟨?_, fun failure refused => (refused.submit now delay).1, counted_notices p delay answer⟩
  rcases producer.submit_cases before p now delay with ⟨failure, refused⟩ |
    ⟨body, encoded, present, hstore, hanswer⟩
  · obtain ⟨answered, unchanged⟩ := refused.submit now delay
    exact .inr ⟨failure, answered, refused, unchanged⟩
  · obtain ⟨held, hheld⟩ := Option.isSome_iff_exists.mp present
    have sent : (before.store.send now producer.queue body delay).2 =
        .ok ⟨producer.queue, before.store.lastId + 1⟩ := by
      rw [QueueStore.send_of_held hheld]
    have enqueues := enqueues_send told sent
    rw [← hstore] at enqueues
    exact .inl ⟨_, body, hanswer.trans sent, encoded, enqueues⟩

/-- A text produced with the longest delay is received after a year, before its delay is over. -/
theorem received_early_of_longest :
    let s := (({} : QueueStore).serve [(QueueStore.atSecond 0, .create "q")]).1
    let produced := ({ queue := "q" } : Producer).produceDelayed { store := s }
      (QueueStore.atSecond 0) ({ id := "a", text := "x" } : TextItem) QueueStore.longest
    let later := QueueStore.atSecond 31536000
    produced.2.1.toOption = some ⟨"q", 1⟩ ∧
      (produced.1.store.serve [(later, .receive "q" .zero)]).2.any (Record.hands "q" 1) = true ∧
      later.running < (QueueStore.atSecond 0).running + QueueStore.longest.toNanos := by
  decide +kernel

end Producer
end WorkQueue
