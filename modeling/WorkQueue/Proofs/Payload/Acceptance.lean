import WorkQueue.Proofs.Consumer.Booking
import WorkQueue.Proofs.Json.Reading
import WorkQueue.Proofs.Json.Real
import WorkQueue.Proofs.Payload.Wire

/-! # Which payloads a consumer accepts

Encoding asks of a payload only that it is an object. Parsing asks for an identity and a type, and
does not go below a depth. What lies between the two is enqueued and then discarded as malformed.
-/
namespace WorkQueue
open Json

namespace Payload
variable {α : Type} [Payload α]

/-- Whether the values in a payload's fields are ones that documents hold. The fields themselves may
come in any order. -/
structure WellFormed (p : α) : Prop where
  sorted : ∀ fields, serialize p = .ok (.object fields) → FieldsSorted fields
  numbers : ∀ fields, serialize p = .ok (.object fields) → FieldsNumbers Number.Canonical fields

/-- Whether a payload has an identity and a type and nests no deeper than the reader goes. -/
structure Acceptable (p : α) : Prop where
  named : id p ≠ ""
  typed : typeName α ≠ ""
  shallow : ∀ record, toRecord p = .ok record → (Value.object record).depth ≤ 127

/-- The payloads of a type with a schema are well formed, whatever they hold. -/
theorem wellFormed_of_record {α : Type} [RecordPayload α] (p : α) : WellFormed p := by
  have hshape : ∀ fields, serialize p = .ok (.object fields) → ∀ e ∈ fields,
      e.2.Sorted ∧ e.2.Numbers Number.Canonical := by
    rintro fields ⟨⟩ e he
    obtain ⟨field, -, x, rfl⟩ := Schema.mem_encode he
    obtain ⟨-, hsorted, hnumbers⟩ := field.kind.encode_shape x
    exact ⟨hsorted, hnumbers.imp (fun _ hn => hn.canonical) _⟩
  exact ⟨fun fields h => fieldsSorted_iff.mpr fun e he => (hshape fields h e he).1,
    fun fields h => fieldsNumbers_iff.mpr fun e he => (hshape fields h e he).2⟩

theorem acceptable_iff_of_record {α : Type} [RecordPayload α] (p : α) :
    Acceptable p ↔ id p ≠ "" ∧ typeName α ≠ "" := by
  refine ⟨fun h => ⟨h.named, h.typed⟩, fun ⟨named, typed⟩ => ⟨named, typed, ?_⟩⟩
  rintro record ⟨⟩
  have hdepth : fieldsDepth (stamp (id p) (typeName α) (RecordPayload.fields p)) ≤ 0 :=
    depth_stamp_le (RecordPayload.shape_fields p).1
  exact (Nat.succ_le_succ hdepth).trans (by decide)

/-- A form that was read from a document is well formed, and it is acceptable if it has an
identity. -/
theorem freeForm_of_read {text : String} {v : Value} (h : Json.parse text = .ok v) (name : String) :
    let p : FreeForm := { id := name, fields := v }
    WellFormed p ∧ (Acceptable p ↔ name ≠ "") := by
  obtain ⟨sorted, numbers, shallow⟩ := held_of_parse h
  intro p
  refine ⟨⟨?_, ?_⟩, fun h => h.named, fun named => ⟨named, AnyPayload.typeName_ne .freeForm, ?_⟩⟩
  · rintro fields ⟨⟩
    exact sorted.2
  · rintro fields ⟨⟩
    exact numbers
  · intro record hrecord
    obtain ⟨fields, ⟨⟩, rfl⟩ := exists_of_toRecord hrecord
    have hfields : fieldsDepth (NameMap.ofBindings fields) ≤ 126 := by
      rw [NameMap.ofBindings_of_ascending sorted.1]
      exact Nat.le_of_lt_succ (Nat.lt_of_succ_lt_succ shallow)
    exact Nat.succ_le_succ (depth_stamp_le hfields)

/-- The text of an encoded payload is parsed exactly if the payload is acceptable. -/
theorem parse_encode {p : α} (wellFormed : WellFormed p) {wire : String}
    (encoded : encode p = .ok wire) :
    ∃ record, Decides (Acceptable p) (WorkItem.parse wire) ⟨id p, typeName α, record⟩ := by
  obtain ⟨record, hrecord, rfl⟩ := exists_of_encode encoded
  obtain ⟨fields, hserialize, rfl⟩ := exists_of_toRecord hrecord
  have hsorted : FieldsSorted (NameMap.ofBindings fields) :=
    fieldsSorted_iff.mpr fun e he =>
      fieldsSorted_iff.mp (wellFormed.sorted fields hserialize) e (NameMap.mem_ofBindings he)
  have hnumbers : FieldsNumbers (fun n => n.ReadsAs n.reread) (NameMap.ofBindings fields) :=
    fieldsNumbers_iff.mpr fun e he => (fieldsNumbers_iff.mp (wellFormed.numbers fields hserialize) e
      (NameMap.mem_ofBindings he)).imp (fun _ hn => hn.readsAs) _
  have hparse := WorkItem.parse_stamp (id p) (typeName α) (NameMap.ascending_ofBindings fields)
    hsorted hnumbers
  refine ⟨_, hparse.of_iff ⟨fun ⟨⟨named, typed⟩, shallow⟩ => ⟨named, typed, fun record h => ?_⟩,
    fun h => ⟨⟨h.named, h.typed⟩, Nat.lt_succ_of_le (h.shallow _ hrecord)⟩⟩⟩
  cases hrecord.symm.trans h
  exact Nat.le_of_lt_succ shallow

end Payload

/-- What a producer encodes is parsed, with the identity and the type of the payload, exactly if the
payload is acceptable. In any run of a consumer, an attempt at a delivery with that text ends with
the message refused as malformed and a delete issued of it exactly if the payload is not. -/
theorem Chronicle.discarded_iff_unacceptable {α : Type} [Payload α] (p : α)
    (wellFormed : Payload.WellFormed p) {wire : String} (encoded : Payload.encode p = .ok wire) :
    ((∃ item, WorkItem.parse wire = .ok item ∧ item.id = Payload.id p ∧
      item.workItemType = Payload.typeName α) ↔ Payload.Acceptable p) ∧
    ∀ {ι σ : Type} (setup : ConsumerSetup ι σ) (workOnStartup createQueue : Bool)
      (plan : FaultPlan) (ofDay : Instant) (handlers : σ) (events : List Event),
      let r := (opening setup workOnStartup createQueue plan ofDay handlers).run setup events
      ∀ entry ∈ r.journal.entries, entry.delivery.body = wire → entry.ending ≠ none →
        ((∃ failure answer, entry.ending = some (.malformed failure) ∧
          entry.deletes = [(entry.delivery.id, answer)]) ↔ ¬ Payload.Acceptable p) := by
  obtain ⟨record, accepts, refuses⟩ := Payload.parse_encode wellFormed encoded
  refine ⟨⟨fun ⟨item, hparse, _⟩ => ?_, fun h => ⟨_, accepts h, rfl, rfl⟩⟩, ?_⟩
  · by_contra h
    obtain ⟨failure, hfailure⟩ := refuses h
    rw [hfailure] at hparse
    cases hparse
  · intro ι σ setup workOnStartup createQueue plan ofDay handlers events r entry hm hbody ended
    have hstanding := standing_opening setup workOnStartup createQueue plan ofDay handlers
    have hbooked : r.custody.Booked setup :=
      hstanding.run_invariant _ Custody.booked_opening fun event _ k k' h he => h.effect he
    obtain ⟨ending, hending, of, hdeletes⟩ : entry.Settled setup := by
      rcases hbooked.entered.settled_or_open hm with settled | ⟨d, -, rfl⟩
      · exact settled
      · exact absurd rfl ended
    rw [hbody] at of
    rw [hending]
    constructor
    · rintro ⟨failure, answer, ⟨⟩, -⟩ h
      exact absurd (of.symm.trans (accepts h)) nofun
    · intro h
      obtain ⟨failure, hfailure⟩ := refuses h
      cases ending with
      | malformed failure =>
        obtain ⟨answer, hanswer⟩ := hdeletes
        exact ⟨failure, answer, rfl, hanswer⟩
      | dispatched item result => exact absurd (of.1.symm.trans hfailure) nofun

/-- A form that holds a fraction is parsed. -/
theorem Chronicle.accepted_of_fraction :
    let half : Number := .real ⟨false, twoTo 52, -53⟩
    let p : FreeForm := { id := "a", fields := .object [("x", .number half)] }
    let record := Payload.stamp "a" "FreeForm" [("x", .number half)]
    Payload.WellFormed p ∧ Payload.encode p = .ok (Value.object record).render ∧
      ∃ item, WorkItem.parse (Value.object record).render = .ok item ∧ item.id = "a" ∧
        item.workItemType = "FreeForm" := by
  intro half p record
  have hhalf : half.Canonical := ⟨by decide, by decide, by decide, .inl (by decide)⟩
  have hwellFormed : Payload.WellFormed p := by
    constructor
    · rintro fields ⟨⟩
      exact ⟨trivial, trivial⟩
    · rintro fields ⟨⟩
      exact ⟨hhalf, trivial⟩
  have hserialize : Payload.serialize p = .ok (.object [("x", .number half)]) := rfl
  have hencode : Payload.encode p = .ok (Value.object record).render :=
    Payload.encode_of_serialize hserialize
  have hacceptable : Payload.Acceptable p := by
    refine ⟨by decide, by decide, ?_⟩
    rintro record ⟨⟩
    decide
  exact ⟨hwellFormed, hencode, (discarded_iff_unacceptable p hwellFormed hencode).1.mpr hacceptable⟩

/-- A text without an identity is encoded and enqueued. The consumer, which serves its type, deletes
it, and no handler has seen it. -/
theorem Chronicle.discarded_of_anonymous :
    let p : AnyPayload := ⟨.text, { id := "", text := "hello" }⟩
    let wire := "\x7b\"id\":\"\",\"text\":\"hello\",\"type\":\"TextWorkItem\"\x7d"
    let served : ConsumerSetup WorkItem Nat :=
      { ConsumerSetup.uniform 3 (.ok ()) with
        registry := ⟨[⟨"TextWorkItem", .ok, fun h => by cases h⟩], by simp⟩ }
    let events : List Event := [.command (.produce p .zero), .step, .step]
    let r := (opening served true true .none 0 0).run served events
    p.encode.toOption = some wire ∧ (WorkItem.parse wire).isOk = false ∧
      r.journal.accepted = [(1, wire)] ∧
      r.site.surroundings.queue.store.contains "q" 1 = false ∧ r.site.surroundings.handlers = 0 := by
  decide +kernel

end WorkQueue
