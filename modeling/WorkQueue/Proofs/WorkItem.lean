import WorkQueue.Proofs.Json.Grammar
import WorkQueue.WorkItem.Written

/-! # What is parsed as a work item

Exactly the texts that are records of work items are parsed, each with its identity, its type and
its whole record. Any other text is malformed, for the first reason that applies.
-/
namespace WorkQueue
open Json

namespace WorkItem
variable {record : Fields} {bindings : List (String × Value)} {name s text : String}
  {item : WorkItem} {fault : Malformation} {v : Value}

/-! ## Fields -/

theorem requiredText_eq_ok :
    requiredText record name = .ok s ↔ record.get? name = some (.string s) ∧ s ≠ "" := by
  unfold requiredText
  split
  · next absent => simp [absent]
  · next t held =>
    split
    · next empty =>
      simp only [reduceCtorEq, held, Option.some.injEq, Value.string.injEq, false_iff, not_and,
        not_not]
      rintro rfl
      exact empty
    · next filled =>
      simp only [Except.ok.injEq, held, Option.some.injEq, Value.string.injEq, iff_self_and]
      rintro rfl
      exact filled
  · next v other held =>
    simp only [reduceCtorEq, held, Option.some.injEq, false_iff, not_and]
    exact fun same => absurd same (other s)

theorem holdsText_iff :
    HoldsText bindings name s ↔ requiredText (NameMap.ofBindings bindings) name = .ok s := by
  rw [requiredText_eq_ok, NameMap.get?_ofBindings_eq_last?, HoldsText]

theorem lacksText_iff : LacksText bindings name fault ↔
    requiredText (NameMap.ofBindings bindings) name = .error fault := by
  unfold requiredText
  rw [NameMap.get?_ofBindings_eq_last?]
  constructor
  · rintro (absent | held | ⟨held, other⟩)
    · rw [absent]
    · rw [held]
      rfl
    · rw [held]
      split
      · next none => cases none
      · next same => exact absurd (Option.some.inj same) (other _)
      · next same => rw [Option.some.inj same]
  · intro h
    split at h
    · next absent =>
      cases h
      exact .missing absent
    · next t held =>
      split at h
      · next empty =>
        cases h
        exact .empty (empty ▸ held)
      · cases h
    · next v other held =>
      cases h
      exact .notText held other

/-! ## Records -/

theorem ofRecord_eq_ok : ofRecord record = .ok item ↔ requiredText record idField = .ok item.id ∧
    requiredText record typeField = .ok item.workItemType ∧ item.record = record := by
  obtain ⟨id, workItemType, kept⟩ := item
  unfold ofRecord
  cases requiredText record idField with
  | error fault => simp
  | ok named => cases requiredText record typeField <;> simp [eq_comm]

theorem ofRecord_eq_error : ofRecord record = .error fault ↔
    requiredText record idField = .error fault ∨
      ∃ s, requiredText record idField = .ok s ∧ requiredText record typeField = .error fault := by
  unfold ofRecord
  cases requiredText record idField with
  | error wrong => simp
  | ok named => cases requiredText record typeField <;> simp

theorem ofBody_record (h : RecordText 126 text bindings) :
    ofBody text = ofRecord (NameMap.ofBindings bindings) := by
  have spelled : Document 127 text (.object (NameMap.ofBindings bindings)) :=
    document_object.mpr ⟨bindings, h, rfl⟩
  rw [ofBody, parse_eq_ok.mpr spelled]

theorem ofBody_notObject (h : Document 127 text v) (other : ∀ fields, v ≠ .object fields) :
    ofBody text = .error .notObject := by
  rw [ofBody, parse_eq_ok.mpr h]
  cases v with
  | object fields => exact absurd rfl (other fields)
  | _ => rfl

/-- A text is no document, a document that is no object, or a record. -/
theorem document_cases (text : String) :
    (∃ cause, Json.parse text = .error cause ∧ ∀ v, ¬ Document 127 text v) ∨
      (∃ v, Document 127 text v ∧ ∀ fields, v ≠ .object fields) ∨
      ∃ bindings, RecordText 126 text bindings := by
  cases parsed : Json.parse text with
  | error cause =>
    refine .inl ⟨cause, rfl, fun v spelled => ?_⟩
    rw [parse_eq_ok.mpr spelled] at parsed
    cases parsed
  | ok v =>
    have spelled := parse_eq_ok.mp parsed
    by_cases object : ∃ fields, v = .object fields
    · obtain ⟨fields, rfl⟩ := object
      obtain ⟨bindings, record, -⟩ := document_object.mp spelled
      exact .inr (.inr ⟨bindings, record⟩)
    · exact .inr (.inl ⟨v, spelled, fun fields same => object ⟨fields, same⟩⟩)

theorem ofBody_eq_ok : ofBody text = .ok item ↔ Written text item := by
  constructor
  · intro h
    rcases document_cases text with ⟨cause, stopped, -⟩ | ⟨v, spelled, other⟩ | ⟨bindings, record⟩
    · rw [ofBody, stopped] at h
      cases h
    · rw [ofBody_notObject spelled other] at h
      cases h
    · rw [ofBody_record record, ofRecord_eq_ok] at h
      obtain ⟨named, typed, kept⟩ := h
      refine ⟨⟨bindings, ⟨record, holdsText_iff.mpr named, holdsText_iff.mpr typed⟩, ?_⟩, ?_⟩
      · intro name
        rw [kept, NameMap.get?_ofBindings_eq_last?]
      · exact document_object.mpr ⟨bindings, record, kept⟩
  · rintro ⟨⟨bindings, ⟨record, named, typed⟩, -⟩, body⟩
    rw [ofBody_record record, ofRecord_eq_ok]
    refine ⟨holdsText_iff.mp named, holdsText_iff.mp typed, ?_⟩
    have same := (parse_eq_ok.mpr body).symm.trans
      (parse_eq_ok.mpr (document_object.mpr ⟨bindings, record, rfl⟩))
    exact Value.object.inj (Except.ok.inj same)

theorem ofBody_eq_error : ofBody text = .error fault ↔ Refused text fault := by
  constructor
  · intro h
    rcases document_cases text with
      ⟨cause, stopped, unspelled⟩ | ⟨v, spelled, other⟩ | ⟨bindings, record⟩
    · rw [ofBody, stopped] at h
      cases h
      exact .notJson unspelled stopped
    · rw [ofBody_notObject spelled other] at h
      cases h
      exact .notObject spelled other
    · rw [ofBody_record record, ofRecord_eq_error] at h
      rcases h with wrong | ⟨id, named, wrong⟩
      · exact .id record (lacksText_iff.mpr wrong)
      · exact .workItemType record (holdsText_iff.mpr named) (lacksText_iff.mpr wrong)
  · intro h
    cases h with
    | notJson unspelled stopped => rw [ofBody, stopped]
    | notObject spelled other => exact ofBody_notObject spelled other
    | id record wrong =>
      rw [ofBody_record record, ofRecord_eq_error]
      exact .inl (lacksText_iff.mp wrong)
    | workItemType record named wrong =>
      rw [ofBody_record record, ofRecord_eq_error]
      exact .inr ⟨_, holdsText_iff.mp named, lacksText_iff.mp wrong⟩

/-- A text is parsed exactly if it is one JSON object, of nesting 127 at most, in which the last
identity and the last type are nonempty strings; the work item has these and the whole record. Any
other text is malformed: as no JSON, as no object, for its identity or for its type, in this
order. -/
theorem parse_exact (text : String) :
    ((∃ item, parse text = .ok item) ↔
        ∃ fields id workItemType, IsRecord text fields id workItemType) ∧
      (∀ item, parse text = .ok item ↔ Written text item) ∧
      ∀ failure, parse text = .error failure ↔
        ∃ fault, failure = .malformed fault ∧ Refused text fault := by
  have accepts (item : WorkItem) : parse text = .ok item ↔ Written text item := by
    rw [← ofBody_eq_ok, parse]
    cases ofBody text <;> simp [Except.mapError]
  refine ⟨⟨?_, ?_⟩, accepts, fun failure => ?_⟩
  · rintro ⟨item, parsed⟩
    obtain ⟨fields, record, -⟩ := ((accepts item).mp parsed).record
    exact ⟨fields, _, _, record⟩
  · rintro ⟨fields, id, workItemType, record, named, typed⟩
    refine ⟨⟨id, workItemType, NameMap.ofBindings fields⟩, (accepts _).mpr ?_⟩
    exact ⟨⟨fields, ⟨record, named, typed⟩, NameMap.get?_ofBindings_eq_last? fields⟩,
      document_object.mpr ⟨fields, record, rfl⟩⟩
  · simp only [← ofBody_eq_error, parse]
    cases ofBody text <;> simp [Except.mapError, eq_comm]

end WorkItem
end WorkQueue
