import WorkQueue.Payload.Catalog
import WorkQueue.Proofs.Json.Reading
import WorkQueue.Proofs.Json.Record
import WorkQueue.Proofs.WorkItem

/-! # Records of newer and older producers

What a record decodes to rests on the fields that the payload type declares, and on nothing that
stands beside them. A field that the record lacks is what stands for its absence, so that a record
written before the field was declared still decodes.
-/
namespace WorkQueue
open Json

namespace Json

/-- Whether a map holds a value in a declared field. -/
inductive Field.Holds (field : Field) (fields : Fields) : field.kind.Carrier → Prop
  | present {v : Value} {x : field.kind.Carrier} (held : fields.get? field.name = some v)
      (fits : field.kind.decode v = .ok x) : Holds field fields x
  | absent {x : field.kind.Carrier} (lacking : fields.get? field.name = none)
      (default : field.fallback = some x) : Holds field fields x

/-- What is wrong with a map that holds nothing in a declared field. -/
inductive Field.Fails (field : Field) (fields : Fields) : Mismatch → Prop
  | unfit {v : Value} {cause : Mismatch} (held : fields.get? field.name = some v)
      (refused : field.kind.decode v = .error cause) : Fails field fields cause
  | missing (lacking : fields.get? field.name = none) (required : field.fallback = none) :
      Fails field fields (.missingField field.name)

/-- Whether a map holds a record, field by field. -/
def Schema.Holds : (schema : Schema) → Fields → Record schema → Prop
  | [], _, _ => True
  | field :: rest, fields, (x, record) => field.Holds fields x ∧ Holds rest fields record

namespace Field
variable {field : Field} {fields fields' : Fields} {x : field.kind.Carrier} {cause : Mismatch}

theorem Holds.of_agree (h : field.Holds fields x)
    (agree : fields.get? field.name = fields'.get? field.name) : field.Holds fields' x := by
  cases h with
  | present held fits => exact .present (agree.symm.trans held) fits
  | absent lacking default => exact .absent (agree.symm.trans lacking) default

theorem Fails.of_agree (h : field.Fails fields cause)
    (agree : fields.get? field.name = fields'.get? field.name) : field.Fails fields' cause := by
  cases h with
  | unfit held refused => exact .unfit (agree.symm.trans held) refused
  | missing lacking required => exact .missing (agree.symm.trans lacking) required

end Field

namespace Schema
variable {schema : Schema} {fields fields' : Fields} {field : Field} {record : Record schema}
variable {cause : Mismatch}

theorem take_eq_ok {x : field.kind.Carrier} : take field fields = .ok x ↔ field.Holds fields x := by
  rw [take]
  constructor
  · intro h
    split at h
    · next v held => exact .present held h
    · next lacking =>
      split at h
      · next default =>
        cases h
        exact .absent lacking default
      · cases h
  · intro h
    cases h with
    | present held fits => rw [held]; exact fits
    | absent lacking default => rw [lacking, default]

theorem fails_of_take (h : take field fields = .error cause) : field.Fails fields cause := by
  rw [take] at h
  split at h
  · next v held => exact .unfit held h
  · next lacking =>
    split at h
    · cases h
    · next required =>
      cases h
      exact .missing lacking required

theorem collect_eq_ok : schema.collect fields = .ok record ↔ schema.Holds fields record := by
  induction schema with
  | nil => exact ⟨fun _ => trivial, fun _ => rfl⟩
  | cons field rest ih =>
    obtain ⟨x, record⟩ := record
    rw [collect, Holds, ← take_eq_ok, ← ih]
    cases take field fields with
    | error cause =>
      constructor
      · rintro ⟨⟩
      · rintro ⟨⟨⟩, -⟩
    | ok y =>
      cases collect rest fields with
      | error cause =>
        constructor
        · rintro ⟨⟩
        · rintro ⟨-, ⟨⟩⟩
      | ok later =>
        constructor
        · rintro ⟨⟩
          exact ⟨rfl, rfl⟩
        · rintro ⟨⟨⟩, ⟨⟩⟩
          rfl

theorem fails_of_collect (h : schema.collect fields = .error cause) :
    ∃ field ∈ schema, field.Fails fields cause := by
  induction schema with
  | nil => cases h
  | cons field rest ih =>
    rw [collect] at h
    cases hfirst : take field fields with
    | error cause' =>
      rw [hfirst] at h
      cases h
      exact ⟨field, List.mem_cons_self, fails_of_take hfirst⟩
    | ok x =>
      rw [hfirst] at h
      cases hrest : collect rest fields with
      | error cause' =>
        rw [hrest] at h
        cases h
        obtain ⟨other, hm, hfails⟩ := ih hrest
        exact ⟨other, List.mem_cons_of_mem _ hm, hfails⟩
      | ok later =>
        rw [hrest] at h
        cases h

/-- A record can be put together exactly if each of its fields can be had. -/
theorem exists_holds : (∃ record, schema.Holds fields record) ↔
    ∀ field ∈ schema, ∃ x, field.Holds fields x := by
  induction schema with
  | nil => exact ⟨fun _ field h => absurd h List.not_mem_nil, fun _ => ⟨(), trivial⟩⟩
  | cons field rest ih =>
    rw [List.forall_mem_cons, ← ih]
    constructor
    · rintro ⟨⟨x, record⟩, hfirst, hrest⟩
      exact ⟨⟨x, hfirst⟩, record, hrest⟩
    · rintro ⟨⟨x, hfirst⟩, record, hrest⟩
      exact ⟨(x, record), hfirst, hrest⟩

theorem mem_of_field? {name : String} (h : schema.field? name = some field) :
    field ∈ schema ∧ field.name = name := by
  have hname : (field.name == name) = true :=
    List.find?_some (p := fun field : Field => field.name == name) h
  exact ⟨List.mem_of_find?_eq_some h, beq_iff_eq.mp hname⟩

theorem field?_isSome (h : field ∈ schema) : (schema.field? field.name).isSome = true :=
  List.find?_isSome.mpr ⟨field, h, beq_self_eq_true field.name⟩

theorem ascending_restrict (ascending : NameMap.Ascending fields) :
    NameMap.Ascending (schema.restrict fields) := ascending.filter _

theorem get?_restrict (schema : Schema) (fields : Fields) (name : String) :
    (schema.restrict fields).get? name =
      if (schema.field? name).isSome then fields.get? name else none :=
  NameMap.get?_filter fields (fun name => (schema.field? name).isSome) name

theorem get?_restrict_of_mem (h : field ∈ schema) :
    (schema.restrict fields).get? field.name = fields.get? field.name := by
  rw [get?_restrict, if_pos (field?_isSome h)]

/-- What a schema leaves of two maps is the same if they agree on the fields that it names. -/
theorem restrict_eq_of_agree (ascending : NameMap.Ascending fields)
    (ascending' : NameMap.Ascending fields')
    (agree : ∀ field ∈ schema, fields.get? field.name = fields'.get? field.name) :
    schema.restrict fields = schema.restrict fields' := by
  refine (ascending_restrict ascending).ext (ascending_restrict ascending') fun name => ?_
  rw [get?_restrict, get?_restrict]
  cases hname : schema.field? name with
  | none => rfl
  | some field =>
    obtain ⟨hm, rfl⟩ := mem_of_field? hname
    exact agree field hm

theorem firstMismatch_spec (h : schema.firstMismatch fields = some cause) :
    ∃ field v, schema.field? field.name = some field ∧ (field.name, v) ∈ fields ∧
      field.kind.decode v = .error cause := by
  induction fields with
  | nil => cases h
  | cons e rest ih =>
    obtain ⟨name, v⟩ := e
    have later (h : schema.firstMismatch rest = some cause) :
        ∃ field w, schema.field? field.name = some field ∧ (field.name, w) ∈ (name, v) :: rest ∧
          field.kind.decode w = .error cause := by
      obtain ⟨field, w, hfield, hm, hdecode⟩ := ih h
      exact ⟨field, w, hfield, List.mem_cons_of_mem _ hm, hdecode⟩
    rw [firstMismatch] at h
    split at h
    · exact later h
    · next field hfield =>
      split at h
      · next cause' hdecode =>
        cases h
        obtain ⟨-, rfl⟩ := mem_of_field? hfield
        exact ⟨field, v, hfield, List.mem_cons_self, hdecode⟩
      · exact later h

theorem holds_iff_of_agree
    (agree : ∀ field ∈ schema, fields.get? field.name = fields'.get? field.name) :
    schema.Holds fields record ↔ schema.Holds fields' record := by
  induction schema with
  | nil => exact Iff.rfl
  | cons field rest ih =>
    obtain ⟨x, record⟩ := record
    obtain ⟨hfirst, hrest⟩ := List.forall_mem_cons.mp agree
    exact and_congr ⟨fun h => h.of_agree hfirst, fun h => h.of_agree hfirst.symm⟩ (ih hrest)

/-- A map is read as the record that it holds in the declared fields. -/
theorem ofFields_eq_ok (ascending : NameMap.Ascending fields) :
    schema.ofFields fields = .ok record ↔ schema.Holds fields record := by
  have hholds : schema.Holds (schema.restrict fields) record ↔ schema.Holds fields record :=
    holds_iff_of_agree fun field hm => get?_restrict_of_mem hm
  rw [← hholds, ← collect_eq_ok, ofFields]
  cases hmismatch : schema.firstMismatch (schema.restrict fields) with
  | none => exact Iff.rfl
  | some cause =>
    obtain ⟨field, v, hfield, hm, hdecode⟩ := firstMismatch_spec hmismatch
    have hget := NameMap.get?_of_mem (ascending_restrict ascending) hm
    constructor
    · rintro ⟨⟩
    · intro hcollect
      obtain ⟨x, hx⟩ := exists_holds.mp ⟨record, collect_eq_ok.mp hcollect⟩ field
        (mem_of_field? hfield).1
      cases hx with
      | present held fits =>
        cases held.symm.trans hget
        cases hdecode.symm.trans fits
      | absent lacking _ => cases lacking.symm.trans hget

/-- A map that is refused fails in a declared field. -/
theorem fails_of_ofFields (ascending : NameMap.Ascending fields)
    (h : schema.ofFields fields = .error cause) : ∃ field ∈ schema, field.Fails fields cause := by
  rw [ofFields] at h
  split at h
  · next cause' hmismatch =>
    cases h
    obtain ⟨field, v, hfield, hm, hdecode⟩ := firstMismatch_spec hmismatch
    have hget := NameMap.get?_of_mem (ascending_restrict ascending) hm
    have hmem := (mem_of_field? hfield).1
    exact ⟨field, hmem, .unfit ((get?_restrict_of_mem hmem).symm.trans hget) hdecode⟩
  · obtain ⟨field, hm, hfails⟩ := fails_of_collect h
    exact ⟨field, hm, hfails.of_agree (get?_restrict_of_mem hm)⟩

end Schema
end Json

theorem WorkItem.ascending_of_parse {text : String} {item : WorkItem}
    (h : WorkItem.parse text = .ok item) : NameMap.Ascending item.record := by
  have read : ofBody text = .ok item := by
    rw [parse] at h
    cases hbody : ofBody text with
    | error fault =>
      rw [hbody] at h
      cases h
    | ok item' =>
      rw [hbody] at h
      cases h
      rfl
  exact (held_of_parse (parse_eq_ok.mpr (ofBody_eq_ok.mp read).body)).sorted.1

namespace Payload
variable {α : Type} [RecordPayload α] {item : WorkItem} {p : α} {failure : Failure}

/-- The failure of a work item that does not fit its type. -/
def unfit (α : Type) [RecordPayload α] (item : WorkItem) (cause : Mismatch) : Failure :=
  .nonRetriable s!"work item {item.id} does not decode as {typeName α}: {cause.message}"

theorem decode_of_record (item : WorkItem) : decode α item =
    (((RecordPayload.schema α).ofFields item.record).map RecordPayload.ofRecord).mapError
      (unfit α item) := rfl

theorem decode_eq_ok (ascending : NameMap.Ascending item.record) : decode α item = .ok p ↔
    ∃ record, RecordPayload.ofRecord record = p ∧
      (RecordPayload.schema α).Holds item.record record := by
  rw [decode_of_record]
  cases hfields : (RecordPayload.schema α).ofFields item.record with
  | error cause =>
    refine ⟨nofun, fun ⟨record, _, hholds⟩ => ?_⟩
    exact nomatch hfields.symm.trans ((Schema.ofFields_eq_ok ascending).mpr hholds)
  | ok record =>
    constructor
    · rintro ⟨⟩
      exact ⟨record, rfl, (Schema.ofFields_eq_ok ascending).mp hfields⟩
    · rintro ⟨record', rfl, hholds⟩
      cases hfields.symm.trans ((Schema.ofFields_eq_ok ascending).mpr hholds)
      rfl

theorem fails_of_decode (ascending : NameMap.Ascending item.record)
    (h : decode α item = .error failure) : ∃ field ∈ RecordPayload.schema α, ∃ cause,
      field.Fails item.record cause ∧ failure = unfit α item cause := by
  rw [decode_of_record] at h
  cases hfields : (RecordPayload.schema α).ofFields item.record with
  | error cause =>
    rw [hfields] at h
    cases h
    obtain ⟨field, hm, hfails⟩ := Schema.fails_of_ofFields ascending hfields
    exact ⟨field, hm, cause, hfails, rfl⟩
  | ok record =>
    rw [hfields] at h
    cases h

/-- Two work items of one identity whose records agree on the fields that a payload type declares
decode alike, to the same payload or with the same failure, whatever else their records hold. The
failure names a declared field that does not hold a value of its kind, or is missing and has nothing
to stand for it. The payload is what the record holds in the declared fields, with what stands for
the absence of those that it lacks, and there is one exactly if no declared field is in the way. -/
theorem decode_eq_of_agree {older newer : WorkItem} (same : older.id = newer.id)
    (ascending : NameMap.Ascending older.record) (ascending' : NameMap.Ascending newer.record)
    (agree : ∀ field ∈ RecordPayload.schema α,
      older.record.get? field.name = newer.record.get? field.name) :
    decode α older = decode α newer ∧
    (∀ failure, decode α older = .error failure → ∃ field ∈ RecordPayload.schema α, ∃ cause,
      field.Fails older.record cause ∧ failure = unfit α older cause) ∧
    (∀ p, decode α older = .ok p ↔ ∃ record, RecordPayload.ofRecord record = p ∧
      (RecordPayload.schema α).Holds older.record record) ∧
    ((∃ p, decode α older = .ok p) ↔
      ∀ field ∈ RecordPayload.schema α, ∃ x, field.Holds older.record x) := by
  refine ⟨?_, fun failure h => fails_of_decode ascending h, fun p => decode_eq_ok ascending, ?_⟩
  · rw [decode_of_record, decode_of_record, Schema.ofFields, Schema.ofFields,
      Schema.restrict_eq_of_agree ascending ascending' agree]
    unfold unfit
    rw [same]
  · rw [← Schema.exists_holds]
    constructor
    · rintro ⟨p, h⟩
      obtain ⟨record, -, hholds⟩ := (decode_eq_ok ascending).mp h
      exact ⟨record, hholds⟩
    · rintro ⟨record, hholds⟩
      exact ⟨_, (decode_eq_ok ascending).mpr ⟨record, rfl, hholds⟩⟩

/-- A job written before its options were declared, and the same job with fields that no handler
knows, are the job whose options are those that stand for absence. -/
theorem decode_eq_of_unknown_fields :
    let older : WorkItem := ⟨"a", "X", [("id", .string "a"), ("type", .string "X")]⟩
    let newer : WorkItem := ⟨"a", "X", [("added", .object [("nested", .array [.bool true])]),
      ("id", .string "a"), ("sleep", .null), ("type", .string "X")]⟩
    NameMap.Ascending older.record ∧ NameMap.Ascending newer.record ∧
      decode Job older = decode Job newer ∧ decode Job newer = .ok { id := "a" } := by
  intro older newer
  have same : older.id = newer.id := rfl
  have ascending : NameMap.Ascending older.record := ⟨by decide +kernel, trivial⟩
  have ascending' : NameMap.Ascending newer.record :=
    ⟨by decide +kernel, by decide +kernel, by decide +kernel, trivial⟩
  have agree : ∀ field ∈ RecordPayload.schema Job,
      older.record.get? field.name = newer.record.get? field.name := by
    intro field hm
    simp only [RecordPayload.schema, List.mem_cons, List.not_mem_nil, or_false] at hm
    rcases hm with rfl | rfl | rfl | rfl | rfl | rfl <;> rfl
  exact ⟨ascending, ascending', (decode_eq_of_agree same ascending ascending' agree).1, rfl⟩

end Payload
end WorkQueue
