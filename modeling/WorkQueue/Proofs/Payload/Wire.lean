import WorkQueue.Payload.Catalog
import WorkQueue.Proofs.Json.Document
import WorkQueue.Proofs.Json.Record
import WorkQueue.Proofs.WorkItem

/-! # Payloads on the wire

Encoding stamps the identity and the type over the fields of a payload, and the text of that record
is parsed back into the work item that it describes.
-/
namespace WorkQueue
open Json

/-! ## The stamped record -/

namespace Payload
variable {id typeName : String} {record : Fields}

theorem get?_stamp (id typeName : String) (record : Fields) (name : String) :
    (stamp id typeName record).get? name =
      if name = WorkItem.typeField then some (.string typeName)
      else if name = WorkItem.idField then some (.string id)
      else record.get? name := by
  simp only [stamp, NameMap.get?_insert]

theorem get?_stamp_id (id typeName : String) (record : Fields) :
    (stamp id typeName record).get? WorkItem.idField = some (.string id) := by
  have hne : WorkItem.idField ≠ WorkItem.typeField := by decide
  rw [get?_stamp, if_neg hne, if_pos rfl]

theorem get?_stamp_type (id typeName : String) (record : Fields) :
    (stamp id typeName record).get? WorkItem.typeField = some (.string typeName) := by
  rw [get?_stamp, if_pos rfl]

theorem ascending_stamp (id typeName : String) (h : NameMap.Ascending record) :
    NameMap.Ascending (stamp id typeName record) := h.insert.insert

/-- The values of a stamped record are strings or were in the record. -/
theorem mem_stamp {e : String × Value} (h : e ∈ stamp id typeName record) :
    (∃ s, e.2 = .string s) ∨ e ∈ record := by
  rcases NameMap.mem_insert h with rfl | h
  · exact .inl ⟨_, rfl⟩
  · rcases NameMap.mem_insert h with rfl | h
    · exact .inl ⟨_, rfl⟩
    · exact .inr h

theorem depth_stamp_le {n : Nat} (h : fieldsDepth record ≤ n) :
    fieldsDepth (stamp id typeName record) ≤ n := by
  rw [fieldsDepth_le_iff] at h ⊢
  intro e he
  rcases mem_stamp he with ⟨s, hs⟩ | he
  · rw [hs]
    exact Nat.zero_le n
  · exact h e he

theorem sorted_stamp (ascending : NameMap.Ascending record) (h : FieldsSorted record) :
    (Value.object (stamp id typeName record)).Sorted := by
  refine ⟨ascending_stamp id typeName ascending, ?_⟩
  rw [fieldsSorted_iff] at h ⊢
  intro e he
  rcases mem_stamp he with ⟨s, hs⟩ | he
  · rw [hs]
    trivial
  · exact h e he

theorem numbers_stamp {p : Number → Prop} (h : FieldsNumbers p record) :
    (Value.object (stamp id typeName record)).Numbers p := by
  change FieldsNumbers p _
  rw [fieldsNumbers_iff] at h ⊢
  intro e he
  rcases mem_stamp he with ⟨s, hs⟩ | he
  · rw [hs]
    trivial
  · exact h e he

end Payload

/-! ## Parsing what was encoded -/

theorem WorkItem.requiredText_of_empty {record : Fields} {name : String}
    (h : record.get? name = some (.string "")) :
    requiredText record name = .error (.fieldEmpty name) := by
  simp only [requiredText, h, ↓reduceIte]

theorem WorkItem.ofRecord_stamp {id typeName : String} {record : Fields}
    (hid : record.get? idField = some (.string id))
    (htype : record.get? typeField = some (.string typeName)) :
    Decides (id ≠ "" ∧ typeName ≠ "") (ofRecord record) ⟨id, typeName, record⟩ := by
  refine ⟨fun ⟨named, typed⟩ => ?_, fun h => ?_⟩
  · simp only [ofRecord, requiredText_eq_ok.mpr ⟨hid, named⟩, requiredText_eq_ok.mpr ⟨htype, typed⟩]
  · by_cases named : id = ""
    · rw [named] at hid
      exact ⟨.fieldEmpty idField, by simp only [ofRecord, requiredText_of_empty hid]⟩
    · rw [show typeName = "" from not_not.mp fun typed => h ⟨named, typed⟩] at htype
      refine ⟨.fieldEmpty typeField, ?_⟩
      simp only [ofRecord, requiredText_eq_ok.mpr ⟨hid, named⟩, requiredText_of_empty htype]

/-- The text of a stamped record is parsed, its numbers as they are read, exactly if neither the
identity nor the type name is empty and the record nests less deep than the reader goes. -/
theorem WorkItem.parse_stamp (id typeName : String) {record : Fields}
    (ascending : NameMap.Ascending record) (sorted : FieldsSorted record) {f : Number → Number}
    (numbers : FieldsNumbers (fun n => n.ReadsAs (f n)) record) :
    let stamped := Payload.stamp id typeName record
    Decides ((id ≠ "" ∧ typeName ≠ "") ∧ (Value.object stamped).depth < nestingLimit)
      (parse (Value.object stamped).render) ⟨id, typeName, fieldsMapNumbers f stamped⟩ := by
  intro stamped
  obtain ⟨accepts, refuses⟩ := parse_render (v := Value.object stamped)
    (Payload.sorted_stamp ascending sorted) (Payload.numbers_stamp numbers)
  have hmap : ∀ (name s : String), stamped.get? name = some (.string s) →
      NameMap.get? (fieldsMapNumbers f stamped) name = some (.string s) := by
    intro name s hs
    refine NameMap.get?_of_mem
      (ascending_fieldsMapNumbers (Payload.ascending_stamp id typeName ascending)) ?_
    rw [fieldsMapNumbers_eq_map]
    exact List.mem_map.mpr ⟨(name, .string s), NameMap.mem_of_get? hs, rfl⟩
  have hitem := WorkItem.ofRecord_stamp (hmap _ _ (Payload.get?_stamp_id id typeName record))
    (hmap _ _ (Payload.get?_stamp_type id typeName record))
  refine ⟨fun ⟨named, fits⟩ => ?_, fun h => ?_⟩
  · simp only [parse, ofBody, accepts fits, Value.mapNumbers, hitem.accepts named]
    rfl
  · by_cases fits : (Value.object stamped).depth < nestingLimit
    · obtain ⟨fault, hfault⟩ := hitem.refuses fun named => h ⟨named, fits⟩
      refine ⟨.malformed fault, ?_⟩
      simp only [parse, ofBody, accepts fits, Value.mapNumbers, hfault]
      rfl
    · obtain ⟨fault, hfault⟩ := refuses fits
      refine ⟨.malformed (.notJson fault), ?_⟩
      simp only [parse, ofBody, hfault]
      rfl

theorem Payload.toRecord_of_serialize {α : Type} [Payload α] {p : α}
    {fields : List (String × Value)} (h : serialize p = .ok (.object fields)) :
    toRecord p = .ok (stamp (Payload.id p) (typeName α) (NameMap.ofBindings fields)) := by
  simp only [toRecord, h]

theorem Payload.exists_of_toRecord {α : Type} [Payload α] {p : α} {record : Fields}
    (h : toRecord p = .ok record) : ∃ fields, serialize p = .ok (.object fields) ∧
      record = stamp (Payload.id p) (typeName α) (NameMap.ofBindings fields) := by
  unfold toRecord at h
  split at h
  · cases h
  · next fields hfields =>
    cases h
    exact ⟨fields, hfields, rfl⟩
  · cases h

theorem Payload.exists_of_encode {α : Type} [Payload α] {p : α} {wire : String}
    (h : encode p = .ok wire) :
    ∃ record, toRecord p = .ok record ∧ wire = (Value.object record).render := by
  unfold encode at h
  cases hrecord : toRecord p with
  | error failure =>
    rw [hrecord] at h
    cases h
  | ok record =>
    rw [hrecord] at h
    cases h
    exact ⟨record, rfl, rfl⟩

theorem Payload.encode_of_serialize {α : Type} [Payload α] {p : α} {fields : List (String × Value)}
    (h : serialize p = .ok (.object fields)) :
    encode p = .ok (Value.object
      (stamp (Payload.id p) (typeName α) (NameMap.ofBindings fields))).render := by
  rw [encode, toRecord_of_serialize h]
  rfl

/-! ## Payload types with a schema -/

/-- A payload type whose fields have distinct names, of which none is the type and one holds the
identity. -/
class LawfulRecordPayload (α : Type) [RecordPayload α] : Prop where
  distinct : ((RecordPayload.schema α).map Field.name).Nodup
  untyped : ∀ field ∈ RecordPayload.schema α, field.name ≠ WorkItem.typeField
  identified : ∀ p : α, NameMap.get?
    ((RecordPayload.schema α).encode (RecordPayload.toRecord p)) WorkItem.idField =
      some (.string (RecordPayload.id p))
  named : RecordPayload.typeName α ≠ ""

instance : LawfulRecordPayload TextItem := ⟨by decide, by decide, fun _ => rfl, by decide⟩

instance : LawfulRecordPayload BuildFlow := ⟨by decide, by decide, fun _ => rfl, by decide⟩

instance : LawfulRecordPayload SendInvoice := ⟨by decide, by decide, fun _ => rfl, by decide⟩

instance : LawfulRecordPayload ResizeImage := ⟨by decide, by decide, fun _ => rfl, by decide⟩

instance : LawfulRecordPayload Job := ⟨by decide, by decide, fun _ => rfl, by decide⟩

section
variable {α : Type} [RecordPayload α]

/-- The fields of a payload, by ascending name. -/
def RecordPayload.fields (p : α) : Fields :=
  NameMap.ofBindings ((RecordPayload.schema α).encode (RecordPayload.toRecord p))

/-- The fields of a payload are scalars, their numbers integers within 64 bits. -/
theorem RecordPayload.shape_fields (p : α) : fieldsDepth (fields p) ≤ 0 ∧
    FieldsSorted (fields p) ∧ FieldsNumbers Number.Integral (fields p) := by
  have hshape : ∀ e ∈ fields p, e.2.depth = 0 ∧ e.2.Sorted ∧ e.2.Numbers Number.Integral := by
    intro e he
    obtain ⟨field, -, x, rfl⟩ := Schema.mem_encode (NameMap.mem_ofBindings he)
    exact field.kind.encode_shape x
  refine ⟨fieldsDepth_le_iff.mpr fun e he => Nat.le_of_eq (hshape e he).1,
    fieldsSorted_iff.mpr fun e he => (hshape e he).2.1,
    fieldsNumbers_iff.mpr fun e he => (hshape e he).2.2⟩

variable [LawfulRecordPayload α]

theorem RecordPayload.get?_fields (p : α) (name : String) : (fields p).get? name =
    NameMap.get? ((schema α).encode (toRecord p)) name := by
  refine NameMap.get?_ofBindings ?_ name
  rw [Schema.names_encode]
  exact LawfulRecordPayload.distinct

/-- A stamped payload is decoded to what it was. -/
theorem RecordPayload.decode_stamp (p : α) {item : WorkItem}
    (h : item.record = Payload.stamp (id p) (typeName α) (fields p)) :
    Payload.decode α item = .ok p := by
  have hfields : (schema α).ofFields item.record = .ok (toRecord p) := by
    rw [h]
    refine Schema.ofFields_encode LawfulRecordPayload.distinct
      (Payload.ascending_stamp _ _ (NameMap.ascending_ofBindings _)) fun field hm => ?_
    rw [Payload.get?_stamp, if_neg (LawfulRecordPayload.untyped field hm)]
    split
    · next hid => rw [hid, LawfulRecordPayload.identified]
    · exact get?_fields p field.name
  have hvalue : Payload.deserialize item.body = .ok p := by
    change ((schema α).ofFields item.record).map ofRecord = .ok p
    rw [hfields]
    exact congrArg Except.ok (ofRecord_toRecord p)
  rw [Payload.decode, hvalue]
  rfl

end

/-! ## The round trip -/

/-- Whether a payload serializes to these fields, which nest no deeper than the reader goes and hold
integers for numbers. -/
structure Payload.WritesPlain {α : Type} [Payload α] (p : α) (fields : List (String × Value)) :
    Prop where
  serializes : serialize p = .ok (.object fields)
  distinct : ∀ name, (NameMap.ofBindings fields).get? name = NameMap.get? fields name
  sorted : FieldsSorted (NameMap.ofBindings fields)
  numbers : FieldsNumbers Number.Integral (NameMap.ofBindings fields)
  shallow : fieldsDepth (NameMap.ofBindings fields) ≤ 126

theorem Payload.WritesPlain.parse {α : Type} [Payload α] {p : α} {fields : List (String × Value)}
    (h : WritesPlain p fields) (named : Payload.id p ≠ "") (typed : typeName α ≠ "") :
    let record := stamp (Payload.id p) (typeName α) (NameMap.ofBindings fields)
    encode p = .ok (Value.object record).render ∧
      WorkItem.parse (Value.object record).render = .ok ⟨Payload.id p, typeName α, record⟩ := by
  intro record
  have hshallow : fieldsDepth record ≤ 126 := depth_stamp_le h.shallow
  have hnumbers : FieldsNumbers (fun n => n.ReadsAs n) (NameMap.ofBindings fields) :=
    FieldsNumbers.imp (fun _ hn => integral_readsAs hn) _ h.numbers
  have hparse := (WorkItem.parse_stamp _ _ (NameMap.ascending_ofBindings fields) h.sorted
    hnumbers).accepts ⟨⟨named, typed⟩, Nat.lt_succ_of_le (Nat.succ_le_succ hshallow)⟩
  have hsame : fieldsMapNumbers (fun n => n) record = record := fieldsMapNumbers_id record
  rw [hsame] at hparse
  exact ⟨encode_of_serialize h.serializes, hparse⟩

theorem RecordPayload.writesPlain {α : Type} [RecordPayload α] [LawfulRecordPayload α] (p : α) :
    Payload.WritesPlain p ((schema α).encode (toRecord p)) := by
  obtain ⟨hdepth, hsorted, hnumbers⟩ := shape_fields p
  exact ⟨rfl, get?_fields p, hsorted, hnumbers, Nat.le_trans hdepth (Nat.zero_le _)⟩

namespace AnyPayload

/-- Whether a payload is of a type with a schema, or a free form that is an object, holds integers
for numbers and nests no deeper than the reader goes. -/
def Plain : AnyPayload → Prop
  | ⟨.freeForm, form⟩ => ∃ fields, form.fields = .object fields ∧ form.fields.Sorted ∧
      form.fields.Numbers Number.Integral ∧ form.fields.depth ≤ 127
  | ⟨.unserializable, _⟩ => False
  | _ => True

theorem typeName_ne (kind : Kind) : kind.typeName ≠ "" := by
  cases kind <;> decide

theorem Plain.writes {p : AnyPayload} (plain : p.Plain) :
    ∃ fields, Payload.WritesPlain p.value fields := by
  obtain ⟨kind, value⟩ := p
  cases kind with
  | text => exact ⟨_, RecordPayload.writesPlain (α := TextItem) value⟩
  | buildFlow => exact ⟨_, RecordPayload.writesPlain (α := BuildFlow) value⟩
  | sendInvoice => exact ⟨_, RecordPayload.writesPlain (α := SendInvoice) value⟩
  | resizeImage => exact ⟨_, RecordPayload.writesPlain (α := ResizeImage) value⟩
  | job => exact ⟨_, RecordPayload.writesPlain (α := Job) value⟩
  | unserializable => exact plain.elim
  | freeForm =>
    obtain ⟨fields, hfields, hsorted, hnumbers, hdepth⟩ := plain
    rw [hfields] at hsorted hnumbers hdepth
    have hmap : NameMap.ofBindings fields = fields :=
      NameMap.ofBindings_of_ascending hsorted.1
    refine ⟨fields, congrArg Except.ok hfields, fun name => by rw [hmap], ?_, ?_, ?_⟩
    · rw [hmap]
      exact hsorted.2
    · rw [hmap]
      exact hnumbers
    · rw [hmap]
      exact Nat.le_of_succ_le_succ hdepth

/-- A stamped payload of a type with a schema is decoded to what it was. -/
theorem decode_stamp {p : AnyPayload} (schematic : p.kind ≠ .freeForm) (plain : p.Plain)
    {fields : List (String × Value)} (h : Payload.serialize p.value = .ok (.object fields))
    {item : WorkItem}
    (record : item.record = Payload.stamp p.id p.kind.typeName (NameMap.ofBindings fields)) :
    decode p.kind item = .ok p := by
  obtain ⟨kind, value⟩ := p
  cases kind with
  | freeForm => exact absurd rfl schematic
  | unserializable => exact plain.elim
  | text =>
    cases h
    exact congrArg (Except.map _) (RecordPayload.decode_stamp (α := TextItem) value record)
  | buildFlow =>
    cases h
    exact congrArg (Except.map _) (RecordPayload.decode_stamp (α := BuildFlow) value record)
  | sendInvoice =>
    cases h
    exact congrArg (Except.map _) (RecordPayload.decode_stamp (α := SendInvoice) value record)
  | resizeImage =>
    cases h
    exact congrArg (Except.map _) (RecordPayload.decode_stamp (α := ResizeImage) value record)
  | job =>
    cases h
    exact congrArg (Except.map _) (RecordPayload.decode_stamp (α := Job) value record)

/-- A payload of a type with a schema, or a free form that holds integers for numbers and nests no
deeper than the reader goes, is encoded if its identity is not empty, and parsed back with that
identity and its type. The parsed record holds what the payload was serialized to, the identity and
the type written over it; a payload of a type with a schema is decoded to what it was. -/
theorem wire_roundtrip (p : AnyPayload) (named : p.id ≠ "") (plain : p.Plain) :
    ∃ wire item fields, p.encode = .ok wire ∧ WorkItem.parse wire = .ok item ∧
      item.id = p.id ∧ item.workItemType = p.kind.typeName ∧
      Payload.serialize p.value = .ok (.object fields) ∧
      item.body = .object (Payload.stamp p.id p.kind.typeName (NameMap.ofBindings fields)) ∧
      (∀ name, item.record.get? name =
        if name = WorkItem.typeField then some (.string p.kind.typeName)
        else if name = WorkItem.idField then some (.string p.id)
        else NameMap.get? fields name) ∧
      (p.kind ≠ .freeForm → decode p.kind item = .ok p) := by
  obtain ⟨fields, writes⟩ := plain.writes
  obtain ⟨hencode, hparse⟩ := writes.parse named (typeName_ne p.kind)
  refine ⟨_, _, fields, hencode, hparse, rfl, rfl, writes.serializes, rfl, fun name => ?_,
    fun schematic => decode_stamp schematic plain writes.serializes rfl⟩
  rw [← writes.distinct]
  exact Payload.get?_stamp p.id p.kind.typeName _ name

/-- A form that brings a type of its own loses it to its type name and keeps the rest. -/
theorem wire_roundtrip_of_freeForm :
    let fields : Fields := [("list", .array [.number (.integer (-9223372036854775808)),
      .object [("", .string "\u0007\"\u00e9")]]), ("type", .bool true)]
    let p : AnyPayload := ⟨.freeForm, { id := "a\n", fields := .object fields }⟩
    p.id ≠ "" ∧ p.Plain ∧ ∃ wire item, p.encode = .ok wire ∧ WorkItem.parse wire = .ok item ∧
      item.id = "a\n" ∧ item.record.get? "type" = some (.string "FreeForm") ∧
      item.record.get? "list" = fields.get? "list" := by
  intro fields p
  have hnamed : p.id ≠ "" := by decide
  have hplain : p.Plain := by
    refine ⟨fields, rfl, ?_, ?_, by decide⟩
    · have hnames : "list" < "type" := by decide +kernel
      refine ⟨⟨hnames, trivial⟩, ?_⟩
      simp [fields, Value.Sorted, FieldsSorted, ItemsSorted, NameMap.Ascending]
    · simp [fields, Value.Numbers, FieldsNumbers, ItemsNumbers, Number.Integral, keepsInteger]
  obtain ⟨wire, item, fields', hencode, hparse, hid, -, hfields, -, hget, -⟩ :=
    wire_roundtrip p hnamed hplain
  cases hfields
  exact ⟨hnamed, hplain, wire, item, hencode, hparse, hid, hget "type", hget "list"⟩

end AnyPayload
end WorkQueue
