import WorkQueue.Json.Schema
import WorkQueue.Json.Shape
import WorkQueue.Proofs.NameMap

/-! # Records read back

A value that a field encodes is decoded to what it was, and a map that holds the fields of a record,
whatever else it holds, is decoded to that record.
-/
namespace WorkQueue.Json

namespace FieldKind
variable {kind : FieldKind}

theorem decode_encode (kind : FieldKind) (x : kind.Carrier) :
    kind.decode (kind.encode x) = .ok x := by
  cases kind with
  | text => rfl
  | flag => rfl
  | int64 =>
    have hleast : -((Text.limit63 : Int) + 1) ≤ Int64.toInt x := Int64.le_toInt x
    have hgreatest : Int64.toInt x ≤ Text.limit63 := Int.le_of_lt_add_one (Int64.toInt_lt x)
    simp only [decode, encode, Value.toInteger, hleast, hgreatest, and_self, ↓reduceIte, Except.map]
    exact congrArg Except.ok (Int64.ofInt_toInt x)
  | uint64 =>
    have hleast : (0 : Int) ≤ UInt64.toNat x := Int.natCast_nonneg _
    have hgreatest : (UInt64.toNat x : Int) ≤ Text.limit64 :=
      Int.ofNat_le.mpr (Nat.le_of_lt_succ (UInt64.toNat_lt x))
    simp only [decode, encode, Value.toInteger, hleast, hgreatest, and_self, ↓reduceIte, Except.map]
    exact congrArg Except.ok (UInt64.ofNat_toNat)
  | uint32 =>
    have hleast : (0 : Int) ≤ UInt32.toNat x := Int.natCast_nonneg _
    have hgreatest : (UInt32.toNat x : Int) ≤ Text.limit32 :=
      Int.ofNat_le.mpr (Nat.le_of_lt_succ (UInt32.toNat_lt x))
    simp only [decode, encode, Value.toInteger, hleast, hgreatest, and_self, ↓reduceIte, Except.map]
    exact congrArg Except.ok (UInt32.ofNat_toNat)
  | optionalText =>
    cases (x : Option String) <;> rfl

/-- A field is a scalar, and its number, if it is one, is an integer within 64 bits. -/
theorem encode_shape (kind : FieldKind) (x : kind.Carrier) :
    (kind.encode x).depth = 0 ∧ (kind.encode x).Sorted ∧
      (kind.encode x).Numbers Number.Integral := by
  cases kind with
  | text => exact ⟨rfl, trivial, trivial⟩
  | flag => exact ⟨rfl, trivial, trivial⟩
  | int64 =>
    have hleast := Int64.le_toInt x
    have hgreatest := Int64.toInt_lt x
    exact ⟨rfl, trivial, by omega, by omega⟩
  | uint64 =>
    have hgreatest := UInt64.toNat_lt x
    exact ⟨rfl, trivial, by omega, by omega⟩
  | uint32 =>
    have hgreatest := UInt32.toNat_lt x
    exact ⟨rfl, trivial, by omega, by omega⟩
  | optionalText => cases (x : Option String) <;> exact ⟨rfl, trivial, trivial⟩

end FieldKind

namespace Schema
variable {schema : Schema} {record : Record schema} {fields : Fields} {field : Field}

theorem encode_cons (field : Field) (schema : Schema) (x : field.kind.Carrier)
    (record : Record schema) :
    encode (field :: schema) (x, record) =
      (field.name, field.kind.encode x) :: schema.encode record := rfl

theorem names_encode (schema : Schema) (record : Record schema) :
    (schema.encode record).map Prod.fst = schema.map Field.name := by
  induction schema with
  | nil => rfl
  | cons field rest ih =>
    obtain ⟨x, record⟩ := record
    rw [encode_cons, List.map_cons, List.map_cons, ih]

theorem mem_encode {e : String × Value} (h : e ∈ schema.encode record) :
    ∃ field ∈ schema, ∃ x : field.kind.Carrier, e = (field.name, field.kind.encode x) := by
  induction schema with
  | nil => cases h
  | cons field rest ih =>
    obtain ⟨x, record⟩ := record
    rw [encode_cons] at h
    rcases List.mem_cons.mp h with rfl | h
    · exact ⟨field, List.mem_cons_self, x, rfl⟩
    · obtain ⟨field', hm, x', he⟩ := ih h
      exact ⟨field', List.mem_cons_of_mem _ hm, x', he⟩

theorem field?_of_mem (distinct : (schema.map Field.name).Nodup) (h : field ∈ schema) :
    schema.field? field.name = some field := by
  induction schema with
  | nil => cases h
  | cons first rest ih =>
    obtain ⟨hfirst, hrest⟩ := List.nodup_cons.mp distinct
    rw [field?, List.find?_cons]
    rcases List.mem_cons.mp h with rfl | hm
    · simp
    · have hne : (first.name == field.name) = false := by
        rw [beq_eq_false_iff_ne]
        intro heq
        exact hfirst (heq ▸ List.mem_map_of_mem hm)
      rw [hne]
      exact ih hrest hm

theorem firstMismatch_eq_none (h : ∀ e ∈ fields, ∀ field, schema.field? e.1 = some field →
    ∃ x : field.kind.Carrier, e.2 = field.kind.encode x) : schema.firstMismatch fields = none := by
  induction fields with
  | nil => rfl
  | cons e rest ih =>
    obtain ⟨name, v⟩ := e
    have hrest := ih fun e he => h e (List.mem_cons_of_mem _ he)
    rw [firstMismatch]
    cases hf : schema.field? name with
    | none => exact hrest
    | some field =>
      obtain ⟨x, hx⟩ := h (name, v) List.mem_cons_self field hf
      dsimp only at hx
      simp only [hx, FieldKind.decode_encode]
      exact hrest

theorem collect_encode (distinct : (schema.map Field.name).Nodup)
    (h : ∀ field ∈ schema, fields.get? field.name =
      NameMap.get? (schema.encode record) field.name) :
    schema.collect fields = .ok record := by
  induction schema with
  | nil => rfl
  | cons field rest ih =>
    obtain ⟨x, record⟩ := record
    obtain ⟨hfield, hrest⟩ := List.nodup_cons.mp distinct
    have hfirst : fields.get? field.name = some (field.kind.encode x) := by
      rw [h field List.mem_cons_self, encode_cons, NameMap.get?_cons, if_pos rfl]
    have hlater : collect rest fields = .ok record := by
      refine ih hrest fun other hm => ?_
      have hne : other.name ≠ field.name := fun heq => hfield (heq ▸ List.mem_map_of_mem hm)
      rw [h other (List.mem_cons_of_mem _ hm), encode_cons, NameMap.get?_cons, if_neg hne]
    simp only [collect, take, hfirst, FieldKind.decode_encode, hlater]
    rfl

/-- A map that holds the fields of a record is decoded to it. -/
theorem ofFields_encode (distinct : (schema.map Field.name).Nodup)
    (ascending : NameMap.Ascending fields)
    (h : ∀ field ∈ schema, fields.get? field.name =
      NameMap.get? (schema.encode record) field.name) :
    schema.ofFields fields = .ok record := by
  have hkept : ∀ field ∈ schema, (schema.restrict fields).get? field.name =
      fields.get? field.name := by
    intro field hm
    rw [restrict, NameMap.get?_filter fields (fun name => (schema.field? name).isSome),
      field?_of_mem distinct hm]
    rfl
  have hnone : schema.firstMismatch (schema.restrict fields) = none := by
    refine firstMismatch_eq_none fun e he field hf => ?_
    have hmem := (List.mem_filter.mp he).1
    have hfield : field ∈ schema := List.mem_of_find?_eq_some hf
    have hname : field.name = e.1 := by simpa using List.find?_some hf
    have hget := NameMap.get?_of_mem ascending (show (e.1, e.2) ∈ fields from hmem)
    rw [← hname, h field hfield] at hget
    obtain ⟨field', hm', x, heq⟩ := mem_encode (NameMap.mem_of_get? hget)
    obtain ⟨hnames, hvalues⟩ := Prod.mk.inj heq
    have hsame := field?_of_mem distinct hfield
    rw [hnames, field?_of_mem distinct hm'] at hsame
    cases hsame
    exact ⟨x, hvalues⟩
  rw [ofFields, hnone]
  exact collect_encode distinct fun field hm => (hkept field hm).trans (h field hm)

end Schema
end WorkQueue.Json
