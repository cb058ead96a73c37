import WorkQueue.Json.Value

/-! # The shape of JSON values

How deep a value nests, what its numbers are, and whether its objects keep their fields in order.
-/
namespace WorkQueue.Json

/-- Whether a document can hold a number as it is. -/
def Number.Canonical : Number → Prop
  | .integer n => keepsInteger n
  | .real x => x.Canonical

/-- Whether a number is an integer that a document can hold. -/
def Number.Integral : Number → Prop
  | .integer n => keepsInteger n
  | .real _ => False

theorem Number.Integral.canonical {n : Number} (h : n.Integral) : n.Canonical := by
  cases n with
  | integer k => exact h
  | real x => exact h.elim

mutual
/-- How deep arrays and objects nest. -/
def Value.depth : Value → Nat
  | .array items => itemsDepth items + 1
  | .object fields => fieldsDepth fields + 1
  | _ => 0

def itemsDepth : List Value → Nat
  | [] => 0
  | v :: rest => max v.depth (itemsDepth rest)

def fieldsDepth : List (String × Value) → Nat
  | [] => 0
  | (_, v) :: rest => max v.depth (fieldsDepth rest)
end

mutual
/-- Whether every object has its fields by ascending name, each name once. -/
def Value.Sorted : Value → Prop
  | .array items => ItemsSorted items
  | .object fields => NameMap.Ascending fields ∧ FieldsSorted fields
  | _ => True

def ItemsSorted : List Value → Prop
  | [] => True
  | v :: rest => v.Sorted ∧ ItemsSorted rest

def FieldsSorted : List (String × Value) → Prop
  | [] => True
  | (_, v) :: rest => v.Sorted ∧ FieldsSorted rest
end

mutual
/-- Whether a property holds of every number. -/
def Value.Numbers (p : Number → Prop) : Value → Prop
  | .number n => p n
  | .array items => ItemsNumbers p items
  | .object fields => FieldsNumbers p fields
  | _ => True

def ItemsNumbers (p : Number → Prop) : List Value → Prop
  | [] => True
  | v :: rest => v.Numbers p ∧ ItemsNumbers p rest

def FieldsNumbers (p : Number → Prop) : List (String × Value) → Prop
  | [] => True
  | (_, v) :: rest => v.Numbers p ∧ FieldsNumbers p rest
end

mutual
/-- The value with each of its numbers replaced. -/
def Value.mapNumbers (f : Number → Number) : Value → Value
  | .number n => .number (f n)
  | .array items => .array (itemsMapNumbers f items)
  | .object fields => .object (fieldsMapNumbers f fields)
  | .null => .null
  | .bool b => .bool b
  | .string s => .string s

def itemsMapNumbers (f : Number → Number) : List Value → List Value
  | [] => []
  | v :: rest => v.mapNumbers f :: itemsMapNumbers f rest

def fieldsMapNumbers (f : Number → Number) : List (String × Value) → List (String × Value)
  | [] => []
  | (name, v) :: rest => (name, v.mapNumbers f) :: fieldsMapNumbers f rest
end

/-! ## Items and fields one by one -/

section
variable {items : List Value} {fields : List (String × Value)} {p : Number → Prop}
  {f : Number → Number}

theorem itemsDepth_le_iff {n : Nat} : itemsDepth items ≤ n ↔ ∀ v ∈ items, v.depth ≤ n := by
  induction items with
  | nil => simp [itemsDepth]
  | cons v rest ih => rw [itemsDepth, Nat.max_le, ih, List.forall_mem_cons]

theorem itemsSorted_iff : ItemsSorted items ↔ ∀ v ∈ items, v.Sorted := by
  induction items with
  | nil => simp [ItemsSorted]
  | cons v rest ih => simp [ItemsSorted, ih]

theorem itemsNumbers_iff : ItemsNumbers p items ↔ ∀ v ∈ items, v.Numbers p := by
  induction items with
  | nil => simp [ItemsNumbers]
  | cons v rest ih => simp [ItemsNumbers, ih]

theorem fieldsDepth_le_iff {n : Nat} : fieldsDepth fields ≤ n ↔ ∀ e ∈ fields, e.2.depth ≤ n := by
  induction fields with
  | nil => simp [fieldsDepth]
  | cons e rest ih => rw [fieldsDepth, Nat.max_le, ih, List.forall_mem_cons]

theorem fieldsSorted_iff : FieldsSorted fields ↔ ∀ e ∈ fields, e.2.Sorted := by
  induction fields with
  | nil => simp [FieldsSorted]
  | cons e rest ih => simp [FieldsSorted, ih]

theorem fieldsNumbers_iff : FieldsNumbers p fields ↔ ∀ e ∈ fields, e.2.Numbers p := by
  induction fields with
  | nil => simp [FieldsNumbers]
  | cons e rest ih => simp [FieldsNumbers, ih]

theorem fieldsMapNumbers_eq_map :
    fieldsMapNumbers f fields = fields.map fun e => (e.1, e.2.mapNumbers f) := by
  induction fields with
  | nil => rfl
  | cons e rest ih => simp [fieldsMapNumbers, ih]

end

/-! ## Numbers one by one -/

mutual
theorem Value.Numbers.imp {p q : Number → Prop} (h : ∀ n, p n → q n) :
    ∀ v : Value, v.Numbers p → v.Numbers q
  | .null, _ => trivial
  | .bool _, _ => trivial
  | .string _, _ => trivial
  | .number n, hn => h n hn
  | .array items, hi => ItemsNumbers.imp h items hi
  | .object fields, hf => FieldsNumbers.imp h fields hf

theorem ItemsNumbers.imp {p q : Number → Prop} (h : ∀ n, p n → q n) :
    ∀ items : List Value, ItemsNumbers p items → ItemsNumbers q items
  | [], _ => trivial
  | v :: rest, ⟨hv, hrest⟩ => ⟨Value.Numbers.imp h v hv, ItemsNumbers.imp h rest hrest⟩

theorem FieldsNumbers.imp {p q : Number → Prop} (h : ∀ n, p n → q n) :
    ∀ fields : List (String × Value), FieldsNumbers p fields → FieldsNumbers q fields
  | [], _ => trivial
  | (_, v) :: rest, ⟨hv, hrest⟩ => ⟨Value.Numbers.imp h v hv, FieldsNumbers.imp h rest hrest⟩
end

mutual
theorem Value.mapNumbers_id : ∀ v : Value, v.mapNumbers id = v
  | .null => rfl
  | .bool _ => rfl
  | .string _ => rfl
  | .number _ => rfl
  | .array items => congrArg Value.array (itemsMapNumbers_id items)
  | .object fields => congrArg Value.object (fieldsMapNumbers_id fields)

theorem itemsMapNumbers_id : ∀ items : List Value, itemsMapNumbers id items = items
  | [] => rfl
  | v :: rest => by rw [itemsMapNumbers, Value.mapNumbers_id v, itemsMapNumbers_id rest]

theorem fieldsMapNumbers_id : ∀ fields : List (String × Value), fieldsMapNumbers id fields = fields
  | [] => rfl
  | (_, v) :: rest => by rw [fieldsMapNumbers, Value.mapNumbers_id v, fieldsMapNumbers_id rest]
end

end WorkQueue.Json
