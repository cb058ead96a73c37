import WorkQueue.Json.Shape
import WorkQueue.Proofs.Json.Token
import WorkQueue.Proofs.NameMap

/-! # Printed documents read back

The text of a value is read back as that value, with each number as its own text is read, exactly
if the value nests less deep than the reader may go.
-/
namespace WorkQueue

/-- A computation that comes to a result exactly if a condition holds. -/
structure Decides {ε α : Type} (condition : Prop) (outcome : Except ε α) (result : α) : Prop where
  accepts : condition → outcome = .ok result
  refuses : ¬ condition → ∃ fault, outcome = .error fault

namespace Decides
variable {ε α β : Type} {p q : Prop} {outcome : Except ε α} {result : α}

theorem of_eq (holds : p) (h : outcome = .ok result) : Decides p outcome result :=
  ⟨fun _ => h, fun hp => absurd holds hp⟩

theorem of_iff (h : Decides p outcome result) (hpq : p ↔ q) : Decides q outcome result :=
  ⟨fun hq => h.accepts (hpq.mpr hq), fun hq => h.refuses fun hp => hq (hpq.mp hp)⟩

theorem map (h : Decides p outcome result) (f : α → β) : Decides p (outcome.map f) (f result) := by
  refine ⟨fun hp => ?_, fun hp => ?_⟩
  · rw [h.accepts hp]
    rfl
  · obtain ⟨fault, hf⟩ := h.refuses hp
    exact ⟨fault, by rw [hf]; rfl⟩

theorem bind (h : Decides p outcome result) {next : α → Except ε β} {last : β}
    (hnext : Decides q (next result) last) : Decides (p ∧ q) (outcome.bind next) last := by
  refine ⟨fun ⟨hp, hq⟩ => ?_, fun hpq => ?_⟩
  · rw [h.accepts hp]
    exact hnext.accepts hq
  · by_cases hp : p
    · rw [h.accepts hp]
      exact hnext.refuses fun hq => hpq ⟨hp, hq⟩
    · obtain ⟨fault, hf⟩ := h.refuses hp
      exact ⟨fault, by rw [hf]; rfl⟩

theorem guard {c : Prop} [Decidable c] {fault : ε} (hc : c → ¬ p)
    (h : ¬ c → Decides p outcome result) :
    Decides p (if c then .error fault else outcome) result := by
  by_cases holds : c
  · rw [if_pos holds]
    exact ⟨fun hp => absurd hp (hc holds), fun _ => ⟨fault, rfl⟩⟩
  · rw [if_neg holds]
    exact h holds

end Decides

namespace Json
open WorkQueue.Text

/-! ## Scalars -/

theorem skipSpace_cons {c : Char} (h : isSpace c = false) (cs : List Char) :
    skipSpace (c :: cs) = c :: cs := by
  simp [skipSpace, h]

/-- A number whose text is read as another one, whatever comes after it in a document. -/
def Number.ReadsAs (n m : Number) : Prop :=
  ∃ c cs, n.chars = c :: cs ∧ (c = '-' ∨ c.isDigit = true) ∧
    ∀ rest, Ends rest → readScalar c (cs ++ rest) = .ok (.number m, rest)

theorem ne_of_isDigit {c : Char} (h : c.isDigit = true) :
    c ≠ 'n' ∧ c ≠ 't' ∧ c ≠ 'f' ∧ c ≠ '-' ∧ c ≠ '[' ∧ c ≠ ']' ∧ c ≠ '\x7b' ∧
      isSpace c = false := by
  refine ⟨?_, ?_, ?_, ?_, ?_, ?_, ?_, ?_⟩
  all_goals first
    | rintro rfl
      revert h
      decide
    | skip
  cases hs : isSpace c with
  | false => rfl
  | true =>
    simp only [isSpace, Bool.or_eq_true, decide_eq_true_eq] at hs
    rcases hs with ((rfl | rfl) | rfl) | rfl <;> revert h <;> decide

theorem readScalar_digit {c : Char} (h : c.isDigit = true) (rest : List Char) :
    readScalar c rest = (readNumber false (c :: rest)).map fun r => (.number r.1, r.2) := by
  obtain ⟨hn, ht, hf, hminus, -⟩ := ne_of_isDigit h
  simp [readScalar, hn, ht, hf, hminus, h]

theorem integral_readsAs {n : Number} (h : n.Integral) : n.ReadsAs n := by
  cases n with
  | real x => cases h
  | integer k =>
    obtain ⟨hleast, hgreatest⟩ := h
    cases k with
    | ofNat k =>
      have hk : k ≤ limit64 := Int.ofNat_le.mp hgreatest
      obtain ⟨c, cs, hchars, -⟩ := naturalChars_eq_cons k
      have hc : c.isDigit = true := isDigit_naturalChars (hchars ▸ List.mem_cons_self)
      refine ⟨c, cs, hchars, .inr hc, fun rest hr => ?_⟩
      rw [readScalar_digit hc, ← List.cons_append, ← hchars, readNumber_naturalChars hk false hr]
      rfl
    | negSucc k =>
      have hk : k + 1 ≤ limit63 + 1 := by
        simp only [limit63]
        omega
      have hfits : k + 1 ≤ limit64 := by
        simp only [limit63, limit64] at hk ⊢
        omega
      refine ⟨'-', naturalChars (k + 1), rfl, .inl rfl, fun rest hr => ?_⟩
      have hread := readNumber_naturalChars hfits true hr
      have hwhole : wholeNumber true (k + 1) rest = .ok (.integer (Int.negSucc k), rest) := by
        simp only [wholeNumber, hk, Nat.succ_ne_zero, ↓reduceIte, Bool.not_true, Bool.false_eq_true]
        rfl
      simp only [readScalar, Char.reduceEq, ↓reduceIte, hread, hwhole]
      rfl

/-- A value whose text begins so that neither a blank nor the end of a list is seen there. -/
theorem Value.chars_eq_cons {f : Number → Number} (v : Value)
    (numbers : v.Numbers fun n => n.ReadsAs (f n)) :
    ∃ c cs, v.chars = c :: cs ∧ isSpace c = false ∧ c ≠ ']' := by
  cases v with
  | null => exact ⟨_, _, rfl, rfl, by decide⟩
  | bool b => cases b <;> exact ⟨_, _, rfl, rfl, by decide⟩
  | number n =>
    obtain ⟨c, cs, hchars, hc | hc, -⟩ := numbers
    · subst hc
      exact ⟨'-', cs, hchars, rfl, by decide⟩
    · obtain ⟨-, -, -, -, -, hclosing, -, hspace⟩ := ne_of_isDigit hc
      exact ⟨c, cs, hchars, hspace, hclosing⟩
  | string s => exact ⟨_, _, rfl, rfl, by decide⟩
  | array items => exact ⟨_, _, rfl, rfl, by decide⟩
  | object fields => exact ⟨_, _, rfl, rfl, by decide⟩

/-! ## Items and fields -/

/-- The items that are left of an array, after its bracket or after an item. -/
def itemsFrom : Bool → List Value → List Char
  | true, items => itemsChars items
  | false, [] => []
  | false, v :: rest => ',' :: itemsChars (v :: rest)

/-- The fields that are left of an object, after its bracket or after a field. -/
def fieldsFrom : Bool → List (String × Value) → List Char
  | true, fields => fieldsChars fields
  | false, [] => []
  | false, f :: rest => ',' :: fieldsChars (f :: rest)

/-- What follows the quote that opens a name. -/
def afterQuote (name : String) (body : List Char) : List Char :=
  name.toList.flatMap escapeChar ++ '"' :: ':' :: body

theorem itemsChars_cons (v : Value) (rest : List Value) :
    itemsChars (v :: rest) = v.chars ++ itemsFrom false rest := by
  cases rest <;> simp [itemsChars, itemsFrom]

theorem fieldsChars_cons (name : String) (v : Value) (rest : List (String × Value)) :
    fieldsChars ((name, v) :: rest) =
      '"' :: afterQuote name (v.chars ++ fieldsFrom false rest) := by
  cases rest <;> simp [fieldsChars, fieldsFrom, afterQuote, stringChars]

theorem length_itemsFrom (items : List Value) :
    (itemsChars items).length ≤ (itemsFrom false items).length := by
  cases items with
  | nil => exact Nat.le_refl _
  | cons v rest => exact Nat.le_succ _

theorem length_fieldsFrom (fields : List (String × Value)) :
    (fieldsChars fields).length ≤ (fieldsFrom false fields).length := by
  cases fields with
  | nil => exact Nat.le_refl _
  | cons f rest => exact Nat.le_succ _

theorem ends_itemsFrom (items : List Value) (rest : List Char) :
    Ends (itemsFrom false items ++ ']' :: rest) := by
  cases items <;> rintro c ⟨⟩
  · exact .inr (.inl rfl)
  · exact .inl rfl

theorem ends_fieldsFrom (fields : List (String × Value)) (rest : List Char) :
    Ends (fieldsFrom false fields ++ '\x7d' :: rest) := by
  cases fields <;> rintro c ⟨⟩
  · exact .inr (.inr rfl)
  · exact .inl rfl

theorem nextItem_nil (first : Bool) (rest : List Char) :
    nextItem first (itemsFrom first [] ++ ']' :: rest) = .ok (.last rest) := by
  cases first <;> rfl

theorem nextField_nil (first : Bool) (rest : List Char) :
    nextField first (fieldsFrom first [] ++ '\x7d' :: rest) = .ok (.last rest) := by
  cases first <;> rfl

theorem nextItem_cons {f : Number → Number} {v : Value} (first : Bool) (items : List Value)
    (numbers : v.Numbers fun n => n.ReadsAs (f n)) (rest : List Char) :
    nextItem first (itemsFrom first (v :: items) ++ rest) =
      .ok (.more (v.chars ++ (itemsFrom false items ++ rest))) := by
  obtain ⟨c, cs, hchars, hspace, hclosing⟩ := v.chars_eq_cons numbers
  have hcomma : isSpace ',' = false := rfl
  have hstart : itemsChars (v :: items) ++ rest = c :: (cs ++ (itemsFrom false items ++ rest)) := by
    rw [itemsChars_cons, hchars, List.append_assoc]
    rfl
  cases first with
  | true =>
    rw [itemsFrom, hstart, hchars]
    simp [nextItem, skipSpace_cons hspace, hclosing]
  | false =>
    rw [itemsFrom, List.cons_append, hstart, hchars]
    simp [nextItem, skipSpace_cons hcomma, skipSpace_cons hspace, hclosing]

theorem nextField_cons (first : Bool) (name : String) (v : Value)
    (fields : List (String × Value)) (rest : List Char) :
    nextField first (fieldsFrom first ((name, v) :: fields) ++ rest) =
      .ok (.more (afterQuote name (v.chars ++ (fieldsFrom false fields ++ rest)))) := by
  have hcomma : isSpace ',' = false := rfl
  have hquote : isSpace '"' = false := rfl
  have hstart : fieldsChars ((name, v) :: fields) ++ rest =
      '"' :: afterQuote name (v.chars ++ (fieldsFrom false fields ++ rest)) := by
    simp [fieldsChars_cons, afterQuote]
  cases first with
  | true =>
    rw [fieldsFrom, hstart]
    simp [nextField, skipSpace_cons hquote]
  | false =>
    rw [fieldsFrom, List.cons_append, hstart]
    simp [nextField, skipSpace_cons hcomma, skipSpace_cons hquote]

theorem readName_afterQuote (name : String) (body : List Char) :
    readName (afterQuote name body) = .ok (name, body) := by
  have hcolon : isSpace ':' = false := rfl
  simp only [readName, afterQuote, readString_stringChars, readColon, skipSpace_cons hcolon,
    ↓reduceIte]

theorem readItems_more {fuel depth : Nat} {first : Bool} {cs start : List Char}
    (h : nextItem first cs = .ok (.more start)) :
    readItems (fuel + 1) depth first cs = (readValue fuel depth start).bind fun item =>
      (readItems fuel depth false item.2).map fun r => (item.1 :: r.1, r.2) := by
  rw [readItems, h]
  dsimp only
  cases readValue fuel depth start <;> rfl

theorem readFields_more {fuel depth : Nat} {first : Bool} {cs body : List Char} {name : String}
    (h : nextField first cs = .ok (.more (afterQuote name body))) :
    readFields (fuel + 1) depth first cs = (readValue fuel depth body).bind fun item =>
      (readFields fuel depth false item.2).map fun r => ((name, item.1) :: r.1, r.2) := by
  rw [readFields, h]
  dsimp only
  rw [readName_afterQuote]
  dsimp only
  cases readValue fuel depth body <;> rfl

/-! ## Values -/

theorem readValue_scalar {c : Char} {fuel depth : Nat} (hspace : isSpace c = false)
    (harray : c ≠ '[') (hobject : c ≠ '\x7b') (cs : List Char) :
    readValue (fuel + 1) depth (c :: cs) = readScalar c cs := by
  simp [readValue, skipSpace_cons hspace, harray, hobject]

theorem readValue_array (fuel depth : Nat) (cs : List Char) :
    readValue (fuel + 1) depth ('[' :: cs) =
      if depth ≤ 1 then .error (stopAfterByte .tooDeep ('[' :: cs))
      else (readItems fuel (depth - 1) true cs).map fun r => (.array r.1, r.2) := by
  have hspace : isSpace '[' = false := rfl
  simp [readValue, skipSpace_cons hspace]

theorem readValue_object (fuel depth : Nat) (cs : List Char) :
    readValue (fuel + 1) depth ('\x7b' :: cs) =
      if depth ≤ 1 then .error (stopAfterByte .tooDeep ('\x7b' :: cs))
      else (readFields fuel (depth - 1) true cs).map fun r =>
        (.object (NameMap.ofBindings r.1), r.2) := by
  have hspace : isSpace '\x7b' = false := rfl
  simp [readValue, skipSpace_cons hspace]

theorem ascending_fieldsMapNumbers {f : Number → Number} {fields : Fields}
    (h : NameMap.Ascending fields) : NameMap.Ascending (fieldsMapNumbers f fields) := by
  rw [NameMap.ascending_iff_pairwise] at h ⊢
  rw [fieldsMapNumbers_eq_map]
  exact List.pairwise_map.mpr h

mutual
theorem readValue_chars (f : Number → Number) : ∀ (v : Value), v.Sorted →
    (v.Numbers fun n => n.ReadsAs (f n)) → ∀ (fuel depth : Nat) (rest : List Char),
    2 * v.chars.length ≤ fuel → 1 ≤ depth → Ends rest →
    Decides (v.depth < depth) (readValue fuel depth (v.chars ++ rest)) (v.mapNumbers f, rest)
  | v, sorted, numbers, 0, depth, rest, enough, hd, hr => by
    obtain ⟨c, cs, hchars, -⟩ := v.chars_eq_cons numbers
    simp [hchars] at enough
  | .null, _, _, fuel + 1, depth, rest, _, hd, _ =>
    .of_eq hd (readValue_scalar rfl (by decide) (by decide) _)
  | .bool b, _, _, fuel + 1, depth, rest, _, hd, _ => by
    cases b <;> exact .of_eq hd (readValue_scalar rfl (by decide) (by decide) _)
  | .string s, _, _, fuel + 1, depth, rest, _, hd, _ => by
    refine .of_eq hd ?_
    have hchars : (Value.string s).chars ++ rest =
        '"' :: (s.toList.flatMap escapeChar ++ '"' :: rest) := by
      simp [Value.chars, stringChars]
    rw [hchars, readValue_scalar rfl (by decide) (by decide)]
    simp [readScalar, readString_stringChars, Except.map, Value.mapNumbers]
  | .number n, _, numbers, fuel + 1, depth, rest, _, hd, hr => by
    obtain ⟨c, cs, hchars, hc, hread⟩ := numbers
    refine .of_eq hd ?_
    have hstart : isSpace c = false ∧ c ≠ '[' ∧ c ≠ '\x7b' := by
      rcases hc with rfl | hc
      · decide
      · obtain ⟨-, -, -, -, harray, -, hobject, hspace⟩ := ne_of_isDigit hc
        exact ⟨hspace, harray, hobject⟩
    rw [Value.chars, hchars, List.cons_append, readValue_scalar hstart.1 hstart.2.1 hstart.2.2,
      hread rest hr, Value.mapNumbers]
  | .array items, sorted, numbers, fuel + 1, depth, rest, enough, hd, _ => by
    have hchars : (Value.array items).chars ++ rest =
        '[' :: (itemsFrom true items ++ ']' :: rest) := by
      simp [Value.chars, itemsFrom]
    have hlength : (Value.array items).chars.length = (itemsChars items).length + 2 := by
      simp [Value.chars]
    rw [hchars, readValue_array]
    refine .guard (fun hshallow => ?_) fun hdeep => ?_
    · simp only [Value.depth]
      omega
    · have hitems := readItems_chars f items sorted numbers true fuel (depth - 1) rest
        (by omega) (by omega)
      exact (hitems.map _).of_iff (by simp only [Value.depth]; omega)
  | .object fields, sorted, numbers, fuel + 1, depth, rest, enough, hd, _ => by
    have hchars : (Value.object fields).chars ++ rest =
        '\x7b' :: (fieldsFrom true fields ++ '\x7d' :: rest) := by
      simp [Value.chars, fieldsFrom]
    have hlength : (Value.object fields).chars.length = (fieldsChars fields).length + 2 := by
      simp [Value.chars]
    rw [hchars, readValue_object]
    refine .guard (fun hshallow => ?_) fun hdeep => ?_
    · simp only [Value.depth]
      omega
    · have hfields := readFields_chars f fields sorted.2 numbers true fuel (depth - 1) rest
        (by omega) (by omega)
      have hmap := hfields.map fun r => (Value.object (NameMap.ofBindings r.1), r.2)
      rw [NameMap.ofBindings_of_ascending (ascending_fieldsMapNumbers sorted.1)] at hmap
      exact hmap.of_iff (by simp only [Value.depth]; omega)

theorem readItems_chars (f : Number → Number) : ∀ (items : List Value), ItemsSorted items →
    (ItemsNumbers (fun n => n.ReadsAs (f n)) items) → ∀ (first : Bool) (fuel depth : Nat)
    (rest : List Char), 2 * (itemsChars items).length + 1 ≤ fuel → 1 ≤ depth →
    Decides (itemsDepth items < depth)
      (readItems fuel depth first (itemsFrom first items ++ ']' :: rest))
      (itemsMapNumbers f items, rest)
  | _, _, _, _, 0, _, _, enough, _ => by omega
  | [], _, _, first, fuel + 1, depth, rest, _, hd => by
    refine .of_eq hd ?_
    rw [readItems, nextItem_nil]
    rfl
  | v :: items, sorted, numbers, first, fuel + 1, depth, rest, enough, hd => by
    obtain ⟨c, cs, hchars, -⟩ := v.chars_eq_cons numbers.1
    have hfirst : 1 ≤ v.chars.length := by simp [hchars]
    have hlater := length_itemsFrom items
    rw [itemsChars_cons, List.length_append] at enough
    rw [readItems_more (nextItem_cons first items numbers.1 _)]
    have hv := readValue_chars f v sorted.1 numbers.1 fuel depth _ (by omega) hd
      (ends_itemsFrom items rest)
    have hitems := readItems_chars f items sorted.2 numbers.2 false fuel depth rest (by omega) hd
    exact (hv.bind (hitems.map _)).of_iff (by simp only [itemsDepth]; omega)

theorem readFields_chars (f : Number → Number) : ∀ (fields : List (String × Value)),
    FieldsSorted fields → (FieldsNumbers (fun n => n.ReadsAs (f n)) fields) →
    ∀ (first : Bool) (fuel depth : Nat) (rest : List Char),
    2 * (fieldsChars fields).length + 1 ≤ fuel → 1 ≤ depth →
    Decides (fieldsDepth fields < depth)
      (readFields fuel depth first (fieldsFrom first fields ++ '\x7d' :: rest))
      (fieldsMapNumbers f fields, rest)
  | _, _, _, _, 0, _, _, enough, _ => by omega
  | [], _, _, first, fuel + 1, depth, rest, _, hd => by
    refine .of_eq hd ?_
    rw [readFields, nextField_nil]
    rfl
  | (name, v) :: fields, sorted, numbers, first, fuel + 1, depth, rest, enough, hd => by
    have hlater := length_fieldsFrom fields
    simp only [fieldsChars_cons, afterQuote, List.length_cons, List.length_append] at enough
    rw [readFields_more (nextField_cons first name v fields _)]
    have hv := readValue_chars f v sorted.1 numbers.1 fuel depth _ (by omega) hd
      (ends_fieldsFrom fields rest)
    have hfields := readFields_chars f fields sorted.2 numbers.2 false fuel depth rest (by omega)
      hd
    exact (hv.bind (hfields.map _)).of_iff (by simp only [fieldsDepth]; omega)
end

/-- The text of a value is a document that holds the value, with each number as it is read, unless
that nests too deep. -/
theorem parse_render {v : Value} (sorted : v.Sorted) {f : Number → Number}
    (numbers : v.Numbers fun n => n.ReadsAs (f n)) :
    Decides (v.depth < nestingLimit) (parse v.render) (v.mapNumbers f) := by
  have hread := readValue_chars f v sorted numbers (2 * v.chars.length + 2) nestingLimit []
    (Nat.le_add_right _ _) (by decide) ends_nil
  have hboth : Decides (v.depth < nestingLimit ∧ True)
      ((readValue (2 * v.chars.length + 2) nestingLimit (v.chars ++ [])).bind fun r =>
        (readEnd r.2).map fun _ => r.1) (v.mapNumbers f) := hread.bind (.of_eq trivial rfl)
  have hdocument : readDocument nestingLimit v.chars =
      (readValue (2 * v.chars.length + 2) nestingLimit (v.chars ++ [])).bind fun r =>
        (readEnd r.2).map fun _ => r.1 := by
    rw [List.append_nil, readDocument]
    cases readValue (2 * v.chars.length + 2) nestingLimit v.chars <;> rfl
  rw [← hdocument] at hboth
  obtain ⟨accepts, refuses⟩ := hboth.of_iff (iff_of_eq (and_true _))
  simp only [parse, parseWithin, Value.render, String.toList_ofList]
  refine ⟨fun fits => ?_, fun deep => ?_⟩
  · rw [accepts fits]
    rfl
  · obtain ⟨stop, hstop⟩ := refuses deep
    exact ⟨_, by rw [hstop]; rfl⟩

end Json
end WorkQueue
