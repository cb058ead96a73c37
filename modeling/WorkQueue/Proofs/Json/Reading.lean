import WorkQueue.Json.Reader
import WorkQueue.Json.Shape
import WorkQueue.Proofs.Binary64.Decimal
import WorkQueue.Proofs.NameMap

/-! # What documents hold

A value that is read has its fields in order and canonical numbers, and nests less deep than the
reader was allowed to go.
-/
namespace WorkQueue.Json
open WorkQueue.Text

/-- Whether what a reader gives, if it gives something, has a property. -/
def Yields {α : Type} (p : α → Prop) (r : Reading α) : Prop := ∀ a rest, r = .ok (a, rest) → p a

namespace Yields
variable {α β : Type} {p : α → Prop} {q : β → Prop}

theorem error (stop : Stop) : Yields p (.error stop) := nofun

theorem ok {a : α} (h : p a) (rest : List Char) : Yields p (.ok (a, rest)) := by
  rintro b rest ⟨⟩
  exact h

theorem map {r : Reading α} {f : α → β} (h : Yields p r) (hf : ∀ a, p a → q (f a)) :
    Yields q (r.map fun r => (f r.1, r.2)) := by
  intro b rest hb
  cases r with
  | error stop => cases hb
  | ok r =>
    cases hb
    exact hf r.1 (h r.1 r.2 rfl)

end Yields

/-! ## Numbers -/

theorem extendSignificand_le {value : Nat} (h : value ≤ limit64) (cs : List Char) :
    (extendSignificand value cs).1 ≤ limit64 := by
  induction cs generalizing value with
  | nil => exact h
  | cons c rest ih =>
    rw [extendSignificand]
    split
    · next hnext =>
      simp only [Bool.and_eq_true, decide_eq_true_eq] at hnext
      exact ih hnext.2
    · exact h

theorem readReal_yields (negative : Bool) (significand : Nat) (e : Int) (cs : List Char) :
    Yields Number.Canonical (readReal negative significand e cs) := by
  unfold readReal
  split
  · next x hx =>
    refine .ok ?_ cs
    exact Binary64.ofDecimal_canonical hx
  · exact .error _

theorem readExponentDigits_yields (negative down : Bool) (significand : Nat) (start : Int) (e : Nat)
    (cs : List Char) :
    Yields Number.Canonical (readExponentDigits negative down significand start e cs) := by
  induction cs generalizing e with
  | nil => exact readReal_yields _ _ _ _
  | cons c rest ih =>
    rw [readExponentDigits]
    split
    · split
      · exact ih _
      split
      · exact .error _
      · refine .ok ?_ _
        exact Binary64.canonical_zero negative
    · exact readReal_yields _ _ _ _

theorem readExponent_yields (negative : Bool) (significand : Nat) (start : Int) (cs : List Char) :
    Yields Number.Canonical (readExponent negative significand start cs) := by
  simp only [readExponent]
  split
  · exact .error _
  · split
    · exact readExponentDigits_yields _ _ _ _ _ _
    · exact .error _

theorem readScale_yields (negative : Bool) (significand : Nat) (e : Int) (cs : List Char) :
    Yields Number.Canonical (readScale negative significand e cs) := by
  unfold readScale
  split
  · split
    · exact readExponent_yields _ _ _ _
    · exact readReal_yields _ _ _ _
  · exact readReal_yields _ _ _ _

theorem readFraction_yields (negative : Bool) (significand : Nat) (e : Int) (cs : List Char) :
    Yields Number.Canonical (readFraction negative significand e cs) := by
  unfold readFraction
  split
  · split
    · exact .error _
    · exact readScale_yields _ _ _ _
  · split
    · exact readScale_yields _ _ _ _
    split
    · exact .error _
    · exact readScale_yields _ _ _ _

section
variable {significand : Nat} (fits : significand ≤ limit64)
include fits

theorem wholeNumber_yields (negative : Bool) (cs : List Char) :
    Yields Number.Canonical (wholeNumber negative significand cs) := by
  simp only [limit64] at fits
  unfold wholeNumber
  split
  · refine .ok ?_ cs
    exact ⟨by omega, by omega⟩
  split
  · refine .ok ?_ cs
    exact Binary64.canonical_zero true
  split
  · next h =>
    simp only [limit63] at h
    refine .ok ?_ cs
    exact ⟨by omega, by omega⟩
  · exact readReal_yields _ _ _ _

theorem readRest_yields (negative : Bool) (dropped : Nat) (cs : List Char) :
    Yields Number.Canonical (readRest negative significand dropped cs) := by
  unfold readRest
  split
  · exact readFraction_yields _ _ _ _
  split
  · split
    · exact readExponent_yields _ _ _ _
    split
    · exact wholeNumber_yields fits _ _
    · exact readReal_yields _ _ _ _
  · split
    · exact wholeNumber_yields fits _ _
    · exact readReal_yields _ _ _ _

end

theorem readNumber_yields (negative : Bool) (cs : List Char) :
    Yields Number.Canonical (readNumber negative cs) := by
  unfold readNumber
  split
  · exact .error _
  · next c rest =>
    split
    · split
      · split
        · exact .error _
        · exact readRest_yields (Nat.zero_le _) _ _ _
      · exact readRest_yields (Nat.zero_le _) _ _ _
    split
    · next hdigit =>
      have hfirst : digitValue c ≤ limit64 := by
        have hle : c.toNat ≤ 57 := (Char.isDigit_iff_toNat.mp hdigit).2
        simp only [digitValue, limit64]
        omega
      exact readRest_yields (extendSignificand_le hfirst rest) _ _ _
    · exact .error _

/-! ## Values -/

/-- Whether a value is one that a document of some depth can hold. -/
structure Value.Held (depth : Nat) (v : Value) : Prop where
  sorted : v.Sorted
  numbers : v.Numbers Number.Canonical
  shallow : v.depth < depth

namespace Value.Held
variable {depth : Nat}

theorem array (pos : 0 < depth) {items : List Value} (h : ∀ v ∈ items, v.Held depth) :
    (Value.array items).Held (depth + 1) := by
  refine ⟨itemsSorted_iff.mpr fun v hv => (h v hv).sorted,
    itemsNumbers_iff.mpr fun v hv => (h v hv).numbers, ?_⟩
  have hle : itemsDepth items ≤ depth - 1 :=
    itemsDepth_le_iff.mpr fun v hv => Nat.le_sub_one_of_lt (h v hv).shallow
  simp only [Value.depth]
  omega

theorem object (pos : 0 < depth) {fields : List (String × Value)} (h : ∀ e ∈ fields, e.2.Held depth) :
    (Value.object (NameMap.ofBindings fields)).Held (depth + 1) := by
  have hall : ∀ e ∈ NameMap.ofBindings fields, e.2.Held depth :=
    fun e he => h e (NameMap.mem_ofBindings he)
  refine ⟨⟨NameMap.ascending_ofBindings fields, fieldsSorted_iff.mpr fun e he => (hall e he).sorted⟩,
    fieldsNumbers_iff.mpr fun e he => (hall e he).numbers, ?_⟩
  have hle : fieldsDepth (NameMap.ofBindings fields) ≤ depth - 1 :=
    fieldsDepth_le_iff.mpr fun e he => Nat.le_sub_one_of_lt (hall e he).shallow
  simp only [Value.depth]
  omega

end Value.Held

theorem readScalar_yields {depth : Nat} (hd : 1 ≤ depth) (c : Char) (rest : List Char) :
    Yields (Value.Held depth) (readScalar c rest) := by
  have hword : ∀ (v : Value) (r : Except Stop (List Char)), v.Held depth →
      Yields (Value.Held depth) (r.map fun r => (v, r)) := by
    rintro v (stop | r) hv
    · exact .error stop
    · exact .ok hv r
  unfold readScalar
  split
  · exact hword .null _ ⟨trivial, trivial, hd⟩
  split
  · exact hword (.bool true) _ ⟨trivial, trivial, hd⟩
  split
  · exact hword (.bool false) _ ⟨trivial, trivial, hd⟩
  split
  · exact (readNumber_yields true rest).map fun n hn => ⟨trivial, hn, hd⟩
  split
  · exact (readNumber_yields false (c :: rest)).map fun n hn => ⟨trivial, hn, hd⟩
  split
  · have hany : Yields (fun _ => True) (readString rest) := fun _ _ _ => trivial
    exact hany.map fun s _ => ⟨trivial, trivial, hd⟩
  · exact .error _

mutual
theorem readValue_yields : ∀ (fuel depth : Nat) (cs : List Char), 1 ≤ depth →
    Yields (Value.Held depth) (readValue fuel depth cs)
  | 0, _, _, _ => .error _
  | fuel + 1, depth, cs, hd => by
    rw [readValue]
    split
    · exact .error _
    split
    · split
      · exact .error _
      · next hdepth =>
        obtain ⟨below, rfl⟩ : ∃ below, depth = below + 1 := ⟨depth - 1, by omega⟩
        exact (readItems_yields fuel below true _ (by omega)).map fun items h => .array (by omega) h
    split
    · split
      · exact .error _
      · next hdepth =>
        obtain ⟨below, rfl⟩ : ∃ below, depth = below + 1 := ⟨depth - 1, by omega⟩
        exact (readFields_yields fuel below true _ (by omega)).map
          (f := fun fields => Value.object (NameMap.ofBindings fields))
          fun fields h => .object (by omega) h
    · exact readScalar_yields hd _ _

theorem readItems_yields : ∀ (fuel depth : Nat) (first : Bool) (cs : List Char), 1 ≤ depth →
    Yields (fun items => ∀ v ∈ items, v.Held depth) (readItems fuel depth first cs)
  | 0, _, _, _, _ => .error _
  | fuel + 1, depth, first, cs, hd => by
    rw [readItems]
    split
    · exact .error _
    · exact .ok (List.forall_mem_nil _) _
    split
    · exact .error _
    · next hvalue =>
      have hitem := readValue_yields fuel depth _ hd _ _ hvalue
      exact (readItems_yields fuel depth false _ hd).map fun items h =>
        List.forall_mem_cons.mpr ⟨hitem, h⟩

theorem readFields_yields : ∀ (fuel depth : Nat) (first : Bool) (cs : List Char), 1 ≤ depth →
    Yields (fun fields => ∀ e ∈ fields, e.2.Held depth) (readFields fuel depth first cs)
  | 0, _, _, _, _ => .error _
  | fuel + 1, depth, first, cs, hd => by
    rw [readFields]
    split
    · exact .error _
    · exact .ok (List.forall_mem_nil _) _
    split
    · exact .error _
    split
    · exact .error _
    · next hvalue =>
      have hitem := readValue_yields fuel depth _ hd _ _ hvalue
      exact (readFields_yields fuel depth false _ hd).map fun fields h =>
        List.forall_mem_cons.mpr ⟨hitem, h⟩
end

/-- A document that is read holds canonical numbers and ordered objects and is not too deep. -/
theorem held_of_parse {text : String} {v : Value} (h : parse text = .ok v) :
    v.Held nestingLimit := by
  have hvalue := readValue_yields (2 * text.toList.length + 2) nestingLimit text.toList (by decide)
  unfold parse parseWithin readDocument at h
  split at h
  · cases h
  · next v' rest hread =>
    cases hend : readEnd rest with
    | error stop =>
      rw [hend] at h
      cases h
    | ok done =>
      rw [hend] at h
      cases h
      exact hvalue _ _ hread

end WorkQueue.Json
