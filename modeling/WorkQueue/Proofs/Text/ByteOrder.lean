import Mathlib.Data.String.Basic

/-! # The order of bytes

Texts are compared character by character. In UTF-8 the first byte of a character says how many
follow it, and more follow the greater characters; so texts stand in the order of their bytes.
-/
namespace WorkQueue.Text

/-- The bytes of a text in UTF-8. -/
def bytes (s : String) : List UInt8 := s.toUTF8.data.toList

theorem bytes_eq_flatMap (s : String) : bytes s = s.toList.flatMap String.utf8EncodeChar := by
  rw [bytes, String.toUTF8, ← String.utf8Encode_toList, List.utf8Encode,
    List.toList_data_toByteArray]

/-! ## The bytes of a character -/

/-- How many bytes follow the first byte of a character. -/
def following (n : Nat) : Nat :=
  if n ≤ 0x7F then 0 else if n ≤ 0x7FF then 1 else if n ≤ 0xFFFF then 2 else 3

/-- The least first byte of a character that so many bytes follow. -/
def leadingMark : Nat → Nat
  | 0 => 0
  | 1 => 0xC0
  | 2 => 0xE0
  | _ => 0xF0

/-- The last digits of a number to the base 64, the number of them given, as bytes that follow. -/
def lowBytes : Nat → Nat → List UInt8
  | 0, _ => []
  | count + 1, n => UInt8.ofNat (n / 64 ^ count % 64 + 0x80) :: lowBytes count n

theorem toNat_lt (c : Char) : c.toNat < 0x110000 := by
  rcases c.valid with h | ⟨-, h⟩
  · exact Nat.lt_trans h (by decide)
  · exact h

theorem following_cases (n : Nat) :
    (following n = 0 ∧ n ≤ 0x7F) ∨ (following n = 1 ∧ 0x7F < n ∧ n ≤ 0x7FF) ∨
      (following n = 2 ∧ 0x7FF < n ∧ n ≤ 0xFFFF) ∨ (following n = 3 ∧ 0xFFFF < n) := by
  unfold following
  split
  · exact .inl ⟨rfl, by assumption⟩
  split
  · exact .inr (.inl ⟨rfl, by omega⟩)
  split
  · exact .inr (.inr (.inl ⟨rfl, by omega⟩))
  · exact .inr (.inr (.inr ⟨rfl, by omega⟩))

/-- The first byte of a character. -/
def firstByte (n : Nat) : Nat := n / 64 ^ following n + leadingMark (following n)

theorem firstByte_lt {n : Nat} (hn : n < 0x110000) : firstByte n < 256 := by
  unfold firstByte
  rcases following_cases n with ⟨h, hn⟩ | ⟨h, hn⟩ | ⟨h, hn⟩ | ⟨h, hn⟩ <;>
    simp only [h, leadingMark] <;> omega

theorem utf8EncodeChar_eq (c : Char) : String.utf8EncodeChar c =
    UInt8.ofNat (firstByte c.toNat) :: lowBytes (following c.toNat) c.toNat := by
  have hc := toNat_lt c
  have hval : c.val.toNat = c.toNat := rfl
  simp only [String.utf8EncodeChar, hval, firstByte]
  rcases following_cases c.toNat with ⟨h, hn⟩ | ⟨h, hlow, hn⟩ | ⟨h, hlow, hn⟩ | ⟨h, hlow⟩
  · rw [if_pos hn, h]
    simp [leadingMark, lowBytes]
  · rw [if_neg (by omega), if_pos hn, h, Nat.mod_eq_of_lt (a := c.toNat / 64) (by omega)]
    simp [leadingMark, lowBytes]
  · rw [if_neg (by omega), if_neg (by omega), if_pos hn, h,
      Nat.mod_eq_of_lt (a := c.toNat / 4096) (by omega)]
    simp [leadingMark, lowBytes]
  · rw [if_neg (by omega), if_neg (by omega), if_neg (by omega), h,
      Nat.mod_eq_of_lt (a := c.toNat / 262144) (by omega)]
    simp [leadingMark, lowBytes]

/-! ## Comparing them -/

theorem cons_lt_cons {a b : Nat} (hb : b < 256) {l l' : List UInt8}
    (h : a < b ∨ a = b ∧ l < l') : UInt8.ofNat a :: l < UInt8.ofNat b :: l' := by
  rw [List.cons_lt_cons_iff]
  rcases h with h | ⟨rfl, h⟩
  · left
    rw [UInt8.lt_iff_toNat_lt, UInt8.toNat_ofNat', UInt8.toNat_ofNat', Nat.mod_eq_of_lt hb,
      Nat.mod_eq_of_lt (h.trans hb)]
    exact h
  · exact .inr ⟨rfl, h⟩

/-- Numbers compare as their digits do, the last digits after all others. -/
theorem div_lt_or {m n : Nat} (base : Nat) (h : m < n) :
    m / base < n / base ∨ m / base = n / base ∧ m % base < n % base := by
  rcases Nat.lt_or_eq_of_le (Nat.div_le_div_right (c := base) h.le) with hlt | heq
  · exact .inl hlt
  · have hm := Nat.div_add_mod m base
    have hn := Nat.div_add_mod n base
    rw [heq] at hm
    exact .inr ⟨heq, by omega⟩

theorem lowBytes_lt {m n : Nat} (count : Nat) (h : m % 64 ^ count < n % 64 ^ count)
    (rest rest' : List UInt8) : lowBytes count m ++ rest < lowBytes count n ++ rest' := by
  induction count with
  | zero => simp [Nat.mod_one] at h
  | succ count ih =>
    have hdigit (k : Nat) : k % 64 ^ (count + 1) / 64 ^ count = k / 64 ^ count % 64 := by
      rw [Nat.pow_succ, Nat.mod_mul_right_div_self]
    have hlow (k : Nat) : k % 64 ^ (count + 1) % 64 ^ count = k % 64 ^ count :=
      Nat.mod_mod_of_dvd k (Nat.pow_dvd_pow 64 (Nat.le_succ count))
    have hsplit := div_lt_or (64 ^ count) h
    rw [hdigit, hdigit, hlow, hlow] at hsplit
    refine cons_lt_cons (by omega) ?_
    rcases hsplit with hlt | ⟨heq, hlt⟩
    · exact .inl (Nat.add_lt_add_right hlt 0x80)
    · exact .inr ⟨by rw [heq], ih hlt⟩

/-- Of two characters the lesser one has the lesser first byte, unless as many bytes follow both. -/
theorem firstByte_lt_or {m n : Nat} (h : m < n) (hn : n < 0x110000) :
    firstByte m < firstByte n ∨ following m = following n := by
  unfold firstByte
  refine or_iff_not_imp_right.mpr fun hne => ?_
  rcases following_cases m with ⟨hm, hm'⟩ | ⟨hm, hm'⟩ | ⟨hm, hm'⟩ | ⟨hm, hm'⟩ <;>
    rcases following_cases n with ⟨hk, hk'⟩ | ⟨hk, hk'⟩ | ⟨hk, hk'⟩ | ⟨hk, hk'⟩ <;>
    simp only [hm, hk, leadingMark, not_true_eq_false] at hne ⊢ <;> omega

theorem utf8EncodeChar_lt {c d : Char} (h : c < d) (rest rest' : List UInt8) :
    String.utf8EncodeChar c ++ rest < String.utf8EncodeChar d ++ rest' := by
  have hlt : c.toNat < d.toNat := h
  have hd := toNat_lt d
  rw [utf8EncodeChar_eq, utf8EncodeChar_eq]
  refine cons_lt_cons (firstByte_lt hd) ?_
  rcases firstByte_lt_or hlt hd with hfirst | hcount
  · exact .inl hfirst
  · simp only [firstByte, hcount]
    rcases div_lt_or (64 ^ following d.toNat) hlt with hlead | ⟨heq, hlow⟩
    · exact .inl (Nat.add_lt_add_right hlead _)
    · exact .inr ⟨by rw [heq], lowBytes_lt _ hlow rest rest'⟩

theorem flatMap_lt {l l' : List Char} (h : l < l') :
    l.flatMap String.utf8EncodeChar < l'.flatMap String.utf8EncodeChar := by
  induction l generalizing l' with
  | nil =>
    cases l' with
    | nil => exact absurd h (List.lt_irrefl _)
    | cons d l' =>
      rw [List.flatMap_nil, List.flatMap_cons, utf8EncodeChar_eq]
      exact List.nil_lt_cons _ _
  | cons c l ih =>
    cases l' with
    | nil => exact absurd h (List.not_lt_nil _)
    | cons d l' =>
      rw [List.flatMap_cons, List.flatMap_cons]
      rcases List.cons_lt_cons_iff.mp h with hlt | ⟨rfl, hrest⟩
      · exact utf8EncodeChar_lt hlt _ _
      · exact List.append_left_lt (ih hrest)

/-- Texts stand in the order of their bytes. -/
theorem lt_iff_bytes_lt (a b : String) : a < b ↔ bytes a < bytes b := by
  have forth {a b : String} (h : a < b) : bytes a < bytes b := by
    rw [bytes_eq_flatMap, bytes_eq_flatMap]
    exact flatMap_lt (String.lt_iff_toList_lt.mp h)
  refine ⟨forth, fun h => ?_⟩
  rcases lt_trichotomy a b with hlt | rfl | hgt
  · exact hlt
  · exact absurd h (List.lt_irrefl _)
  · exact absurd (forth hgt) (List.lt_asymm h)

end WorkQueue.Text
