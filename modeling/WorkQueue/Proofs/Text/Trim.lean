import Mathlib.Data.List.TakeWhile
import WorkQueue.Text.Blank

/-! # Trimming

Trimming takes the blanks off the two ends of a text and leaves none there. This says what is left
without a look at how it is found, and so blanks put around a text make no difference.
-/
namespace WorkQueue.Text
variable {cs : List Char}

/-- What is left of a text once it is trimmed: blanks alone are taken off its two ends, and none
is left there. -/
structure Trims (raw text : String) : Prop where
  around : ∃ before after : String, raw = before ++ text ++ after ∧
    (∀ c ∈ before.toList, isBlank c = true) ∧ ∀ c ∈ after.toList, isBlank c = true
  head : ∀ c ∈ text.toList.head?, isBlank c = false
  last : ∀ c ∈ text.toList.getLast?, isBlank c = false

/-! ## Blanks before a text -/

theorem dropWhile_blank_append {before : List Char} (blank : ∀ c ∈ before, isBlank c = true)
    (cs : List Char) : (before ++ cs).dropWhile isBlank = cs.dropWhile isBlank := by
  rw [List.dropWhile_append, List.dropWhile_eq_nil_iff.mpr blank, List.isEmpty_nil, if_pos rfl]

theorem dropWhile_blank_of_head (head : ∀ c ∈ cs.head?, isBlank c = false) :
    cs.dropWhile isBlank = cs := by
  cases cs with
  | nil => rfl
  | cons c rest => exact List.dropWhile_cons_of_neg (by simp [head c rfl])

theorem head_dropWhile_blank (cs : List Char) :
    ∀ c ∈ (cs.dropWhile isBlank).head?, isBlank c = false := by
  intro c hc
  have hstop := List.head?_dropWhile_not isBlank cs
  rw [hc] at hstop
  exact hstop

/-! ## Blanks at both ends -/

/-- Blanks around a text make no difference once it is trimmed. -/
theorem trimChars_padded {before after : List Char} (hbefore : ∀ c ∈ before, isBlank c = true)
    (hafter : ∀ c ∈ after, isBlank c = true) (cs : List Char) :
    trimChars (before ++ cs ++ after) = trimChars cs := by
  unfold trimChars
  rw [List.append_assoc, dropWhile_blank_append hbefore, List.dropWhile_append]
  split
  · next none =>
    rw [List.isEmpty_iff.mp none, List.dropWhile_eq_nil_iff.mpr hafter]
  · have reversed : ∀ c ∈ after.reverse, isBlank c = true := by simpa using hafter
    rw [List.reverse_append, dropWhile_blank_append reversed]

theorem trimChars_of_bare (head : ∀ c ∈ cs.head?, isBlank c = false)
    (last : ∀ c ∈ cs.getLast?, isBlank c = false) : trimChars cs = cs := by
  rw [trimChars, dropWhile_blank_of_head head,
    dropWhile_blank_of_head (by rwa [List.head?_reverse]), List.reverse_reverse]

/-- Once the blanks before it are gone, trimming takes blanks off the end of a text. -/
theorem trimChars_append_blanks (cs : List Char) :
    trimChars cs ++ ((cs.dropWhile isBlank).reverse.takeWhile isBlank).reverse =
      cs.dropWhile isBlank := by
  rw [trimChars, ← List.reverse_append, List.takeWhile_append_dropWhile, List.reverse_reverse]

theorem head_trimChars (cs : List Char) : ∀ c ∈ (trimChars cs).head?, isBlank c = false := by
  intro c hc
  refine head_dropWhile_blank cs c ?_
  rw [← trimChars_append_blanks, List.head?_append, hc]
  rfl

theorem last_trimChars (cs : List Char) : ∀ c ∈ (trimChars cs).getLast?, isBlank c = false := by
  intro c hc
  rw [trimChars, List.getLast?_reverse] at hc
  exact head_dropWhile_blank _ c hc

/-! ## Texts -/

theorem toList_trim (raw : String) : (trim raw).toList = trimChars raw.toList :=
  String.toList_ofList

theorem trim_padded {before after : String} (hbefore : ∀ c ∈ before.toList, isBlank c = true)
    (hafter : ∀ c ∈ after.toList, isBlank c = true) (raw : String) :
    trim (before ++ raw ++ after) = trim raw := by
  simp only [trim, String.toList_append, trimChars_padded hbefore hafter]

theorem trims_trim (raw : String) : Trims raw (trim raw) := by
  let before := raw.toList.takeWhile isBlank
  let after := ((raw.toList.dropWhile isBlank).reverse.takeWhile isBlank).reverse
  have hsplit : raw = String.ofList before ++ trim raw ++ String.ofList after := by
    apply String.toList_inj.mp
    rw [String.toList_append, String.toList_append, toList_trim, String.toList_ofList,
      String.toList_ofList, List.append_assoc, trimChars_append_blanks,
      List.takeWhile_append_dropWhile]
  refine ⟨⟨_, _, hsplit, fun c hc => ?_, fun c hc => ?_⟩, ?_, ?_⟩
  · rw [String.toList_ofList] at hc
    exact List.mem_takeWhile_imp hc
  · rw [String.toList_ofList, List.mem_reverse] at hc
    exact List.mem_takeWhile_imp hc
  · rw [toList_trim]
    exact head_trimChars raw.toList
  · rw [toList_trim]
    exact last_trimChars raw.toList

/-- What is left of a text is what trimming makes of it. -/
theorem trims_iff {raw text : String} : Trims raw text ↔ trim raw = text := by
  refine ⟨fun h => ?_, fun same => same ▸ trims_trim raw⟩
  obtain ⟨⟨before, after, rfl, hbefore, hafter⟩, head, last⟩ := h
  rw [trim_padded hbefore hafter, trim, trimChars_of_bare head last, String.ofList_toList]

end WorkQueue.Text
