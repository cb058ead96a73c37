import WorkQueue.Json.Printer
import WorkQueue.Json.Reader

/-! # Printed strings and integers read back

Every character stands in a string so that the reader finds it again, and the digits of an integer
are read to their end and not beyond, whatever follows a value in a document.
-/
namespace WorkQueue.Json
open WorkQueue.Text

/-! ## Strings -/

theorem hexValue_hexDigit : ∀ n, n < 16 → hexValue (hexDigit n) = some n := by
  decide

theorem readUnit_hexDigits {n : Nat} (h : n < 256) (rest : List Char) :
    readUnit ('0' :: '0' :: hexDigit (n / 16) :: hexDigit (n % 16) :: rest) = .ok n := by
  have hzero : hexValue '0' = some 0 := by decide
  have hhigh := hexValue_hexDigit (n / 16) (by omega)
  have hlow := hexValue_hexDigit (n % 16) (by omega)
  simp only [readUnit, hzero, hhigh, hlow, Except.ok.injEq]
  omega

/-- A character whose escape is understood is read from it. -/
theorem readChars_of_escape {c : Char} (cs : List Char)
    (h : ∀ rest, readEscape (cs ++ rest) = .ok (c, cs.length)) (rest : List Char) :
    readChars 0 ('\\' :: (cs ++ rest)) = (readChars 0 rest).map fun r => (c :: r.1, r.2) := by
  have hskip : ∀ cs : List Char, readChars cs.length (cs ++ rest) = readChars 0 rest := by
    intro cs
    induction cs with
    | nil => rfl
    | cons d cs ih => exact ih
  simp only [readChars, h rest, hskip, Char.reduceEq, ↓reduceIte]

theorem readChars_escapeChar (c : Char) (rest : List Char) :
    readChars 0 (escapeChar c ++ rest) = (readChars 0 rest).map fun r => (c :: r.1, r.2) := by
  unfold escapeChar
  split
  · next h => exact h ▸ readChars_of_escape ['"'] (fun rest => rfl) rest
  split
  · next h => exact h ▸ readChars_of_escape ['\\'] (fun rest => rfl) rest
  split
  · next h => exact h ▸ readChars_of_escape ['b'] (fun rest => rfl) rest
  split
  · next h => exact h ▸ readChars_of_escape ['f'] (fun rest => rfl) rest
  split
  · next h => exact h ▸ readChars_of_escape ['n'] (fun rest => rfl) rest
  split
  · next h => exact h ▸ readChars_of_escape ['r'] (fun rest => rfl) rest
  split
  · next h => exact h ▸ readChars_of_escape ['t'] (fun rest => rfl) rest
  split
  · next h =>
    refine readChars_of_escape ['u', '0', '0', hexDigit (c.toNat / 16),
      hexDigit (c.toNat % 16)] (fun rest => ?_) rest
    have hunit := readUnit_hexDigits (n := c.toNat) (by omega) rest
    have hlow : ¬ (0xDC00 ≤ c.toNat ∧ c.toNat ≤ 0xDFFF) := by omega
    have hplain : c.toNat < 0xD800 ∨ 0xDBFF < c.toNat := by omega
    simp only [List.cons_append, List.nil_append, readEscape, Char.reduceEq, ↓reduceIte, hunit,
      Bool.or_eq_true, decide_eq_true_eq, Bool.and_eq_true, or_self, List.length_cons,
      List.length_nil]
    simp [hlow, hplain, bind, Except.bind]
  · next hquote hslash _ _ _ _ _ hcontrol =>
    simp only [List.singleton_append, readChars, hquote, hslash, hcontrol, ↓reduceIte]

theorem readString_stringChars (s : String) (rest : List Char) :
    readString (s.toList.flatMap escapeChar ++ '"' :: rest) = .ok (s, rest) := by
  have hchars : ∀ cs : List Char,
      readChars 0 (cs.flatMap escapeChar ++ '"' :: rest) = .ok (cs, rest) := by
    intro cs
    induction cs with
    | nil => rfl
    | cons c cs ih =>
      rw [List.flatMap_cons, List.append_assoc, readChars_escapeChar, ih]
      rfl
  rw [readString, hchars]
  simp [Except.map]

/-! ## Integers -/

/-- Whether a text can go on after a value: it is at its end, or a comma or a bracket comes. -/
def Ends (cs : List Char) : Prop := ∀ c ∈ cs.head?, c = ',' ∨ c = ']' ∨ c = '\x7d'

theorem ends_nil : Ends [] := nofun

theorem Ends.head {c : Char} {rest : List Char} (h : Ends (c :: rest)) :
    c.isDigit = false ∧ c ≠ '.' ∧ c ≠ 'e' ∧ c ≠ 'E' := by
  rcases h c rfl with rfl | rfl | rfl <;> decide

/-- Whether the digits before a text end where it begins. -/
def Stops (cs : List Char) : Prop := ∀ c ∈ cs.head?, c.isDigit = false

theorem stops_cons {c : Char} (h : c.isDigit = false) (cs : List Char) : Stops (c :: cs) := by
  rintro c ⟨⟩
  exact h

theorem Ends.stops {rest : List Char} (h : Ends rest) : Stops rest := by
  cases rest with
  | nil => exact nofun
  | cons c rest => exact stops_cons h.head.1 rest

theorem le_ofDigitChars (value : Nat) (digits : List Char) :
    value ≤ Nat.ofDigitChars 10 digits value := by
  rw [Nat.ofDigitChars_eq_ofDigitChars_zero]
  have hone := Nat.one_le_pow digits.length 10 (by omega)
  have hscaled := Nat.mul_le_mul_right value hone
  omega

/-- Digits whose value fits 64 bits are taken to their end. -/
theorem extendSignificand_digits {digits rest : List Char}
    (all : ∀ c ∈ digits, c.isDigit = true) (stop : Stops rest)
    {value : Nat} (fits : Nat.ofDigitChars 10 digits value ≤ limit64) :
    extendSignificand value (digits ++ rest) =
      (Nat.ofDigitChars 10 digits value, digits.length, rest) := by
  induction digits generalizing value with
  | nil =>
    cases rest with
    | nil => rfl
    | cons c rest => simp [extendSignificand, stop c rfl]
  | cons c digits ih =>
    have hc := all c List.mem_cons_self
    have hvalue : 10 * value + (c.toNat - '0'.toNat) = value * 10 + digitValue c := by
      rw [Nat.mul_comm]
      rfl
    rw [Nat.ofDigitChars_cons, hvalue] at fits ⊢
    have hstep := Nat.le_trans (le_ofDigitChars _ digits) fits
    have hrest := ih (fun d hd => all d (List.mem_cons_of_mem c hd)) fits
    simp only [List.cons_append, extendSignificand, hc, hstep, decide_true, Bool.and_self,
      ↓reduceIte, hrest, List.length_cons]

theorem isDigit_naturalChars {n : Nat} {c : Char} (h : c ∈ naturalChars n) : c.isDigit = true :=
  Nat.isDigit_of_mem_toDigits (by omega) (by omega) h

theorem ofDigitChars_naturalChars (n : Nat) : Nat.ofDigitChars 10 (naturalChars n) 0 = n :=
  Nat.ofDigitChars_toDigits (by omega) (by omega)

/-- The digits of a number: the first one is zero only if no other comes. -/
theorem naturalChars_eq_cons (n : Nat) :
    ∃ c digits, naturalChars n = c :: digits ∧ (c = '0' → digits = [] ∧ n = 0) := by
  induction n using Nat.strongRecOn with
  | ind n ih =>
    by_cases hn : n < 10
    · have honly : ∀ n < 10, n.digitChar = '0' → n = 0 := by decide
      exact ⟨n.digitChar, [], Nat.toDigits_of_lt_base hn, fun hzero => ⟨rfl, honly n hn hzero⟩⟩
    · obtain ⟨c, digits, hchars, hzero⟩ := ih (n / 10) (by omega)
      refine ⟨c, digits ++ [(n % 10).digitChar], ?_, fun h => ?_⟩
      · rw [naturalChars, Nat.toDigits_of_base_le (by omega) (by omega)]
        rw [naturalChars] at hchars
        rw [hchars]
        rfl
      · have hquotient := (hzero h).2
        omega

/-- The digits that a number begins with are taken to their end, if no zero stands before them. -/
theorem readNumber_digits {c : Char} {digits rest : List Char}
    (all : ∀ d ∈ c :: digits, d.isDigit = true) (zero : c = '0' → digits = [])
    (stop : Stops rest) (fits : Nat.ofDigitChars 10 (c :: digits) 0 ≤ limit64) (negative : Bool) :
    readNumber negative (c :: digits ++ rest) =
      readRest negative (Nat.ofDigitChars 10 (c :: digits) 0) 0 rest := by
  by_cases hc : c = '0'
  · obtain rfl := zero hc
    subst hc
    cases rest with
    | nil => rfl
    | cons d rest =>
      have hd := stop d rfl
      simp only [List.singleton_append, readNumber, ↓reduceIte, hd]
      rfl
  · have hdigit := all c List.mem_cons_self
    have hfirst : Nat.ofDigitChars 10 (c :: digits) 0 =
        Nat.ofDigitChars 10 digits (digitValue c) := by
      rw [Nat.ofDigitChars_cons, Nat.mul_zero, Nat.zero_add]
      rfl
    rw [hfirst] at fits ⊢
    have hrest := extendSignificand_digits (fun d hd => all d (List.mem_cons_of_mem c hd)) stop fits
    have hskip : skipDigits rest = (0, rest) := by
      cases rest with
      | nil => rfl
      | cons d rest => simp [skipDigits, stop d rfl]
    simp only [List.cons_append, readNumber, hc, hdigit, ↓reduceIte, hrest, hskip]

/-- A printed integer is read to its end. -/
theorem readNumber_naturalChars {n : Nat} (fits : n ≤ limit64) (negative : Bool)
    {rest : List Char} (hr : Ends rest) :
    readNumber negative (naturalChars n ++ rest) = wholeNumber negative n rest := by
  obtain ⟨c, digits, hchars, hzero⟩ := naturalChars_eq_cons n
  have hvalue := ofDigitChars_naturalChars n
  have hall : ∀ d ∈ c :: digits, d.isDigit = true := fun d hd => isDigit_naturalChars (hchars ▸ hd)
  rw [hchars] at hvalue ⊢
  rw [readNumber_digits hall (fun h => (hzero h).1) hr.stops (hvalue.symm ▸ fits), hvalue]
  cases rest with
  | nil => rfl
  | cons c rest =>
    obtain ⟨-, hpoint, he, hE⟩ := hr.head
    simp [readRest, hpoint, he, hE]

end WorkQueue.Json
