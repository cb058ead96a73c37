import WorkQueue.Json.Grammar
import WorkQueue.Proofs.Json.Token

/-! # Numbers as they are written and read

A reader takes the longest numeral that a text begins with, and gives its number if that is in
range.
-/
namespace WorkQueue.Json
open WorkQueue.Text

/-! ## Digits -/

section
variable {ds rest : List Char} (all : ∀ c ∈ ds, c.isDigit = true) (stop : Stops rest)
include all stop

theorem extendSignificand_append (value : Nat) :
    extendSignificand value (ds ++ rest) =
      ((extendSignificand value ds).1, (extendSignificand value ds).2.1,
        (extendSignificand value ds).2.2 ++ rest) := by
  induction ds generalizing value with
  | nil =>
    cases rest with
    | nil => rfl
    | cons c rest => simp [extendSignificand, stop c rfl]
  | cons c ds ih =>
    have later := ih fun d hd => all d (List.mem_cons_of_mem c hd)
    rw [List.cons_append, extendSignificand, extendSignificand]
    split
    · rw [later]
    · rfl

theorem skipDigits_append : skipDigits (ds ++ rest) = (ds.length, rest) := by
  induction ds with
  | nil =>
    cases rest with
    | nil => rfl
    | cons c rest => simp [skipDigits, stop c rfl]
  | cons c ds ih =>
    have later := ih fun d hd => all d (List.mem_cons_of_mem c hd)
    simp [skipDigits, all c List.mem_cons_self, later]

end

/-- The digits that a significand takes, and those that it leaves. -/
theorem extendSignificand_split (value : Nat) (ds : List Char) :
    ∃ taken, ds = taken ++ (extendSignificand value ds).2.2 ∧
      taken.length = (extendSignificand value ds).2.1 := by
  induction ds generalizing value with
  | nil => exact ⟨[], rfl, rfl⟩
  | cons c ds ih =>
    rw [extendSignificand]
    split
    · obtain ⟨taken, split, length⟩ := ih (value * 10 + digitValue c)
      exact ⟨c :: taken, congrArg (c :: ·) split, congrArg (· + 1) length⟩
    · exact ⟨[], rfl, rfl⟩

/-- The longest run of digits that a text begins with, and what follows it. -/
theorem exists_digits (cs : List Char) :
    ∃ ds rest, cs = ds ++ rest ∧ (∀ c ∈ ds, c.isDigit = true) ∧ Stops rest := by
  refine ⟨cs.takeWhile Char.isDigit, cs.dropWhile Char.isDigit,
    List.takeWhile_append_dropWhile.symm, List.all_eq_true.mp List.all_takeWhile, ?_⟩
  intro c hc
  have := List.head?_dropWhile_not Char.isDigit cs
  simp_all

theorem digitValue_le {c : Char} (h : c.isDigit = true) : digitValue c ≤ 9 := by
  have hle : c.toNat ≤ 57 := (Char.isDigit_iff_toNat.mp h).2
  simp only [digitValue]
  omega

/-! ## Exponents -/

/-- What a reader of numbers gives of a text: the number, if there is one, and what follows it. -/
def Gives (r : Reading Number) (n : Option Number) (rest : List Char) : Prop :=
  match n with
  | some n => r = .ok (n, rest)
  | none => ∃ stop, r = .error stop

namespace Gives
variable {r : Reading Number} {rest after : List Char} {n m : Option Number} {found : Number}

theorem of_ok (h : Gives r n rest) (ok : r = .ok (found, after)) :
    n = some found ∧ rest = after := by
  subst ok
  cases n with
  | none =>
    obtain ⟨stop, hstop⟩ := h
    cases hstop
  | some n =>
    cases h
    exact ⟨rfl, rfl⟩

end Gives

theorem readReal_gives (negative : Bool) (significand : Nat) (e : Int) (cs : List Char) :
    Gives (readReal negative significand e cs)
      ((Binary64.ofDecimal negative significand e).map .real) cs := by
  unfold readReal
  cases Binary64.ofDecimal negative significand e with
  | none => exact ⟨_, rfl⟩
  | some x => rfl

theorem readExponentDigits_gives (negative down : Bool) (significand : Nat) (start : Int)
    {ds rest : List Char} (all : ∀ c ∈ ds, c.isDigit = true) (stop : Stops rest) {e : Nat}
    (fits : e ≤ limit31) :
    Gives (readExponentDigits negative down significand start e (ds ++ rest))
      (Numeral.scaledBy? negative significand start down (Nat.ofDigitChars 10 ds e)) rest := by
  induction ds generalizing e with
  | nil =>
    rw [Numeral.scaledBy?, Nat.ofDigitChars_nil, if_pos fits]
    cases rest with
    | nil => exact readReal_gives ..
    | cons c rest =>
      rw [List.nil_append, readExponentDigits, if_neg (by simp [stop c rfl])]
      exact readReal_gives ..
  | cons c ds ih =>
    have hvalue : 10 * e + (c.toNat - '0'.toNat) = e * 10 + digitValue c := by
      rw [Nat.mul_comm]
      rfl
    have later : ∀ d ∈ ds, d.isDigit = true := fun d hd => all d (List.mem_cons_of_mem c hd)
    rw [List.cons_append, readExponentDigits, if_pos (all c List.mem_cons_self),
      Nat.ofDigitChars_cons, hvalue]
    by_cases small : e * 10 + digitValue c ≤ limit31
    · rw [if_pos small]
      exact ih later small
    · have large : ¬ Nat.ofDigitChars 10 ds (e * 10 + digitValue c) ≤ limit31 :=
        fun h => small (Nat.le_trans (le_ofDigitChars _ ds) h)
      rw [if_neg small, Numeral.scaledBy?, if_neg large]
      split
      · exact ⟨_, rfl⟩
      · rw [skipDigits_append later stop]
        rfl

theorem readExponent_gives (negative : Bool) (significand : Nat) (start : Int) {x : Exponent}
    (form : x.WellFormed) {rest : List Char} (stop : Stops rest) :
    Gives (readExponent negative significand start (x.sign.toList ++ x.digits ++ rest))
      (Numeral.scaled? negative significand start (some x)) rest := by
  obtain ⟨c, ds, hds⟩ := List.exists_cons_of_ne_nil form.digits.nonempty
  have all := form.digits.digits
  rw [hds] at all
  obtain ⟨digit, later⟩ := List.forall_mem_cons.mp all
  have small : digitValue c ≤ limit31 := Nat.le_trans (digitValue_le digit) (by decide)
  have value : Nat.ofDigitChars 10 x.digits 0 = Nat.ofDigitChars 10 ds (digitValue c) := by
    rw [hds, Nat.ofDigitChars_cons, Nat.mul_zero, Nat.zero_add]
    rfl
  have given := readExponentDigits_gives negative x.down significand start later stop small
  have plus : (c == '+') = false := beq_false_of_ne (by rintro rfl; cases digit)
  have minus : (c == '-') = false := beq_false_of_ne (by rintro rfl; cases digit)
  rw [Numeral.scaled?, value]
  cases hsign : x.sign with
  | none =>
    have down : x.down = false := by rw [Exponent.down, hsign]; rfl
    rw [down] at given ⊢
    simpa [readExponent, hds, plus, minus, digit] using given
  | some sign =>
    rcases form.sign sign hsign with rfl | rfl
    · have down : x.down = false := by rw [Exponent.down, hsign]; rfl
      rw [down] at given ⊢
      simpa [readExponent, hds, digit] using given
    · have down : x.down = true := by rw [Exponent.down, hsign]; rfl
      rw [down] at given ⊢
      simpa [readExponent, hds, digit] using given

/-- Whether an exponent, or the text after it, does not go on. -/
structure Numeral.Stands (p : Numeral) (rest : List Char) : Prop where
  stop : Stops rest
  noExponent : p.exponent = none → ∀ c ∈ rest.head?, c ≠ 'e' ∧ c ≠ 'E'
  noFraction : p.exponent = none → p.fraction = none → ∀ c ∈ rest.head?, c ≠ '.'

theorem stops_exponent {x : Option Exponent} (form : ∀ y ∈ x, y.WellFormed) {rest : List Char}
    (stop : Stops rest) : Stops (x.elim [] Exponent.chars ++ rest) := by
  cases x with
  | none => exact stop
  | some x =>
    refine stops_cons ?_ _
    rcases (form x rfl).letter with h | h <;> rw [h] <;> decide

theorem readScale_gives (negative : Bool) (significand : Nat) (e : Int) {x : Option Exponent}
    (form : ∀ y ∈ x, y.WellFormed) {rest : List Char} (stop : Stops rest)
    (ends : x = none → ∀ c ∈ rest.head?, c ≠ 'e' ∧ c ≠ 'E') :
    Gives (readScale negative significand e (x.elim [] Exponent.chars ++ rest))
      (Numeral.scaled? negative significand e x) rest := by
  cases x with
  | none =>
    cases rest with
    | nil => exact readReal_gives ..
    | cons c rest =>
      have hc := ends rfl c rfl
      rw [Option.elim_none, List.nil_append, readScale, if_neg (by simp [hc])]
      exact readReal_gives ..
  | some x =>
    have mark : (x.letter = 'e' || x.letter = 'E') = true := by
      simpa using (form x rfl).letter
    rw [Option.elim_some, Exponent.chars, List.cons_append, readScale, if_pos mark]
    exact readExponent_gives _ _ _ (form x rfl) stop

/-! ## Fractions -/

theorem readFraction_eq (negative : Bool) (significand : Nat) (e : Int) {ds rest : List Char}
    (digits : Digits ds) (stop : Stops rest) :
    readFraction negative significand e (ds ++ rest) =
      readScale negative (extendSignificand significand ds).1
        (e - (extendSignificand significand ds).2.1) rest := by
  obtain ⟨taken, split, length⟩ := extendSignificand_split significand ds
  rw [readFraction, extendSignificand_append digits.digits stop]
  generalize extendSignificand significand ds = all at split length
  obtain ⟨value, count, left⟩ := all
  dsimp only at split length ⊢
  cases left with
  | nil =>
    have some : count ≠ 0 := by
      rw [← length]
      rintro none
      rw [List.eq_nil_of_length_eq_zero none] at split
      exact digits.nonempty split
    cases rest with
    | nil => simp only [List.append_nil, if_neg some]
    | cons c rest => simp [stop c rfl, some]
  | cons c left =>
    have all : ∀ d ∈ c :: left, d.isDigit = true := fun d hd =>
      digits.digits d (split ▸ List.mem_append_right taken hd)
    obtain ⟨digit, later⟩ := List.forall_mem_cons.mp all
    simp only [List.cons_append, digit, ↓reduceIte, skipDigits_append later stop]

/-! ## Numerals -/

theorem readNumber_eq (negative : Bool) {ds rest : List Char} (digits : Digits ds)
    (zero : ds.head? = some '0' → ds = ['0']) (stop : Stops rest) :
    readNumber negative (ds ++ rest) = readRest negative (extendSignificand 0 ds).1
      (extendSignificand 0 ds).2.2.length rest := by
  obtain ⟨c, ds, rfl⟩ := List.exists_cons_of_ne_nil digits.nonempty
  obtain ⟨digit, later⟩ := List.forall_mem_cons.mp digits.digits
  by_cases hc : c = '0'
  · subst hc
    obtain rfl : ds = [] := List.tail_eq_of_cons_eq (zero rfl)
    cases rest with
    | nil => rfl
    | cons d rest =>
      simp only [List.singleton_append, readNumber, ↓reduceIte, stop d rfl]
      rfl
  · obtain ⟨taken, split, -⟩ := extendSignificand_split (digitValue c) ds
    have small : digitValue c ≤ limit64 := by
      have := digitValue_le digit
      simp only [limit64]
      omega
    have first : extendSignificand 0 (c :: ds) =
        ((extendSignificand (digitValue c) ds).1, (extendSignificand (digitValue c) ds).2.1 + 1,
          (extendSignificand (digitValue c) ds).2.2) := by
      simp [extendSignificand, digit, small]
    have left : ∀ d ∈ (extendSignificand (digitValue c) ds).2.2, d.isDigit = true := fun d hd =>
      later d (split ▸ List.mem_append_right taken hd)
    simp only [first, List.cons_append, readNumber, hc, digit, ↓reduceIte,
      extendSignificand_append later stop, skipDigits_append left stop]

theorem wholeNumber_gives (negative : Bool) (significand : Nat) (rest : List Char) :
    Gives (wholeNumber negative significand rest) (Numeral.whole? negative significand) rest := by
  unfold wholeNumber Numeral.whole?
  split
  · rfl
  split
  · rfl
  split
  · rfl
  · exact readReal_gives ..

/-- What a whole part comes to if neither a fraction nor an exponent follows. -/
theorem readRest_whole (negative : Bool) (significand dropped : Nat) {rest : List Char}
    (point : ∀ c ∈ rest.head?, c ≠ '.') (mark : ∀ c ∈ rest.head?, c ≠ 'e' ∧ c ≠ 'E') :
    readRest negative significand dropped rest =
      if dropped = 0 then wholeNumber negative significand rest
      else readReal negative significand dropped rest := by
  cases rest with
  | nil => rfl
  | cons c rest => simp [readRest, point c rfl, mark c rfl]

theorem readRest_exponent (negative : Bool) (significand dropped : Nat) {x : Exponent}
    (form : x.WellFormed) (rest : List Char) :
    readRest negative significand dropped (x.chars ++ rest) =
      readExponent negative significand dropped (x.sign.toList ++ x.digits ++ rest) := by
  have point : x.letter ≠ '.' := by
    rcases form.letter with h | h <;> rw [h] <;> decide
  have mark : (x.letter = 'e' || x.letter = 'E') = true := by simpa using form.letter
  simp [Exponent.chars, readRest, point, mark]

theorem readRest_gives {p : Numeral} (form : p.WellFormed) {rest : List Char}
    (stands : p.Stands rest) :
    Gives (readRest p.negative (extendSignificand 0 p.whole).1
      (extendSignificand 0 p.whole).2.2.length (p.tail ++ rest)) p.value? rest := by
  obtain ⟨negative, whole, fraction, exponent⟩ := p
  have stop := stops_exponent form.exponent stands.stop
  simp only [Numeral.value?, Numeral.tail]
  cases fraction with
  | some ds =>
    rw [Option.elim_some, List.cons_append, List.cons_append, List.append_assoc, readRest,
      readFraction_eq _ _ _ (form.fraction ds rfl) stop]
    exact readScale_gives _ _ _ form.exponent stands.stop stands.noExponent
  | none =>
    cases exponent with
    | none =>
      have whole := readRest_whole negative (extendSignificand 0 whole).1
        (extendSignificand 0 whole).2.2.length (stands.noFraction rfl rfl) (stands.noExponent rfl)
      simp only [Option.elim_none, List.nil_append, whole]
      split
      · exact wholeNumber_gives ..
      · exact readReal_gives ..
    | some x =>
      rw [Option.elim_none, List.nil_append, Option.elim_some,
        readRest_exponent _ _ _ (form.exponent x rfl)]
      exact readExponent_gives _ _ _ (form.exponent x rfl) stands.stop

/-- A numeral is read to its end. -/
theorem readNumber_gives {p : Numeral} (form : p.WellFormed) {rest : List Char}
    (stands : p.Stands rest) :
    Gives (readNumber p.negative (p.whole ++ p.tail ++ rest)) p.value? rest := by
  have stop : Stops (p.tail ++ rest) := by
    have last := stops_exponent form.exponent stands.stop
    rw [Numeral.tail]
    cases p.fraction with
    | none => exact last
    | some ds => exact stops_cons (by decide) _
  rw [List.append_assoc, readNumber_eq _ form.whole form.zero stop]
  exact readRest_gives form stands

/-! ## The numeral that a text begins with -/

theorem exists_digits_of_isDigit {c : Char} (digit : c.isDigit = true) (cs : List Char) :
    ∃ ds rest, c :: cs = ds ++ rest ∧ Digits ds ∧ Stops rest := by
  obtain ⟨ds, rest, split, all, stop⟩ := exists_digits (c :: cs)
  refine ⟨ds, rest, split, ⟨?_, all⟩, stop⟩
  rintro rfl
  have bare := stop c (by rw [List.nil_append] at split; rw [← split]; rfl)
  rw [digit] at bare
  cases bare

section
variable {negative : Bool} {significand dropped : Nat} {e : Int} {cs : List Char}
  {r : Number × List Char}

theorem exists_exponent {letter : Char} (mark : letter = 'e' ∨ letter = 'E')
    (h : readExponent negative significand e cs = .ok r) :
    ∃ x : Exponent, ∃ rest, x.WellFormed ∧ Stops rest ∧ letter :: cs = x.chars ++ rest := by
  obtain ⟨sign, c, after, plain, rfl, digit⟩ : ∃ sign : Option Char, ∃ c after,
      (∀ s ∈ sign, s = '+' ∨ s = '-') ∧ cs = sign.toList ++ c :: after ∧ c.isDigit = true := by
    unfold readExponent at h
    dsimp only at h
    split at h
    · cases h
    · next c after unsigned =>
      split at h
      · next digit =>
        split at unsigned
        · next marked =>
          cases cs with
          | nil => cases unsigned
          | cons s rest =>
            cases unsigned
            exact ⟨some s, c, after, by rintro s ⟨⟩; simpa using marked, rfl, digit⟩
        · exact ⟨none, c, after, by rintro s ⟨⟩, unsigned, digit⟩
      · cases h
  obtain ⟨ds, rest, split, digits, stop⟩ := exists_digits_of_isDigit digit after
  refine ⟨⟨letter, sign, ds⟩, rest, ⟨mark, plain, digits⟩, stop, ?_⟩
  rw [split, Exponent.chars, List.cons_append, List.append_assoc]

theorem exists_scale (stop : Stops cs) (h : readScale negative significand e cs = .ok r) :
    ∃ x : Option Exponent, ∃ rest, (∀ y ∈ x, y.WellFormed) ∧ Stops rest ∧
      (x = none → ∀ c ∈ rest.head?, c ≠ 'e' ∧ c ≠ 'E') ∧ cs = x.elim [] Exponent.chars ++ rest := by
  by_cases mark : ∃ c after, cs = c :: after ∧ (c = 'e' ∨ c = 'E')
  · obtain ⟨c, after, rfl, mark⟩ := mark
    rw [readScale, if_pos (by simpa using mark)] at h
    obtain ⟨x, rest, form, last, split⟩ := exists_exponent mark h
    exact ⟨some x, rest, by rintro y ⟨⟩; exact form, last, by rintro ⟨⟩, split⟩
  · refine ⟨none, cs, by rintro y ⟨⟩, stop, fun _ c hc => ?_, rfl⟩
    obtain ⟨after, rfl⟩ := List.head?_eq_some_iff.mp hc
    exact not_or.mp fun marked => mark ⟨c, after, rfl, marked⟩

theorem exists_fraction (h : readFraction negative significand e cs = .ok r) :
    ∃ ds rest, cs = ds ++ rest ∧ Digits ds ∧ Stops rest := by
  obtain ⟨ds, rest, rfl, all, bare⟩ := exists_digits cs
  refine ⟨ds, rest, rfl, ⟨?_, all⟩, bare⟩
  rintro rfl
  have none : extendSignificand significand rest = (significand, 0, rest) := by
    simpa [extendSignificand] using extendSignificand_append all bare significand
  rw [List.nil_append, readFraction, none] at h
  cases rest with
  | nil => cases h
  | cons c rest => simp [bare c rfl] at h

theorem exists_tail (stop : Stops cs) (h : readRest negative significand dropped cs = .ok r) :
    ∃ fraction exponent, ∃ rest, (∀ ds ∈ fraction, Digits ds) ∧ (∀ x ∈ exponent, x.WellFormed) ∧
      ∀ p : Numeral, p.fraction = fraction → p.exponent = exponent →
        p.Stands rest ∧ cs = p.tail ++ rest := by
  by_cases point : ∃ after, cs = '.' :: after
  · obtain ⟨after, rfl⟩ := point
    rw [readRest] at h
    obtain ⟨ds, tail, rfl, digits, bare⟩ := exists_fraction h
    rw [readFraction_eq _ _ _ digits bare] at h
    obtain ⟨x, rest, form, last, ends, rfl⟩ := exists_scale bare h
    refine ⟨some ds, x, rest, by rintro _ ⟨⟩; exact digits, form, ?_⟩
    rintro p hfraction rfl
    refine ⟨⟨last, ends, fun _ none => ?_⟩, ?_⟩
    · rw [hfraction] at none
      cases none
    · rw [Numeral.tail, hfraction]
      simp
  · by_cases mark : ∃ c after, cs = c :: after ∧ (c = 'e' ∨ c = 'E')
    · obtain ⟨c, after, rfl, mark⟩ := mark
      have exponent : readExponent negative significand dropped after = .ok r := by
        rcases mark with rfl | rfl <;> exact h
      obtain ⟨x, rest, form, last, split⟩ := exists_exponent mark exponent
      refine ⟨none, some x, rest, by rintro ds ⟨⟩, by rintro y ⟨⟩; exact form, ?_⟩
      rintro p hfraction hexponent
      refine ⟨⟨last, fun none => ?_, fun none => ?_⟩, ?_⟩
      · rw [hexponent] at none
        cases none
      · rw [hexponent] at none
        cases none
      · rw [Numeral.tail, hfraction, hexponent, split]
        rfl
    · refine ⟨none, none, cs, by rintro ds ⟨⟩, by rintro x ⟨⟩, ?_⟩
      rintro p hfraction hexponent
      refine ⟨⟨stop, fun _ c hc => ?_, fun _ _ c hc => ?_⟩, ?_⟩
      · obtain ⟨after, rfl⟩ := List.head?_eq_some_iff.mp hc
        exact not_or.mp fun marked => mark ⟨c, after, rfl, marked⟩
      · obtain ⟨after, rfl⟩ := List.head?_eq_some_iff.mp hc
        rintro rfl
        exact point ⟨after, rfl⟩
      · rw [Numeral.tail, hfraction, hexponent]
        rfl

theorem exists_whole (h : readNumber negative cs = .ok r) :
    ∃ ds rest, cs = ds ++ rest ∧ Digits ds ∧ (ds.head? = some '0' → ds = ['0']) ∧ Stops rest := by
  cases cs with
  | nil => cases h
  | cons c cs =>
    by_cases zero : c = '0'
    · subst zero
      have stop : Stops cs := by
        intro d hd
        obtain ⟨after, rfl⟩ := List.head?_eq_some_iff.mp hd
        cases digit : d.isDigit with
        | false => rfl
        | true => simp [readNumber, digit] at h
      exact ⟨['0'], cs, rfl, ⟨by simp, by simp⟩, fun _ => rfl, stop⟩
    · have digit : c.isDigit = true := by
        cases bare : c.isDigit with
        | true => rfl
        | false => simp [readNumber, zero, bare] at h
      obtain ⟨ds, rest, split, digits, stop⟩ := exists_digits_of_isDigit digit cs
      refine ⟨ds, rest, split, digits, fun leads => ?_, stop⟩
      obtain ⟨after, rfl⟩ := List.head?_eq_some_iff.mp leads
      exact absurd (List.head_eq_of_cons_eq split) zero

/-- What is read as a number is a numeral in range. -/
theorem exists_numeral {n : Number} {rest : List Char}
    (h : readNumber negative cs = .ok (n, rest)) :
    ∃ p : Numeral, p.WellFormed ∧ p.negative = negative ∧ p.value? = some n ∧
      cs = p.whole ++ p.tail ++ rest := by
  obtain ⟨whole, tail, rfl, digits, zero, stop⟩ := exists_whole h
  have hrest := h
  rw [readNumber_eq _ digits zero stop] at hrest
  obtain ⟨fraction, exponent, last, hfraction, hexponent, ends⟩ := exists_tail stop hrest
  obtain ⟨stands, rfl⟩ := ends ⟨negative, whole, fraction, exponent⟩ rfl rfl
  have form : Numeral.WellFormed ⟨negative, whole, fraction, exponent⟩ :=
    ⟨digits, zero, hfraction, hexponent⟩
  rw [← List.append_assoc] at h
  obtain ⟨value, rfl⟩ := (readNumber_gives form stands).of_ok h
  exact ⟨_, form, rfl, value, (List.append_assoc ..).symm⟩

end

end WorkQueue.Json
