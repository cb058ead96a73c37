import WorkQueue.Json.Grammar

/-! # Blanks, words and strings as they are written and read

Each reader takes what the grammar says and refuses everything else.
-/
namespace WorkQueue.Json

theorem map_eq_ok {ε α β : Type} {r : Except ε α} {f : α → β} {b : β} (h : r.map f = .ok b) :
    ∃ a, r = .ok a ∧ f a = b := by
  cases r with
  | error e => cases h
  | ok a =>
    cases h
    exact ⟨a, rfl, rfl⟩

theorem bind_eq_ok {ε α β : Type} {r : Except ε α} {f : α → Except ε β} {b : β}
    (h : r >>= f = .ok b) : ∃ a, r = .ok a ∧ f a = .ok b := by
  cases r with
  | error e => cases h
  | ok a => exact ⟨a, rfl, h⟩

/-! ## Blanks -/

namespace Blanks
variable {cs mid rest : List Char} {c : Char}

theorem refl (cs : List Char) : Blanks cs cs := ⟨[], nofun, rfl⟩

theorem trans (h : Blanks cs mid) (later : Blanks mid rest) : Blanks cs rest := by
  obtain ⟨bs, blank, rfl⟩ := h
  obtain ⟨more, blanks, rfl⟩ := later
  exact ⟨bs ++ more, List.forall_mem_append.mpr ⟨blank, blanks⟩, (List.append_assoc ..).symm⟩

theorem length_le (h : Blanks cs rest) : rest.length ≤ cs.length := by
  obtain ⟨bs, -, rfl⟩ := h
  rw [List.length_append]
  exact Nat.le_add_left _ _

theorem skipSpace (h : Blanks cs rest) : Json.skipSpace cs = Json.skipSpace rest := by
  obtain ⟨bs, blank, rfl⟩ := h
  exact List.dropWhile_append_of_pos blank

theorem skipSpace_cons (h : Blanks cs (c :: rest)) (bare : isSpace c = false) :
    Json.skipSpace cs = c :: rest := by
  rw [h.skipSpace, Json.skipSpace, List.dropWhile_cons_of_neg (by simp [bare])]

/-- A text that begins with a blank, or with what comes after the blanks. -/
theorem head (h : Blanks cs rest) : ∀ c ∈ cs.head?, isSpace c = true ∨ c ∈ rest.head? := by
  obtain ⟨bs, blank, rfl⟩ := h
  intro c hc
  cases bs with
  | nil => exact .inr hc
  | cons b bs =>
    cases hc
    exact .inl (blank c List.mem_cons_self)

end Blanks

theorem blanks_skipSpace (cs : List Char) : Blanks cs (skipSpace cs) :=
  ⟨cs.takeWhile isSpace, List.all_eq_true.mp List.all_takeWhile,
    List.takeWhile_append_dropWhile.symm⟩

theorem blanks_of_skipSpace {cs rest : List Char} (h : skipSpace cs = rest) : Blanks cs rest :=
  h ▸ blanks_skipSpace cs

theorem skipSpace_eq_nil {cs : List Char} : skipSpace cs = [] ↔ Blanks cs [] :=
  ⟨blanks_of_skipSpace, fun h => h.skipSpace⟩

/-! ## Words -/

theorem readWord_eq_ok {word cs rest : List Char} :
    readWord word cs = .ok rest ↔ cs = word ++ rest := by
  induction word generalizing cs with
  | nil => simp [readWord]
  | cons w word ih =>
    cases cs with
    | nil => simp [readWord]
    | cons c cs =>
      rw [readWord]
      split
      · next same => simp [ih, same]
      · next other => simp [other]

/-! ## Strings -/

theorem hexUnit_iff {cs rest : List Char} {n : Nat} :
    HexUnit cs n rest ↔ readUnit cs = .ok n ∧ 4 ≤ cs.length ∧ rest = cs.drop 4 := by
  constructor
  · rintro ⟨first, second, third, fourth⟩
    simp [readUnit, first, second, third, fourth]
  · rintro ⟨read, enough, rfl⟩
    unfold readUnit at read
    split at read
    · next a b c d rest =>
      split at read
      · next i j k l first second third fourth =>
        cases read
        exact .mk first second third fourth
      · cases read
    · split at read <;> cases read

theorem readUnit_enough {cs : List Char} {n : Nat} (h : readUnit cs = .ok n) : 4 ≤ cs.length := by
  unfold readUnit at h
  split at h
  · simp
  · split at h <;> cases h

theorem expectPair_eq_ok {wanted : Char} {cs rest : List Char} :
    expectPair wanted cs = .ok rest ↔ cs = wanted :: rest := by
  cases cs with
  | nil => simp [expectPair]
  | cons c cs =>
    rw [expectPair]
    split
    · next same => simp [same]
    · next other => simp [other]

/-- What follows the letter of a unit is the unit alone or a pair of surrogates. -/
theorem escape_of_readUnit {cs : List Char} {meant : Char} {taken : Nat}
    (h : readEscape ('u' :: cs) = .ok (meant, taken)) :
    Escape ('u' :: cs) meant (('u' :: cs).drop taken) ∧ taken ≤ ('u' :: cs).length := by
  simp only [readEscape, Char.reduceEq, decide_false, Bool.or_self, Bool.false_eq_true, ↓reduceIte]
    at h
  obtain ⟨high, readHigh, h⟩ := bind_eq_ok h
  have enough := readUnit_enough readHigh
  have first := hexUnit_iff.mpr ⟨readHigh, enough, rfl⟩
  simp only [Bool.and_eq_true, decide_eq_true_eq, Bool.or_eq_true] at h
  split at h
  · cases h
  split at h
  · next notTrail plain =>
    cases h
    exact ⟨.unit first (by omega), by simpa using enough⟩
  · next notTrail lead =>
    obtain ⟨afterSlash, slash, h⟩ := bind_eq_ok h
    obtain ⟨mid, mark, h⟩ := bind_eq_ok h
    obtain ⟨low, readLow, h⟩ := bind_eq_ok h
    have split : cs.drop 4 = '\\' :: 'u' :: mid := by
      rw [expectPair_eq_ok.mp slash, expectPair_eq_ok.mp mark]
    split at h
    · cases h
    · next trail =>
      obtain ⟨rfl, rfl⟩ := Prod.mk.inj (Except.ok.inj h)
      have more := readUnit_enough readLow
      have total := congrArg List.length split
      simp only [List.length_cons, List.length_drop] at total
      rw [split] at first
      have last : ('u' :: cs).drop 11 = mid.drop 4 := by
        rw [List.drop_succ_cons, ← List.drop_drop (i := 6) (j := 4), split]
        rfl
      rw [last]
      refine ⟨.pair first (hexUnit_iff.mpr ⟨readLow, more, rfl⟩) (by omega) (by omega), ?_⟩
      simp only [List.length_cons]
      omega

/-- What a reader of escapes takes is an escape, and what it leaves follows it. -/
theorem escape_of_readEscape {cs : List Char} {meant : Char} {taken : Nat}
    (h : readEscape cs = .ok (meant, taken)) :
    Escape cs meant (cs.drop taken) ∧ taken ≤ cs.length := by
  cases cs with
  | nil => cases h
  | cons letter cs =>
    by_cases unit : letter = 'u'
    · subst unit
      exact escape_of_readUnit h
    · have short : ∀ {c : Char}, (letter, c) ∈ shortEscapes →
          (.ok (c, 1) : Except Stop (Char × Nat)) = .ok (meant, taken) →
          Escape (letter :: cs) meant ((letter :: cs).drop taken) ∧
            taken ≤ (letter :: cs).length := by
        rintro c known ⟨⟩
        exact ⟨.short known, by simp⟩
      unfold readEscape at h
      dsimp only at h
      split at h
      · next same =>
        simp only [Bool.or_eq_true, decide_eq_true_eq] at same
        refine short ?_ h
        rcases same with (rfl | rfl) | rfl <;> decide
      split at h
      · next same => exact short (same ▸ by decide) h
      split at h
      · next same => exact short (same ▸ by decide) h
      split at h
      · next same => exact short (same ▸ by decide) h
      split at h
      · next same => exact short (same ▸ by decide) h
      split at h
      · next same => exact short (same ▸ by decide) h
      · cases h

theorem readEscape_of_escape {cs rest : List Char} {meant : Char} (h : Escape cs meant rest) :
    ∃ taken, readEscape cs = .ok (meant, taken) ∧ taken ≤ cs.length ∧ rest = cs.drop taken := by
  cases h with
  | @short letter meant rest known =>
    refine ⟨1, ?_, by simp, rfl⟩
    simp only [shortEscapes, List.mem_cons, Prod.mk.injEq, List.not_mem_nil, or_false] at known
    rcases known with ⟨rfl, rfl⟩ | ⟨rfl, rfl⟩ | ⟨rfl, rfl⟩ | ⟨rfl, rfl⟩ | ⟨rfl, rfl⟩ | ⟨rfl, rfl⟩ |
      ⟨rfl, rfl⟩ | ⟨rfl, rfl⟩ <;> rfl
  | @unit cs rest n unit plain =>
    obtain ⟨read, enough, rfl⟩ := hexUnit_iff.mp unit
    refine ⟨5, ?_, by simpa using enough, rfl⟩
    have notTrail : ¬ (0xDC00 ≤ n ∧ n ≤ 0xDFFF) := by omega
    have notLead : n < 0xD800 ∨ 0xDBFF < n := by omega
    simp [readEscape, read, notTrail, notLead, bind, Except.bind]
  | @pair cs mid rest high low first second leads trails =>
    obtain ⟨readHigh, enough, split⟩ := hexUnit_iff.mp first
    obtain ⟨readLow, more, rfl⟩ := hexUnit_iff.mp second
    refine ⟨11, ?_, ?_, ?_⟩
    · have notTrail : ¬ (0xDC00 ≤ high ∧ high ≤ 0xDFFF) := by omega
      have lead : ¬ (high < 0xD800 ∨ 0xDBFF < high) := by omega
      have trail : ¬ (low < 0xDC00 ∨ 0xDFFF < low) := by omega
      have slash : expectPair '\\' (cs.drop 4) = .ok ('u' :: mid) :=
        expectPair_eq_ok.mpr split.symm
      have mark : expectPair 'u' ('u' :: mid) = .ok mid := expectPair_eq_ok.mpr rfl
      simp [readEscape, readHigh, readLow, slash, mark, notTrail, lead, trail, bind, Except.bind]
    · have total := congrArg List.length split
      simp only [List.length_cons, List.length_drop] at total ⊢
      omega
    · rw [List.drop_succ_cons, ← List.drop_drop (i := 6) (j := 4), ← split]
      rfl

/-- Characters that an escape has taken are passed over. -/
theorem readChars_drop {taken : Nat} {cs : List Char} (h : taken ≤ cs.length) :
    readChars taken cs = readChars 0 (cs.drop taken) := by
  induction cs generalizing taken with
  | nil =>
    obtain rfl : taken = 0 := Nat.le_zero.mp h
    rfl
  | cons c cs ih =>
    cases taken with
    | zero => rfl
    | succ taken =>
      rw [readChars, List.drop_succ_cons]
      exact ih (Nat.le_of_succ_le_succ h)

theorem chars_of_readChars {taken : Nat} {cs s rest : List Char}
    (h : readChars taken cs = .ok (s, rest)) : Chars (cs.drop taken) s rest := by
  induction cs generalizing taken s with
  | nil => cases taken <;> cases h
  | cons c cs ih =>
    cases taken with
    | succ taken => exact ih h
    | zero =>
      rw [List.drop_zero]
      rw [readChars] at h
      split at h
      · next quote =>
        cases h
        exact quote ▸ .close
      split at h
      · next slash =>
        split at h
        · cases h
        · next meant taken read =>
          obtain ⟨⟨more, after⟩, later, ⟨⟩⟩ := map_eq_ok h
          exact slash ▸ .escape (escape_of_readEscape read).1 (ih later)
      split at h
      · cases h
      · next quote slash printable =>
        obtain ⟨⟨more, after⟩, later, ⟨⟩⟩ := map_eq_ok h
        exact .plain ⟨quote, slash, Nat.le_of_not_lt printable⟩ (ih later)

theorem readChars_of_chars {cs s rest : List Char} (h : Chars cs s rest) :
    readChars 0 cs = .ok (s, rest) := by
  induction h with
  | close => rfl
  | @plain c cs s rest bare later ih =>
    have printable : ¬ c.toNat < 0x20 := Nat.not_lt.mpr bare.2.2
    simp only [readChars, bare.1, bare.2.1, printable, ↓reduceIte, ih]
    rfl
  | @escape c cs mid s rest escape later ih =>
    obtain ⟨taken, read, enough, rfl⟩ := readEscape_of_escape escape
    simp only [readChars, Char.reduceEq, ↓reduceIte, read, readChars_drop enough, ih]
    rfl

theorem chars_iff {cs s rest : List Char} : Chars cs s rest ↔ readChars 0 cs = .ok (s, rest) :=
  ⟨readChars_of_chars, chars_of_readChars⟩

end WorkQueue.Json
