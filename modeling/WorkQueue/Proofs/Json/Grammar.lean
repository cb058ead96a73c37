import WorkQueue.Proofs.Json.Document
import WorkQueue.Proofs.Json.Numeral
import WorkQueue.Proofs.Json.Quotation

/-! # The reader follows the grammar

What the reader takes as a value is spelled so in the text, and whatever a text spells is read. The
text after a value matters only where a number could go on.
-/
namespace WorkQueue.Json
open WorkQueue.Text

/-! ## Scalars -/

/-- Whether a number before a text is complete. -/
def Follows (rest : List Char) : Prop :=
  ∀ c ∈ rest.head?, c.isDigit = false ∧ c ≠ '.' ∧ c ≠ 'e' ∧ c ≠ 'E'

theorem Follows.stands {rest : List Char} (h : Follows rest) (p : Numeral) : p.Stands rest where
  stop c hc := (h c hc).1
  noExponent _ c hc := (h c hc).2.2
  noFraction _ _ c hc := (h c hc).2.1

theorem follows_of_blanks {cs rest : List Char} (h : Blanks cs rest)
    (closed : ∀ c ∈ rest.head?, c = ',' ∨ c = ']' ∨ c = '\x7d') : Follows cs := by
  intro c hc
  rcases h.head c hc with blank | next
  · simp only [isSpace, Bool.or_eq_true, decide_eq_true_eq] at blank
    rcases blank with ((rfl | rfl) | rfl) | rfl <;> decide
  · rcases closed c next with rfl | rfl | rfl <;> decide

section
variable {depth : Nat} {c : Char} {cs rest : List Char} {v : Value}

theorem spells_of_readWord {later : List Char} {meant : Value} (known : (c :: later, meant) ∈ words)
    (h : (readWord later cs).map (fun r => (meant, r)) = .ok (v, rest)) :
    Spells depth (c :: cs) v rest := by
  obtain ⟨after, word, ⟨⟩⟩ := map_eq_ok h
  rw [readWord_eq_ok.mp word]
  exact .word known

theorem spells_of_readNumber {negative : Bool}
    (h : (readNumber negative cs).map (fun r => (Value.number r.1, r.2)) = .ok (v, rest)) :
    Spells depth ((if negative then ['-'] else []) ++ cs) v rest := by
  obtain ⟨⟨n, after⟩, number, ⟨⟩⟩ := map_eq_ok h
  obtain ⟨p, form, rfl, value, rfl⟩ := exists_numeral number
  have chars : (if p.negative then ['-'] else []) ++ (p.whole ++ p.tail ++ after) =
      p.chars ++ after := by
    simp only [Numeral.chars, List.append_assoc]
  rw [chars]
  exact .number form value

theorem spells_of_readScalar (h : readScalar c cs = .ok (v, rest)) :
    Spells depth (c :: cs) v rest := by
  unfold readScalar at h
  split at h
  · next hc => exact hc ▸ spells_of_readWord (by simp [words]) h
  split at h
  · next hc => exact hc ▸ spells_of_readWord (by simp [words]) h
  split at h
  · next hc => exact hc ▸ spells_of_readWord (by simp [words]) h
  split at h
  · next hc => exact hc ▸ spells_of_readNumber h
  split at h
  · exact spells_of_readNumber h
  split at h
  · next hc =>
    obtain ⟨⟨s, after⟩, string, ⟨⟩⟩ := map_eq_ok h
    obtain ⟨⟨chars, after⟩, read, ⟨⟩⟩ := map_eq_ok string
    exact hc ▸ .string (chars_of_readChars read)
  · cases h

end

/-- Whether a text begins with a value that is no container, as the reader takes it. -/
def BeginsBare (start : List Char) (v : Value) (rest : List Char) : Prop :=
  ∃ c cs, start = c :: cs ∧ (isSpace c = false ∧ c ≠ ']' ∧ c ≠ '[' ∧ c ≠ '\x7b') ∧
    readScalar c cs = .ok (v, rest)

theorem beginsBare_word {word rest : List Char} {v : Value} (known : (word, v) ∈ words) :
    BeginsBare (word ++ rest) v rest := by
  have read (later : List Char) (v : Value) :
      (readWord later (later ++ rest)).map (fun r => (v, r)) = .ok (v, rest) := by
    rw [readWord_eq_ok.mpr rfl]
    rfl
  simp only [words, List.mem_cons, Prod.mk.injEq, List.not_mem_nil, or_false] at known
  rcases known with ⟨rfl, rfl⟩ | ⟨rfl, rfl⟩ | ⟨rfl, rfl⟩
  · exact ⟨'n', _, rfl, by decide, read ['u', 'l', 'l'] .null⟩
  · exact ⟨'t', _, rfl, by decide, read ['r', 'u', 'e'] (.bool true)⟩
  · exact ⟨'f', _, rfl, by decide, read ['a', 'l', 's', 'e'] (.bool false)⟩

theorem beginsBare_numeral {p : Numeral} {n : Number} (form : p.WellFormed)
    (value : p.value? = some n) {rest : List Char} (follows : Follows rest) :
    BeginsBare (p.chars ++ rest) (.number n) rest := by
  have given := readNumber_gives form (follows.stands p)
  rw [value] at given
  change readNumber _ _ = _ at given
  cases negative : p.negative with
  | true =>
    rw [negative] at given
    refine ⟨'-', p.whole ++ p.tail ++ rest, by simp [Numeral.chars, negative], by decide, ?_⟩
    simp only [readScalar, Char.reduceEq, ↓reduceIte, given]
    rfl
  | false =>
    obtain ⟨c, ds, whole⟩ := List.exists_cons_of_ne_nil form.whole.nonempty
    have digit : c.isDigit = true := form.whole.digits c (whole ▸ List.mem_cons_self)
    obtain ⟨-, -, -, -, array, closing, object, space⟩ := ne_of_isDigit digit
    rw [negative, whole] at given
    refine ⟨c, ds ++ p.tail ++ rest, by simp [Numeral.chars, negative, whole],
      ⟨space, closing, array, object⟩, ?_⟩
    rw [readScalar_digit digit]
    exact congrArg (Except.map _) given

theorem beginsBare_string {cs s rest : List Char} (chars : Chars cs s rest) :
    BeginsBare ('"' :: cs) (.string (String.ofList s)) rest := by
  refine ⟨'"', cs, rfl, by decide, ?_⟩
  simp only [readScalar, readString, readChars_of_chars chars]
  rfl

/-! ## What stands between values -/

theorem skipSpace_eq_cons {cs rest : List Char} {c : Char} :
    skipSpace cs = c :: rest ↔ Blanks cs (c :: rest) ∧ isSpace c = false := by
  refine ⟨fun h => ⟨blanks_of_skipSpace h, ?_⟩, fun ⟨blanks, bare⟩ => blanks.skipSpace_cons bare⟩
  have bare := List.head?_dropWhile_not isSpace cs
  rw [skipSpace] at h
  rw [h] at bare
  exact bare

section
variable {first : Bool} {cs rest start : List Char}

theorem Opens.blanks (opens : Opens first cs start) (more : Blanks start rest) :
    Opens first cs rest := by
  cases first with
  | true => exact Blanks.trans opens more
  | false =>
    obtain ⟨mid, comma, gap⟩ := opens
    exact ⟨mid, comma, gap.trans more⟩

theorem Opens.length_le (opens : Opens first cs start) : start.length ≤ cs.length := by
  cases first with
  | true => exact Blanks.length_le opens
  | false =>
    obtain ⟨mid, comma, gap⟩ := opens
    exact gap.length_le.trans (Nat.le_of_succ_le comma.length_le)

theorem nextItem_eq_last : nextItem first cs = .ok (.last rest) ↔ Blanks cs (']' :: rest) := by
  constructor
  · intro h
    unfold nextItem at h
    split at h
    · cases h
    · next c after skipped =>
      split at h
      · next closing =>
        cases h
        exact closing ▸ blanks_of_skipSpace skipped
      split at h
      · cases h
      split at h
      · split at h
        · cases h
        split at h <;> cases h
      · cases h
  · intro closes
    simp [nextItem, closes.skipSpace_cons (c := ']') rfl]

theorem nextItem_eq_more : nextItem first cs = .ok (.more start) ↔
    Opens first cs start ∧ ∃ c rest, start = c :: rest ∧ isSpace c = false ∧ c ≠ ']' := by
  constructor
  · intro h
    unfold nextItem at h
    split at h
    · cases h
    · next c after skipped =>
      obtain ⟨blanks, bare⟩ := skipSpace_eq_cons.mp skipped
      split at h
      · cases h
      · next goesOn =>
        split at h
        · next isFirst =>
          cases h
          exact ⟨by rw [Opens, if_pos isFirst]; exact blanks, c, after, rfl, bare, goesOn⟩
        · next later =>
          split at h
          · next comma =>
            split at h
            · cases h
            · next d more next =>
              obtain ⟨gap, plain⟩ := skipSpace_eq_cons.mp next
              split at h
              · cases h
              · next notClosing =>
                cases h
                refine ⟨?_, d, more, rfl, plain, notClosing⟩
                rw [Opens, if_neg later]
                exact ⟨after, comma ▸ blanks, gap⟩
          · cases h
  · rintro ⟨opens, c, after, rfl, bare, goesOn⟩
    unfold Opens at opens
    split at opens
    · next isFirst => simp [nextItem, opens.skipSpace_cons bare, goesOn, isFirst]
    · next later =>
      obtain ⟨mid, blanks, gap⟩ := opens
      simp [nextItem, blanks.skipSpace_cons (c := ',') rfl, gap.skipSpace_cons bare, goesOn, later]

theorem nextField_eq_last :
    nextField first cs = .ok (.last rest) ↔ Blanks cs ('\x7d' :: rest) := by
  constructor
  · intro h
    unfold nextField at h
    split at h
    · cases h
    · next c after skipped =>
      split at h
      · next closing =>
        cases h
        exact closing ▸ blanks_of_skipSpace skipped
      split at h
      · split at h <;> cases h
      split at h
      · split at h
        · cases h
        split at h
        · cases h
        split at h <;> cases h
      · cases h
  · intro closes
    simp [nextField, closes.skipSpace_cons (c := '\x7d') rfl]

theorem nextField_eq_more :
    nextField first cs = .ok (.more start) ↔ Opens first cs ('"' :: start) := by
  constructor
  · intro h
    unfold nextField at h
    split at h
    · cases h
    · next c after skipped =>
      have blanks := blanks_of_skipSpace skipped
      split at h
      · cases h
      split at h
      · next isFirst =>
        split at h
        · next quote =>
          cases h
          rw [Opens, if_pos isFirst]
          exact quote ▸ blanks
        · cases h
      · next later =>
        split at h
        · next comma =>
          split at h
          · cases h
          · next d more next =>
            split at h
            · next quote =>
              cases h
              rw [Opens, if_neg later]
              exact ⟨after, comma ▸ blanks, quote ▸ blanks_of_skipSpace next⟩
            · split at h <;> cases h
        · cases h
  · intro opens
    unfold Opens at opens
    split at opens
    · next isFirst => simp [nextField, opens.skipSpace_cons (c := '"') rfl, isFirst]
    · next later =>
      obtain ⟨mid, blanks, gap⟩ := opens
      simp [nextField, blanks.skipSpace_cons (c := ',') rfl, gap.skipSpace_cons (c := '"') rfl,
        later]

end

theorem readColon_eq_ok {cs rest : List Char} :
    readColon cs = .ok rest ↔ Blanks cs (':' :: rest) := by
  constructor
  · intro h
    unfold readColon at h
    split at h
    · cases h
    · next c after skipped =>
      split at h
      · next colon =>
        cases h
        exact colon ▸ blanks_of_skipSpace skipped
      · cases h
  · intro colon
    simp [readColon, colon.skipSpace_cons (c := ':') rfl]

theorem readName_eq_ok {cs body : List Char} {name : String} :
    readName cs = .ok (name, body) ↔
      ∃ s after, name = String.ofList s ∧ Chars cs s after ∧ Blanks after (':' :: body) := by
  simp only [chars_iff, ← readColon_eq_ok]
  constructor
  · intro h
    unfold readName at h
    split at h
    · cases h
    · next quoted ends string =>
      obtain ⟨⟨s, after⟩, chars, ⟨⟩⟩ := map_eq_ok string
      split at h
      · cases h
      · next colon =>
        cases h
        exact ⟨s, after, rfl, chars, colon⟩
  · rintro ⟨s, after, rfl, string, colon⟩
    simp only [readName, readString, string, Except.map, colon]

/-! ## What is read is spelled -/

mutual
theorem spells_of_readValue : ∀ {fuel depth : Nat} {cs rest : List Char} {v : Value},
    readValue fuel (depth + 1) cs = .ok (v, rest) →
    ∃ start, Blanks cs start ∧ Spells depth start v rest
  | 0, _, _, _, _, h => by cases h
  | fuel + 1, depth, cs, rest, v, h => by
    rw [readValue] at h
    split at h
    · cases h
    · next c after skipped =>
      refine ⟨c :: after, blanks_of_skipSpace skipped, ?_⟩
      split at h
      · next bracket =>
        split at h
        · cases h
        · next enters =>
          obtain ⟨below, rfl⟩ : ∃ below, depth = below + 1 := ⟨depth - 1, by omega⟩
          obtain ⟨⟨items, after⟩, inside, ⟨⟩⟩ := map_eq_ok h
          exact bracket ▸ .array (spellsItems_of_readItems inside)
      split at h
      · next brace =>
        split at h
        · cases h
        · next enters =>
          obtain ⟨below, rfl⟩ : ∃ below, depth = below + 1 := ⟨depth - 1, by omega⟩
          obtain ⟨⟨fields, after⟩, inside, ⟨⟩⟩ := map_eq_ok h
          exact brace ▸ .object (spellsFields_of_readFields inside)
      · exact spells_of_readScalar h

theorem spellsItems_of_readItems : ∀ {fuel depth : Nat} {first : Bool} {cs rest : List Char}
    {items : List Value}, readItems fuel (depth + 1) first cs = .ok (items, rest) →
    SpellsItems depth first cs items rest
  | 0, _, _, _, _, _, h => by cases h
  | fuel + 1, depth, first, cs, rest, items, h => by
    rw [readItems] at h
    split at h
    · cases h
    · next last =>
      cases h
      exact .done (nextItem_eq_last.mp last)
    · next start more =>
      split at h
      · cases h
      · next v mid value =>
        obtain ⟨⟨later, after⟩, others, ⟨⟩⟩ := map_eq_ok h
        obtain ⟨text, blanks, spelled⟩ := spells_of_readValue value
        exact .item ((nextItem_eq_more.mp more).1.blanks blanks) spelled
          (spellsItems_of_readItems others)

theorem spellsFields_of_readFields : ∀ {fuel depth : Nat} {first : Bool} {cs rest : List Char}
    {fields : List (String × Value)}, readFields fuel (depth + 1) first cs = .ok (fields, rest) →
    SpellsFields depth first cs fields rest
  | 0, _, _, _, _, _, h => by cases h
  | fuel + 1, depth, first, cs, rest, fields, h => by
    rw [readFields] at h
    split at h
    · cases h
    · next last =>
      cases h
      exact .done (nextField_eq_last.mp last)
    · next start more =>
      split at h
      · cases h
      · next name body named =>
        split at h
        · cases h
        · next v mid value =>
          obtain ⟨⟨later, after⟩, others, ⟨⟩⟩ := map_eq_ok h
          obtain ⟨s, quoteEnd, rfl, chars, colon⟩ := readName_eq_ok.mp named
          obtain ⟨text, blanks, spelled⟩ := spells_of_readValue value
          exact .field (nextField_eq_more.mp more) chars colon blanks spelled
            (spellsFields_of_readFields others)
end

/-! ## What is spelled is read -/

theorem readValue_bare {fuel depth : Nat} {cs start rest : List Char} {v : Value}
    (blanks : Blanks cs start) (bare : BeginsBare start v rest) :
    readValue (fuel + 1) depth cs = .ok (v, rest) := by
  obtain ⟨c, after, rfl, ⟨space, -, array, object⟩, read⟩ := bare
  simp [readValue, blanks.skipSpace_cons space, array, object, read]

/-- How a value begins, so that neither a blank nor the end of an array is seen there. -/
theorem Spells.head {depth : Nat} {start rest : List Char} {v : Value}
    (h : Spells depth start v rest) (follows : Follows rest) :
    ∃ c cs, start = c :: cs ∧ isSpace c = false ∧ c ≠ ']' := by
  have ofBare {v : Value} (bare : BeginsBare start v rest) :
      ∃ c cs, start = c :: cs ∧ isSpace c = false ∧ c ≠ ']' := by
    obtain ⟨c, cs, split, ⟨space, closing, -⟩, -⟩ := bare
    exact ⟨c, cs, split, space, closing⟩
  cases h with
  | word known => exact ofBare (beginsBare_word known)
  | number form value => exact ofBare (beginsBare_numeral form value follows)
  | string chars => exact ofBare (beginsBare_string chars)
  | array inside => exact ⟨_, _, rfl, rfl, by decide⟩
  | object inside => exact ⟨_, _, rfl, rfl, by decide⟩

theorem Chars.length_lt {cs s rest : List Char} (h : Chars cs s rest) :
    rest.length < cs.length := by
  induction h with
  | close => exact Nat.lt_succ_self _
  | plain bare later ih => exact Nat.lt_succ_of_lt ih
  | escape escape later ih =>
    obtain ⟨taken, -, -, rfl⟩ := readEscape_of_escape escape
    rw [List.length_drop] at ih
    rw [List.length_cons]
    omega

mutual
theorem Spells.length_lt : ∀ {depth : Nat} {start rest : List Char} {v : Value},
    Spells depth start v rest → rest.length < start.length
  | _, _, _, _, .word known => by
    have written : ∀ e ∈ words, 0 < e.1.length := by simp [words]
    have some := written _ known
    dsimp only at some
    rw [List.length_append]
    omega
  | _, _, _, _, .number (p := p) form value => by
    have some := List.length_pos_iff.mpr form.whole.nonempty
    simp only [Numeral.chars, List.length_append]
    omega
  | _, _, _, _, .string chars => Nat.lt_succ_of_lt chars.length_lt
  | _, _, _, _, .array inside => Nat.lt_succ_of_lt inside.length_lt
  | _, _, _, _, .object inside => Nat.lt_succ_of_lt inside.length_lt

theorem SpellsItems.length_lt : ∀ {depth : Nat} {first : Bool} {cs rest : List Char}
    {items : List Value}, SpellsItems depth first cs items rest → rest.length < cs.length
  | _, _, _, _, _, .done closes => closes.length_le
  | _, _, _, _, _, .item opens value others =>
    others.length_lt.trans (value.length_lt.trans_le opens.length_le)

theorem SpellsFields.length_lt : ∀ {depth : Nat} {first : Bool} {cs rest : List Char}
    {fields : List (String × Value)}, SpellsFields depth first cs fields rest →
    rest.length < cs.length
  | _, _, _, _, _, .done closes => closes.length_le
  | _, _, _, _, _, .field opens chars colon blanks value others => by
    have := opens.length_le
    have := chars.length_lt
    have := colon.length_le
    have := blanks.length_le
    have := value.length_lt
    have := others.length_lt
    simp only [List.length_cons] at *
    omega
end

/-- Nothing that comes after an item could go on with it. -/
theorem SpellsItems.follows {depth : Nat} {cs rest : List Char} {items : List Value}
    (h : SpellsItems depth false cs items rest) : Follows cs := by
  cases h with
  | done closes => exact follows_of_blanks closes (by rintro c ⟨⟩; exact .inr (.inl rfl))
  | item opens value others =>
    obtain ⟨mid, comma, -⟩ := opens
    exact follows_of_blanks comma (by rintro c ⟨⟩; exact .inl rfl)

theorem SpellsFields.follows {depth : Nat} {cs rest : List Char} {fields : List (String × Value)}
    (h : SpellsFields depth false cs fields rest) : Follows cs := by
  cases h with
  | done closes => exact follows_of_blanks closes (by rintro c ⟨⟩; exact .inr (.inr rfl))
  | field opens chars colon blanks value others =>
    obtain ⟨mid, comma, -⟩ := opens
    exact follows_of_blanks comma (by rintro c ⟨⟩; exact .inl rfl)

-- A value takes two units of fuel for each of its characters; the items of a container take one
-- more, and each of them leaves at least its separator behind.
mutual
theorem readValue_of_spells : ∀ (fuel : Nat) {depth : Nat} {cs start rest : List Char} {v : Value},
    Blanks cs start → Spells depth start v rest → Follows rest →
    2 * start.length ≤ fuel + 2 * rest.length →
    readValue fuel (depth + 1) cs = .ok (v, rest)
  | 0, _, _, _, _, _, _, h, _, enough => by
    have := h.length_lt
    omega
  | fuel + 1, _, _, _, _, _, blanks, .word known, _, _ =>
    readValue_bare blanks (beginsBare_word known)
  | fuel + 1, _, _, _, _, _, blanks, .number form value, follows, _ =>
    readValue_bare blanks (beginsBare_numeral form value follows)
  | fuel + 1, _, _, _, _, _, blanks, .string chars, _, _ =>
    readValue_bare blanks (beginsBare_string chars)
  | fuel + 1, _, _, _, _, _, blanks, .array inside, _, enough => by
    rw [List.length_cons] at enough
    have items := readItems_of_spells fuel inside (by omega)
    simp [readValue, blanks.skipSpace_cons (c := '[') rfl, items, Except.map]
  | fuel + 1, _, _, _, _, _, blanks, .object inside, _, enough => by
    rw [List.length_cons] at enough
    have fields := readFields_of_spells fuel inside (by omega)
    simp [readValue, blanks.skipSpace_cons (c := '\x7b') rfl, fields, Except.map]

theorem readItems_of_spells : ∀ (fuel : Nat) {depth : Nat} {first : Bool} {cs rest : List Char}
    {items : List Value}, SpellsItems depth first cs items rest →
    2 * cs.length + 1 ≤ fuel + 2 * rest.length →
    readItems fuel (depth + 1) first cs = .ok (items, rest)
  | 0, _, _, _, _, _, h, enough => by
    have := h.length_lt
    omega
  | fuel + 1, _, _, _, _, _, .done closes, _ => by
    rw [readItems, nextItem_eq_last.mpr closes]
  | fuel + 1, _, _, _, _, _, .item opens value others, enough => by
    have begins := opens.length_le
    have takes := value.length_lt
    have leaves := others.length_lt
    have read := readValue_of_spells fuel (.refl _) value others.follows (by omega)
    have later := readItems_of_spells fuel others (by omega)
    rw [readItems, nextItem_eq_more.mpr ⟨opens, value.head others.follows⟩]
    simp only [read, later]
    rfl

theorem readFields_of_spells : ∀ (fuel : Nat) {depth : Nat} {first : Bool} {cs rest : List Char}
    {fields : List (String × Value)}, SpellsFields depth first cs fields rest →
    2 * cs.length + 1 ≤ fuel + 2 * rest.length →
    readFields fuel (depth + 1) first cs = .ok (fields, rest)
  | 0, _, _, _, _, _, h, enough => by
    have := h.length_lt
    omega
  | fuel + 1, _, _, _, _, _, .done closes, _ => by
    rw [readFields, nextField_eq_last.mpr closes]
  | fuel + 1, _, _, _, _, _, .field opens chars colon blanks value others, enough => by
    have begins := opens.length_le
    have quote := chars.length_lt
    have named := colon.length_le
    have gap := blanks.length_le
    have takes := value.length_lt
    have leaves := others.length_lt
    simp only [List.length_cons] at begins named
    have read := readValue_of_spells fuel blanks value others.follows (by omega)
    have later := readFields_of_spells fuel others (by omega)
    rw [readFields, nextField_eq_more.mpr opens]
    simp only [readName_eq_ok.mpr ⟨_, _, rfl, chars, colon⟩, read, later]
    rfl
end

/-! ## Documents -/

theorem readEnd_eq_ok {cs : List Char} : readEnd cs = .ok () ↔ Blanks cs [] := by
  rw [← skipSpace_eq_nil, readEnd]
  split
  · next none => simp [none]
  · next c rest skipped => simp [skipped]

theorem follows_of_ends {cs : List Char} (h : Blanks cs []) : Follows cs :=
  follows_of_blanks h (by rintro c ⟨⟩)

theorem parseWithin_eq_ok {depth : Nat} {text : String} {v : Value} :
    parseWithin (depth + 1) text = .ok v ↔ Document depth text v := by
  constructor
  · intro h
    unfold parseWithin readDocument at h
    split at h
    · cases h
    · next v' rest read =>
      cases ends : readEnd rest with
      | error stop =>
        rw [ends] at h
        cases h
      | ok done =>
        rw [ends] at h
        cases h
        obtain ⟨start, blanks, spelled⟩ := spells_of_readValue read
        exact ⟨start, rest, blanks, spelled, readEnd_eq_ok.mp ends⟩
  · rintro ⟨start, rest, blanks, spelled, ends⟩
    have fits := blanks.length_le
    have read := readValue_of_spells (2 * text.toList.length + 2) blanks spelled
      (follows_of_ends ends) (by omega)
    simp only [parseWithin, readDocument, read, readEnd_eq_ok.mpr ends]
    rfl

/-- A text is parsed exactly if it is a document that nests at most 127 deep. -/
theorem parse_eq_ok {text : String} {v : Value} : parse text = .ok v ↔ Document 127 text v :=
  parseWithin_eq_ok

theorem document_object {depth : Nat} {text : String} {fields : Fields} :
    Document (depth + 1) text (.object fields) ↔
      ∃ bindings, RecordText depth text bindings ∧ fields = NameMap.ofBindings bindings := by
  constructor
  · rintro ⟨start, rest, blanks, spelled, ends⟩
    cases spelled with
    | object inside => exact ⟨_, ⟨_, rest, blanks, inside, ends⟩, rfl⟩
    | word known => simp [words] at known
  · rintro ⟨bindings, ⟨start, rest, blanks, inside, ends⟩, rfl⟩
    exact ⟨_, rest, blanks, .object inside, ends⟩

end WorkQueue.Json
