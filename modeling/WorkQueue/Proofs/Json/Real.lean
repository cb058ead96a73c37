import WorkQueue.Proofs.Binary64.Shortest
import WorkQueue.Proofs.Json.Document

/-! # Printed doubles read back

The text of a double is taken to its end, with or without an exponent, and never passes the
greatest double.
-/
namespace WorkQueue.Json
open WorkQueue.Text

/-! ## Fractions and exponents -/

section
variable {digits rest : List Char} (all : ∀ c ∈ digits, c.isDigit = true)
  (stop : Stops rest) (negative : Bool)
include all stop

theorem readFraction_digits (ne : digits ≠ []) {value : Nat}
    (fits : Nat.ofDigitChars 10 digits value ≤ limit64) (e : Int) :
    readFraction negative value e (digits ++ rest) =
      readScale negative (Nat.ofDigitChars 10 digits value) (e - digits.length) rest := by
  have hcount : digits.length ≠ 0 := fun h => ne (List.eq_nil_of_length_eq_zero h)
  rw [readFraction, extendSignificand_digits all stop fits]
  cases rest with
  | nil => exact if_neg hcount
  | cons c rest =>
    have hc := stop c rfl
    simp only [hc, Bool.false_eq_true, ↓reduceIte, hcount]

theorem readExponentDigits_digits (down : Bool) (significand : Nat) (start : Int) {e : Nat}
    (fits : Nat.ofDigitChars 10 digits e ≤ limit31) :
    readExponentDigits negative down significand start e (digits ++ rest) =
      readReal negative significand
        (if down then start - Nat.ofDigitChars 10 digits e
          else start + Nat.ofDigitChars 10 digits e) rest := by
  induction digits generalizing e with
  | nil =>
    cases rest with
    | nil => rfl
    | cons c rest =>
      have hc := stop c rfl
      simp only [List.nil_append, readExponentDigits, hc, Bool.false_eq_true, ↓reduceIte]
      rfl
  | cons c digits ih =>
    have hc := all c List.mem_cons_self
    have hvalue : 10 * e + (c.toNat - '0'.toNat) = e * 10 + digitValue c := by
      rw [Nat.mul_comm]
      rfl
    rw [Nat.ofDigitChars_cons, hvalue] at fits ⊢
    have hstep := Nat.le_trans (le_ofDigitChars _ digits) fits
    simp only [List.cons_append, readExponentDigits, hc, hstep, ↓reduceIte]
    exact ih (fun d hd => all d (List.mem_cons_of_mem c hd)) fits

end

theorem readScale_ends (negative : Bool) (significand : Nat) (e : Int) {rest : List Char}
    (hr : Ends rest) : readScale negative significand e rest =
      readReal negative significand e rest := by
  cases rest with
  | nil => rfl
  | cons c rest =>
    obtain ⟨-, -, he, hE⟩ := hr.head
    simp [readScale, he, hE]

theorem readExponent_signed (negative : Bool) (significand : Nat) (start : Int) {e : Int}
    (fits : e.natAbs ≤ limit31) {rest : List Char} (hr : Ends rest) :
    readExponent negative significand start
        ((if e < 0 then '-' else '+') :: (naturalChars e.natAbs ++ rest)) =
      readReal negative significand (start + e) rest := by
  obtain ⟨c, digits, hchars, -⟩ := naturalChars_eq_cons e.natAbs
  have hvalue := ofDigitChars_naturalChars e.natAbs
  have hall : ∀ d ∈ c :: digits, d.isDigit = true := fun d hd => isDigit_naturalChars (hchars ▸ hd)
  have hc := hall c List.mem_cons_self
  rw [hchars, Nat.ofDigitChars_cons, Nat.mul_zero, Nat.zero_add] at hvalue
  change Nat.ofDigitChars 10 digits (digitValue c) = _ at hvalue
  have hdigits := fun down => readExponentDigits_digits
    (fun d hd => hall d (List.mem_cons_of_mem c hd)) hr.stops negative down significand start
    (hvalue.symm ▸ fits)
  rw [hvalue] at hdigits
  rw [hchars]
  by_cases h : e < 0
  · have hsum : start - (e.natAbs : Int) = start + e := by omega
    have hread := hdigits true
    rw [if_pos rfl, hsum] at hread
    simpa [readExponent, h, hc] using hread
  · have hsum : start + (e.natAbs : Int) = start + e := by omega
    have hread := hdigits false
    rw [if_neg Bool.false_ne_true, hsum] at hread
    simpa [readExponent, h, hc] using hread

/-! ## Decimals -/

theorem lt_tenTo_length (n : Nat) : n < tenTo (naturalChars n).length :=
  (Nat.length_toDigits_le_iff (by omega) Nat.length_toDigits_pos).mp le_rfl

theorem length_naturalChars_le {n k : Nat} (hk : 0 < k) (h : n < tenTo k) :
    (naturalChars n).length ≤ k :=
  (Nat.length_toDigits_le_iff (by omega) hk).mpr h

theorem isDigit_of_mem_zeros {k : Nat} {c : Char} (h : c ∈ List.replicate k '0') :
    c.isDigit = true := by
  rw [List.eq_of_mem_replicate h]
  decide

section
variable {n : Nat} {rest : List Char} (negative : Bool)

/-- A fraction below one, with zeros after its point. -/
theorem readNumber_below_one (fits : n ≤ limit64) (zeros : Nat) (hr : Ends rest) :
    readNumber negative (['0', '.'] ++ List.replicate zeros '0' ++ naturalChars n ++ rest) =
      readReal negative n (-(zeros + (naturalChars n).length : Nat)) rest := by
  have hall : ∀ c ∈ List.replicate zeros '0' ++ naturalChars n, c.isDigit = true := by
    intro c hc
    rcases List.mem_append.mp hc with hc | hc
    · exact isDigit_of_mem_zeros hc
    · exact isDigit_naturalChars hc
  have hvalue : Nat.ofDigitChars 10 (List.replicate zeros '0' ++ naturalChars n) 0 = n := by
    rw [Nat.ofDigitChars_append, Nat.ofDigitChars_replicate_zero, Nat.mul_zero,
      ofDigitChars_naturalChars]
  have hne : List.replicate zeros '0' ++ naturalChars n ≠ [] := by
    obtain ⟨c, digits, hchars, -⟩ := naturalChars_eq_cons n
    simp [hchars]
  have hfits : Nat.ofDigitChars 10 (List.replicate zeros '0' ++ naturalChars n) 0 ≤ limit64 :=
    hvalue.trans_le fits
  have hread := readFraction_digits hall hr.stops negative hne hfits 0
  rw [hvalue, List.length_append, List.length_replicate, zero_sub, readScale_ends _ _ _ hr] at hread
  rw [List.append_assoc _ _ (naturalChars n)]
  exact hread

theorem head?_naturalChars (pos : n ≠ 0) : ∃ c, c ≠ '0' ∧ (naturalChars n).head? = some c := by
  obtain ⟨c, digits, hchars, hzero⟩ := naturalChars_eq_cons n
  exact ⟨c, fun h => pos (hzero h).2, by rw [hchars]; rfl⟩

/-- The digits that a number other than zero begins with are taken to their end. -/
theorem readNumber_lead {lead tail : List Char} (first : ∃ c, c ≠ '0' ∧ lead.head? = some c)
    (all : ∀ c ∈ lead, c.isDigit = true) (stop : Stops tail)
    (fits : Nat.ofDigitChars 10 lead 0 ≤ limit64) :
    readNumber negative (lead ++ tail) = readRest negative (Nat.ofDigitChars 10 lead 0) 0 tail := by
  obtain ⟨c, hc, hhead⟩ := first
  cases lead with
  | nil => cases hhead
  | cons d digits =>
    cases hhead
    exact readNumber_digits all (fun h => absurd h hc) stop fits negative

theorem whole_fits {zeros : Nat} (fits : n * tenTo zeros < tenTo 16) :
    n * tenTo (zeros + 1) ≤ limit64 := by
  calc n * tenTo (zeros + 1) = 10 * (n * tenTo zeros) := by rw [tenTo_succ, Nat.mul_left_comm]
    _ ≤ 10 * tenTo 16 := Nat.mul_le_mul_left 10 fits.le
    _ ≤ limit64 := by decide

/-- A whole number, with zeros before its point. -/
theorem readNumber_whole (pos : n ≠ 0) {zeros : Nat} (fits : n * tenTo zeros < tenTo 16)
    (hr : Ends rest) :
    readNumber negative (naturalChars n ++ List.replicate zeros '0' ++ ['.', '0'] ++ rest) =
      readReal negative (n * tenTo (zeros + 1)) (-1) rest := by
  have hvalue : Nat.ofDigitChars 10 (naturalChars n ++ List.replicate zeros '0') 0 =
      n * tenTo zeros := by
    rw [Nat.ofDigitChars_append, ofDigitChars_naturalChars, Nat.ofDigitChars_replicate_zero,
      Nat.mul_comm]
    rfl
  have hnext : Nat.ofDigitChars 10 ['0'] (n * tenTo zeros) = n * tenTo (zeros + 1) := by
    rw [Nat.ofDigitChars_cons, Nat.ofDigitChars_nil, tenTo_succ, Nat.sub_self, Nat.add_zero]
    ring
  have hsmall : tenTo 16 ≤ limit64 := by decide
  have hall : ∀ c ∈ naturalChars n ++ List.replicate zeros '0', c.isDigit = true := by
    intro c hc
    rcases List.mem_append.mp hc with hc | hc
    · exact isDigit_naturalChars hc
    · exact isDigit_of_mem_zeros hc
  have hfirst : ∃ c, c ≠ '0' ∧ (naturalChars n ++ List.replicate zeros '0').head? = some c := by
    obtain ⟨c, hc, hhead⟩ := head?_naturalChars pos
    exact ⟨c, hc, by rw [List.head?_append, hhead]; rfl⟩
  have hpoint : Stops ('.' :: '0' :: rest) := stops_cons (by decide) _
  have hwhole := readNumber_lead negative hfirst hall hpoint
    (hvalue.trans_le (fits.le.trans hsmall))
  have hzero : ∀ c ∈ ['0'], c.isDigit = true := fun c hc => isDigit_of_mem_zeros (k := 1) hc
  have hread := readFraction_digits hzero hr.stops negative (List.cons_ne_nil '0' [])
    (hnext.trans_le (whole_fits fits)) 0
  rw [hnext, readScale_ends _ _ _ hr] at hread
  rw [List.append_assoc]
  rw [hvalue] at hwhole
  exact hwhole.trans hread

theorem readFraction_drop (fits : n ≤ limit64) {point : Nat}
    (after : point < (naturalChars n).length) {tail : List Char}
    (stop : Stops tail) :
    readFraction negative (Nat.ofDigitChars 10 ((naturalChars n).take point) 0) 0
        ((naturalChars n).drop point ++ tail) =
      readScale negative n (point - (naturalChars n).length) tail := by
  have hvalue : Nat.ofDigitChars 10 ((naturalChars n).drop point)
      (Nat.ofDigitChars 10 ((naturalChars n).take point) 0) = n := by
    rw [← Nat.ofDigitChars_append, List.take_append_drop, ofDigitChars_naturalChars]
  have hne : (naturalChars n).drop point ≠ [] := by
    rw [Ne, List.drop_eq_nil_iff]
    omega
  have hread := readFraction_digits (fun c hc => isDigit_naturalChars (List.mem_of_mem_drop hc))
    stop negative hne (hvalue.trans_le fits) 0
  have hcount : (0 : Int) - ((naturalChars n).drop point).length =
      point - (naturalChars n).length := by
    rw [List.length_drop]
    omega
  rwa [hvalue, hcount] at hread

theorem readNumber_take (pos : n ≠ 0) (fits : n ≤ limit64) {point : Nat} (before : 0 < point)
    {tail : List Char} (stop : Stops tail) :
    readNumber negative ((naturalChars n).take point ++ tail) =
      readRest negative (Nat.ofDigitChars 10 ((naturalChars n).take point) 0) 0 tail := by
  have hle : Nat.ofDigitChars 10 ((naturalChars n).take point) 0 ≤ n := by
    calc _ ≤ Nat.ofDigitChars 10 ((naturalChars n).drop point)
          (Nat.ofDigitChars 10 ((naturalChars n).take point) 0) := le_ofDigitChars _ _
      _ = n := by rw [← Nat.ofDigitChars_append, List.take_append_drop, ofDigitChars_naturalChars]
  have hfirst : ∃ c, c ≠ '0' ∧ ((naturalChars n).take point).head? = some c := by
    obtain ⟨c, hc, hhead⟩ := head?_naturalChars pos
    exact ⟨c, hc, by rw [List.head?_take, if_neg (by omega), hhead]⟩
  exact readNumber_lead negative hfirst (fun c hc => isDigit_naturalChars (List.mem_of_mem_take hc))
    stop (hle.trans fits)

/-- A number with digits on both sides of its point. -/
theorem readNumber_mixed (pos : n ≠ 0) (fits : n ≤ limit64) {point : Nat} (before : 0 < point)
    (after : point < (naturalChars n).length) (hr : Ends rest) :
    readNumber negative ((naturalChars n).take point ++ ['.'] ++ (naturalChars n).drop point ++ rest)
      = readReal negative n (point - (naturalChars n).length) rest := by
  have hpoint : Stops ('.' :: ((naturalChars n).drop point ++ rest)) := stops_cons (by decide) _
  have hwhole := readNumber_take negative pos fits before hpoint
  have hread := readFraction_drop negative fits after hr.stops
  rw [readScale_ends _ _ _ hr] at hread
  rw [List.append_assoc, List.append_assoc]
  exact hwhole.trans hread

/-- A number with one digit before its point and an exponent. -/
theorem readNumber_scientific (pos : n ≠ 0) (fits : n ≤ limit64) {e : Int}
    (small : e.natAbs ≤ limit31) (hr : Ends rest) :
    readNumber negative ((naturalChars n).take 1 ++
      (if (naturalChars n).length = 1 then [] else '.' :: (naturalChars n).drop 1) ++
      ['e', if e < 0 then '-' else '+'] ++ naturalChars e.natAbs ++ rest) =
      readReal negative n (e + 1 - (naturalChars n).length) rest := by
  generalize hexponent : (if e < 0 then '-' else '+') :: (naturalChars e.natAbs ++ rest) = exponent
  have hread := fun start => readExponent_signed negative n start small hr
  rw [hexponent] at hread
  have hletter : Stops ('e' :: exponent) := stops_cons (by decide) _
  have hsplit : ['e', if e < 0 then '-' else '+'] ++ (naturalChars e.natAbs ++ rest) =
      'e' :: exponent := congrArg _ hexponent
  rw [List.append_assoc, List.append_assoc, hsplit, List.append_assoc]
  split
  · next h =>
    have hwhole := readNumber_take negative pos fits Nat.one_pos hletter
    rw [List.take_of_length_le h.le, ofDigitChars_naturalChars] at hwhole
    rw [List.take_of_length_le h.le]
    refine hwhole.trans ((hread 0).trans ?_)
    congr 1
    omega
  · next h =>
    have hlength : 1 < (naturalChars n).length := by
      have hpos : 0 < (naturalChars n).length := Nat.length_toDigits_pos
      omega
    have hpoint : Stops ('.' :: ((naturalChars n).drop 1 ++ 'e' :: exponent)) :=
      stops_cons (by decide) _
    have hwhole := readNumber_take negative pos fits Nat.one_pos hpoint
    have hfraction := readFraction_drop negative fits hlength hletter
    refine hwhole.trans (hfraction.trans ((hread _).trans ?_))
    congr 1
    omega

end

/-- The digits of a decimal that is not zero are read as its value, perhaps scaled by ten. -/
theorem readNumber_decimalChars {d : Binary64.Decimal} (pos : d.digits ≠ 0)
    (fits : d.digits ≤ tenTo 18) (small : d.exponent.natAbs ≤ 350) :
    ∃ significand e, significand ≤ limit64 ∧
      (significand = d.digits ∧ e = d.exponent ∨ e = -1) ∧ ∀ negative rest, Ends rest →
        readNumber negative (decimalChars d ++ rest) = readReal negative significand e rest := by
  have hfits : d.digits ≤ limit64 := fits.trans (by decide)
  have hlength : (naturalChars d.digits).length ≤ 19 :=
    length_naturalChars_le (by decide) (fits.trans_lt (by decide))
  have hpos : 0 < (naturalChars d.digits).length := Nat.length_toDigits_pos
  have hlt := lt_tenTo_length d.digits
  simp only [decimalChars]
  generalize hpoint : ((naturalChars d.digits).length : Int) + d.exponent = point
  split
  · next h =>
    simp only [Bool.and_eq_true, decide_eq_true_eq] at h
    refine ⟨d.digits, d.exponent, hfits, .inl ⟨rfl, rfl⟩, fun negative rest hr => ?_⟩
    have hread := readNumber_below_one negative hfits (-point).toNat hr
    have he : -(((-point).toNat + (naturalChars d.digits).length : Nat) : Int) = d.exponent := by
      omega
    rwa [he] at hread
  split
  · next h =>
    simp only [Bool.and_eq_true, decide_eq_true_eq] at h
    split
    · next hwhole =>
      have hzeros : point.toNat - (naturalChars d.digits).length + (naturalChars d.digits).length =
          point.toNat := Nat.sub_add_cancel hwhole
      generalize point.toNat - (naturalChars d.digits).length = zeros at *
      have hsmall : d.digits * tenTo zeros < tenTo 16 := by
        calc d.digits * tenTo zeros < tenTo (naturalChars d.digits).length * tenTo zeros :=
              Nat.mul_lt_mul_of_pos_right hlt (tenTo_pos zeros)
          _ = tenTo ((naturalChars d.digits).length + zeros) := (Nat.pow_add 10 _ _).symm
          _ ≤ tenTo 16 := tenTo_mono (by omega)
      exact ⟨d.digits * tenTo (zeros + 1), -1, whole_fits hsmall, .inr rfl,
        fun negative rest hr => readNumber_whole negative pos hsmall hr⟩
    · next hinside =>
      refine ⟨d.digits, d.exponent, hfits, .inl ⟨rfl, rfl⟩, fun negative rest hr => ?_⟩
      have hbefore : 0 < point.toNat := by omega
      have hread := readNumber_mixed negative pos hfits hbefore (not_le.mp hinside) hr
      have he : (point.toNat : Int) - (naturalChars d.digits).length = d.exponent := by omega
      rwa [he] at hread
  · refine ⟨d.digits, d.exponent, hfits, .inl ⟨rfl, rfl⟩, fun negative rest hr => ?_⟩
    have hexponent : (point - 1).natAbs ≤ limit31 := by
      simp only [limit31]
      omega
    have hread := readNumber_scientific negative pos hfits hexponent hr
    have he : point - 1 + 1 - ((naturalChars d.digits).length : Int) = d.exponent := by omega
    rwa [he] at hread

/-! ## Doubles -/

theorem readReal_eq {negative : Bool} {significand : Nat} {e : Int} {y : Binary64}
    (h : Binary64.ofDecimal negative significand e = some y) (rest : List Char) :
    readReal negative significand e rest = .ok (.real y, rest) := by
  rw [readReal, h]

theorem readNumber_head {negative : Bool} {cs rest : List Char} {n : Number}
    (h : readNumber negative cs = .ok (n, rest)) : ∃ c cs', cs = c :: cs' ∧ c.isDigit = true := by
  cases cs with
  | nil => cases h
  | cons c cs =>
    refine ⟨c, cs, rfl, ?_⟩
    by_cases hzero : c = '0'
    · rw [hzero]
      decide
    · by_contra hdigit
      simp [readNumber, hzero, hdigit] at h

/-- What is printed for a double is read as a double. -/
theorem real_readsAs {x : Binary64} (canonical : x.Canonical) :
    ∃ y, (Number.real x).ReadsAs (.real y) := by
  obtain ⟨body, y, hchars, hread⟩ : ∃ body y,
      realChars x = (if x.negative then ['-'] else []) ++ body ∧
        ∀ rest, Ends rest → readNumber x.negative (body ++ rest) = .ok (.real y, rest) := by
    by_cases hzero : x.mantissa = 0
    · have hsmall : 0 < twoTo 64 := twoTo_pos 64
      obtain ⟨y, hy⟩ := Binary64.ofDecimal_of_lt x.negative (e := -1) hsmall (by omega)
      refine ⟨['0', '.', '0'], y, ?_, fun rest hr => ?_⟩
      · simp [realChars, Binary64.isZero, hzero]
      · exact (readNumber_below_one x.negative (Nat.zero_le _) 0 hr).trans (readReal_eq hy rest)
    · obtain ⟨hdigits, hfits, -, hexponent⟩ := Binary64.shortest_spec canonical hzero
      obtain ⟨significand, e, hsignificand, hvalue, hread⟩ :=
        readNumber_decimalChars hdigits hfits hexponent
      obtain ⟨y, hy⟩ : ∃ y, Binary64.ofDecimal x.negative significand e = some y := by
        rcases hvalue with ⟨rfl, rfl⟩ | rfl
        · exact Binary64.ofDecimal_shortest canonical hzero x.negative
        · have hlt : significand < twoTo 64 := hsignificand.trans_lt (by decide)
          exact Binary64.ofDecimal_of_lt x.negative hlt (by omega)
      refine ⟨decimalChars x.shortest, y, ?_, fun rest hr =>
        (hread x.negative rest hr).trans (readReal_eq hy rest)⟩
      simp [realChars, Binary64.isZero, hzero]
  cases hsign : x.negative with
  | true =>
    rw [hsign] at hchars hread
    refine ⟨y, '-', body, hchars, .inl rfl, fun rest hr => ?_⟩
    simp only [readScalar, Char.reduceEq, ↓reduceIte, hread rest hr]
    rfl
  | false =>
    rw [hsign] at hchars hread
    obtain ⟨c, cs, hbody, hc⟩ := readNumber_head (hread [] ends_nil)
    rw [List.append_nil] at hbody
    refine ⟨y, c, cs, hchars.trans hbody, .inr hc, fun rest hr => ?_⟩
    rw [readScalar_digit hc, ← List.cons_append, ← hbody, hread rest hr]
    rfl

/-- The number that is read where a number was printed. -/
def Number.reread (n : Number) : Number :=
  match parse n.render with
  | .ok (.number m) => m
  | _ => n

theorem Number.ReadsAs.reread_eq {n m : Number} (h : n.ReadsAs m) : n.reread = m := by
  have hparse := (parse_render (v := .number n) trivial (f := fun _ => m) h).accepts
    (by decide : 0 < nestingLimit)
  have hrender : n.render = (Value.number n).render := rfl
  rw [Number.reread, hrender, hparse]
  rfl

/-- A number that a document can hold is read as a number. -/
theorem Number.Canonical.readsAs {n : Number} (h : n.Canonical) : n.ReadsAs n.reread := by
  cases n with
  | integer k =>
    have hread : (Number.integer k).ReadsAs (.integer k) := integral_readsAs h
    exact hread.reread_eq.symm ▸ hread
  | real x =>
    obtain ⟨y, hread⟩ := real_readsAs h
    exact hread.reread_eq.symm ▸ hread

end WorkQueue.Json
