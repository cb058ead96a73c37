import WorkQueue.Proofs.Binary64.Rounding

/-! # Decimals read as doubles

Scaling by powers of ten rounds at each step. A decimal with a negative exponent never overflows,
another one only if it comes close to the overflow threshold.
-/
namespace WorkQueue.Binary64

/-! ## Products and ratios -/

theorem quotient_ratio (x : Binary64) :
    0 < x.quotient.2 ∧ (x.quotient.1 : ℚ) / x.quotient.2 = x.toRat := by
  simp only [quotient, toRat]
  split
  · next h =>
    refine ⟨Nat.one_pos, ?_⟩
    rw [zpow_of_nonneg 2 h, Nat.cast_mul, cast_twoTo, Nat.cast_one, div_one]
  · next h =>
    refine ⟨twoTo_pos _, ?_⟩
    rw [zpow_of_nonpos 2 (not_le.mp h).le, cast_twoTo, mul_one_div]

theorem mul_spec {x y : Binary64} (below : x.toRat * y.toRat < overflowThreshold) :
    ∃ z, x.mul y = some z ∧ z.Rounds (x.toRat * y.toRat) := by
  obtain ⟨hx, hxr⟩ := x.quotient_ratio
  obtain ⟨hy, hyr⟩ := y.quotient_ratio
  have hratio : ((x.quotient.1 * y.quotient.1 : Nat) : ℚ) / (x.quotient.2 * y.quotient.2 : Nat) =
      x.toRat * y.toRat := by
    rw [← hxr, ← hyr, div_mul_div_comm, Nat.cast_mul, Nat.cast_mul]
  obtain ⟨z, hz, hround⟩ := ofQuotient_spec x.negative (Nat.mul_pos hx hy) (hratio.trans_lt below)
  exact ⟨z, hz, hratio ▸ hround⟩

theorem quotient_pos {x : Binary64} (positive : 0 < x.toRat) : 0 < x.quotient.1 := by
  rw [← x.quotient_ratio.2] at positive
  refine Nat.pos_of_ne_zero fun h => ?_
  rw [h, Nat.cast_zero, zero_div] at positive
  exact positive.false

theorem div_spec {x y : Binary64} (positive : 0 < y.toRat)
    (below : x.toRat / y.toRat < overflowThreshold) :
    ∃ z, x.div y = some z ∧ z.Rounds (x.toRat / y.toRat) := by
  obtain ⟨hx, hxr⟩ := x.quotient_ratio
  obtain ⟨-, hyr⟩ := y.quotient_ratio
  have hnum := quotient_pos positive
  have hratio : ((x.quotient.1 * y.quotient.2 : Nat) : ℚ) / (x.quotient.2 * y.quotient.1 : Nat) =
      x.toRat / y.toRat := by
    rw [← hxr, ← hyr, div_div_div_eq, Nat.cast_mul, Nat.cast_mul]
  obtain ⟨z, hz, hround⟩ := ofQuotient_spec x.negative (Nat.mul_pos hx hnum) (hratio.trans_lt below)
  exact ⟨z, hz, hratio ▸ hround⟩

/-! ## Powers of ten -/

theorem powerOfTen_spec {k : Nat} (h : k ≤ greatestPower) :
    ∃ p, powerOfTen k = some p ∧ (10 : ℚ) ^ k - 10 ^ k / 2 ^ 53 ≤ p.toRat ∧
      p.toRat ≤ 10 ^ k + 10 ^ k / 2 ^ 53 := by
  have hratio : ((tenTo k : Nat) : ℚ) / (1 : Nat) = 10 ^ k := by
    rw [Nat.cast_one, div_one, cast_tenTo]
  have hbelow : (10 : ℚ) ^ k < overflowThreshold := by
    have hgreatest : tenTo greatestPower < overflowThreshold := by decide +kernel
    calc (10 : ℚ) ^ k ≤ 10 ^ greatestPower := pow_le_pow_right₀ (by norm_num) h
      _ < overflowThreshold := by
        rw [← cast_tenTo]
        exact Nat.cast_lt.mpr hgreatest
  obtain ⟨p, hp, hround⟩ := ofQuotient_spec false Nat.one_pos (hratio.trans_lt hbelow)
  have hone : (1 : ℚ) ≤ 10 ^ k := one_le_pow₀ (by norm_num)
  exact ⟨p, hp, (hratio ▸ hround : p.Rounds (10 ^ k)).bounds hone⟩

/-- Dividing by a power of ten does not pass a bound. -/
theorem div_powerOfTen {x : Binary64} {k : Nat} {bound : ℚ} (hk : 1 ≤ k) (h : k ≤ greatestPower)
    (hbound : 2 ≤ bound) (small : bound ≤ overflowThreshold) (hx : x.toRat ≤ bound) :
    ∃ p y, powerOfTen k = some p ∧ x.div p = some y ∧ y.toRat ≤ bound := by
  obtain ⟨p, hp, hlow, -⟩ := powerOfTen_spec h
  have hfour : 4 ≤ p.toRat := by
    have hten : (10 : ℚ) ≤ 10 ^ k := le_self_pow₀ (by norm_num) (by omega)
    refine le_trans ?_ hlow
    generalize (10 : ℚ) ^ k = power at *
    have hsmall : power / 2 ^ 53 ≤ power / 2 := by
      gcongr
      norm_num
    linarith
  have hpos : 0 < p.toRat := by linarith
  have hratio : x.toRat / p.toRat ≤ bound / 4 := by
    have hnonneg := x.toRat_nonneg
    gcongr
  obtain ⟨y, hy, hround⟩ := div_spec (x := x) hpos (by linarith)
  refine ⟨p, y, hp, hy, ?_⟩
  have hclose := hround.le_add_one (div_nonneg x.toRat_nonneg hpos.le)
  linarith

/-! ## Scaling -/

theorem scaleByPower_near (fuel : Nat) (x : Binary64) {e : Int} (h : e.natAbs ≤ greatestPower) :
    scaleByPower (fuel + 1) x e =
      (powerOfTen e.natAbs).bind fun p => if 0 ≤ e then x.mul p else x.div p := by
  rw [scaleByPower, if_pos h]

/-- Scaling down never overflows. -/
theorem scaleByPower_neg {bound : ℚ} (hbound : 2 ≤ bound) (small : bound ≤ overflowThreshold)
    (fuel : Nat) {x : Binary64} {e : Int} (he : e < 0) (hx : x.toRat ≤ bound) :
    ∃ y, scaleByPower fuel x e = some y := by
  induction fuel generalizing x e with
  | zero => exact ⟨_, rfl⟩
  | succ fuel ih =>
    by_cases hnear : e.natAbs ≤ greatestPower
    · obtain ⟨p, y, hp, hy, -⟩ := div_powerOfTen (by omega) hnear hbound small hx
      refine ⟨y, ?_⟩
      rw [scaleByPower_near fuel x hnear, hp, Option.bind_some, if_neg (by omega), hy]
    rw [scaleByPower, if_neg hnear]
    cases hzero : x.isZero with
    | true => exact ⟨x, rfl⟩
    | false =>
      obtain ⟨p, y, hp, hy, hle⟩ :=
        div_powerOfTen (x := x) (k := greatestPower) (by decide) le_rfl hbound small hx
      obtain ⟨z, hz⟩ := ih (x := y) (e := e + greatestPower)
        (by simp only [greatestPower] at hnear ⊢; omega) hle
      refine ⟨z, ?_⟩
      rw [if_neg Bool.false_ne_true, if_neg (by omega), hp, Option.bind_some, hy,
        Option.bind_some, hz]

/-- A decimal of 64 bits is read if its exponent is negative or it stays below the overflow
threshold by more than two roundings. -/
theorem ofDecimal_of_lt (negative : Bool) {significand : Nat} {e : Int}
    (fits : significand < twoTo 64)
    (below : 0 ≤ e → significand * 10 ^ e * (1 + 1 / 2 ^ 53) ^ 2 < (overflowThreshold : ℚ)) :
    ∃ y, ofDecimal negative significand e = some y := by
  have hratio : (significand : ℚ) / (1 : Nat) = significand := by
    rw [Nat.cast_one, div_one]
  have hthreshold : twoTo 66 < overflowThreshold := by decide +kernel
  have hsmall : (significand : ℚ) < overflowThreshold := Nat.cast_lt.mpr (by
    have hwide : twoTo 64 < twoTo 66 := by decide
    omega)
  obtain ⟨x, hx, hround⟩ := ofQuotient_spec negative Nat.one_pos (hratio.trans_lt hsmall)
  rw [hratio] at hround
  rw [ofDecimal, hx, Option.bind_some]
  rcases lt_or_ge e 0 with he | he
  · have hbound : x.toRat ≤ (twoTo 66 : Nat) := by
      have hle := hround.le_add_one (Nat.cast_nonneg significand)
      have hdouble : 2 * significand + 1 ≤ twoTo 66 := by
        have hwide : twoTo 66 = 4 * twoTo 64 := by decide
        omega
      refine hle.trans ?_
      exact_mod_cast hdouble
    refine scaleByPower_neg ?_ (Nat.cast_le.mpr hthreshold.le) 4 he hbound
    exact_mod_cast (by decide : 2 ≤ twoTo 66)
  obtain ⟨k, rfl⟩ := Int.eq_ofNat_of_zero_le he
  have hbelow := below he
  rw [zpow_natCast] at hbelow
  have hle : x.toRat ≤ significand * (1 + 1 / 2 ^ 53) := by
    rcases Nat.eq_zero_or_pos significand with rfl | hpos
    · cases hx
      rw [toRat_zero, Nat.cast_zero, zero_mul]
    · have hone : (1 : ℚ) ≤ significand := Nat.one_le_cast.mpr hpos
      have hhigh := (hround.bounds hone).2
      linarith
  by_cases hnear : k ≤ greatestPower
  · obtain ⟨p, hp, -, hpower⟩ := powerOfTen_spec hnear
    have hproduct : x.toRat * p.toRat < overflowThreshold := by
      calc x.toRat * p.toRat
          ≤ (significand : ℚ) * (1 + 1 / 2 ^ 53) * (10 ^ k + 10 ^ k / 2 ^ 53) := by
            refine mul_le_mul hle hpower p.toRat_nonneg (by positivity)
        _ = (significand : ℚ) * 10 ^ k * (1 + 1 / 2 ^ 53) ^ 2 := by ring
        _ < overflowThreshold := hbelow
    obtain ⟨y, hy, -⟩ := mul_spec hproduct
    refine ⟨y, ?_⟩
    have hnatAbs : (k : Int).natAbs ≤ greatestPower := hnear
    rw [scaleByPower_near 3 x hnatAbs, Int.natAbs_natCast, hp, Option.bind_some, if_pos he, hy]
  · have hzero : significand = 0 := by
      by_contra hne
      have hgreat : overflowThreshold < tenTo 309 := by decide +kernel
      have hpower : tenTo 309 ≤ tenTo k := tenTo_mono (not_le.mp hnear)
      have hone : (1 : ℚ) ≤ significand := Nat.one_le_cast.mpr (Nat.pos_of_ne_zero hne)
      refine absurd hbelow (not_lt.mpr ?_)
      calc (overflowThreshold : ℚ) ≤ tenTo k := Nat.cast_le.mpr (hgreat.le.trans hpower)
        _ = 1 * 10 ^ k * 1 := by rw [cast_tenTo, one_mul, mul_one]
        _ ≤ (significand : ℚ) * 10 ^ k * (1 + 1 / 2 ^ 53) ^ 2 := by
          gcongr
          exact one_le_pow₀ (by norm_num)
    cases hzero
    cases hx
    refine ⟨zero negative, ?_⟩
    have hnatAbs : ¬ (k : Int).natAbs ≤ greatestPower := hnear
    rw [scaleByPower, if_neg hnatAbs]
    rfl

/-! ## Canonical results -/

theorem mul_canonical {x y z : Binary64} (h : x.mul y = some z) : z.Canonical :=
  ofQuotient_canonical (Nat.mul_pos x.quotient_ratio.1 y.quotient_ratio.1) h

theorem div_canonical {x y z : Binary64} (positive : 0 < y.toRat) (h : x.div y = some z) :
    z.Canonical :=
  ofQuotient_canonical (Nat.mul_pos x.quotient_ratio.1 (quotient_pos positive)) h

theorem powerOfTen_pos {k : Nat} {p : Binary64} (h : k ≤ greatestPower)
    (hp : powerOfTen k = some p) : 0 < p.toRat := by
  obtain ⟨p', hp', hlow, -⟩ := powerOfTen_spec h
  cases hp.symm.trans hp'
  refine lt_of_lt_of_le (sub_pos.mpr ?_) hlow
  exact div_lt_self (pow_pos (by norm_num) k) (one_lt_pow₀ one_lt_two (by decide))

theorem scaleByPower_canonical {fuel : Nat} {x y : Binary64} {e : Int} (hx : x.Canonical)
    (h : scaleByPower fuel x e = some y) : y.Canonical := by
  induction fuel generalizing x e with
  | zero =>
    cases h
    exact canonical_zero x.negative
  | succ fuel ih =>
    rw [scaleByPower] at h
    split at h
    · next hnear =>
      obtain ⟨p, hp, h⟩ := Option.bind_eq_some_iff.mp h
      split at h
      · exact mul_canonical h
      · exact div_canonical (powerOfTen_pos hnear hp) h
    split at h
    · cases h
      exact hx
    split at h
    · cases h
    · obtain ⟨p, hp, h⟩ := Option.bind_eq_some_iff.mp h
      obtain ⟨z, hz, h⟩ := Option.bind_eq_some_iff.mp h
      exact ih (div_canonical (powerOfTen_pos le_rfl hp) hz) h

theorem ofDecimal_canonical {negative : Bool} {significand : Nat} {e : Int} {y : Binary64}
    (h : ofDecimal negative significand e = some y) : y.Canonical := by
  obtain ⟨x, hx, h⟩ := Option.bind_eq_some_iff.mp h
  exact scaleByPower_canonical (ofQuotient_canonical Nat.one_pos hx) h

end WorkQueue.Binary64
