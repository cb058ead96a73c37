import WorkQueue.Binary64.Shortest
import WorkQueue.Proofs.Binary64.Decimal
import Mathlib.Algebra.Order.Floor.Semifield
import Mathlib.Data.Nat.Cast.Order.Field
import Mathlib.Data.Rat.Floor

/-! # The shortest decimal is read back

The digits of a double fit 64 bits and do not pass the upper end of its rounding interval, so that
reading them does not overflow.
-/
namespace WorkQueue.Binary64

/-- The value of a decimal. -/
def Decimal.toRat (d : Decimal) : ℚ := d.digits * 10 ^ d.exponent

/-- The value that an interval is around, and the upper end of the interval. -/
def Interval.center (i : Interval) : ℚ := i.value / i.den

def Interval.top (i : Interval) : ℚ := i.high / i.den

theorem interval_spec (x : Binary64) : 0 < x.interval.den ∧ x.interval.center = x.toRat ∧
    x.interval.top = x.toRat + 2 ^ (x.exponent - 1) := by
  obtain ⟨negative, m, e⟩ := x
  have hquarter : ∀ n : Nat, ((n * (if 0 ≤ e - 2 then twoTo (e - 2).toNat else 1) : Nat) : ℚ) /
      (if 0 ≤ e - 2 then 1 else twoTo (-(e - 2)).toNat : Nat) = n * 2 ^ (e - 2) := by
    intro n
    split
    · next h => rw [zpow_of_nonneg 2 h, Nat.cast_mul, cast_twoTo, Nat.cast_one, div_one]
    · next h => rw [zpow_of_nonpos 2 (not_le.mp h).le, cast_twoTo, mul_one, mul_one_div]
  have hhalf : (2 : ℚ) ^ (e - 1) = 2 * 2 ^ (e - 2) := by
    rw [← zpow_one_add₀ two_ne_zero]
    congr 1
    omega
  have hsplit : (2 : ℚ) ^ e = 2 * (2 * 2 ^ (e - 2)) := by
    rw [← hhalf, ← zpow_one_add₀ two_ne_zero]
    congr 1
    omega
  refine ⟨?_, ?_, ?_⟩
  · simp only [interval]
    split
    · exact Nat.one_pos
    · exact twoTo_pos _
  · have hcenter := hquarter (4 * m)
    simp only [Interval.center, interval, toRat]
    rw [hcenter, hsplit]
    push_cast
    ring
  · have htop := hquarter (4 * m + 2)
    simp only [Interval.top, interval, toRat]
    rw [htop, hsplit, hhalf]
    push_cast
    ring

theorem ten_zpow (e : Int) : (10 : ℚ) ^ e = tenTo e.toNat / tenTo (-e).toNat := by
  rw [cast_tenTo, cast_tenTo]
  rcases Int.le_total 0 e with h | h
  · rw [zpow_of_nonneg 10 h, Int.toNat_of_nonpos (neg_nonpos.mpr h), pow_zero, div_one]
  · rw [zpow_of_nonpos 10 h, Int.toNat_of_nonpos h, pow_zero]

theorem ten_zpow_pos (e : Int) : (0 : ℚ) < 10 ^ e := zpow_pos (by norm_num) e

namespace Interval
variable {i : Interval}

theorem center_div (i : Interval) (e : Int) : i.center / 10 ^ e =
    (i.value * tenTo (-e).toNat : Nat) / (i.den * tenTo e.toNat : Nat) := by
  rw [center, ten_zpow, div_div_div_eq, Nat.cast_mul, Nat.cast_mul]

theorem le_top (hden : 0 < i.den) {digits : Nat} {e : Int} (h : i.contains digits e = true) :
    (digits : ℚ) * 10 ^ e ≤ i.top := by
  have hle : tenPow digits e * i.den ≤ i.high * tenTo (-e).toNat := by
    simp only [contains] at h
    split at h
    · exact of_decide_eq_true (Bool.and_eq_true_iff.mp h).2
    · exact (of_decide_eq_true (Bool.and_eq_true_iff.mp h).2).le
  have hpow : tenPow digits e = digits * tenTo e.toNat := by
    unfold tenPow
    split
    · rfl
    · next h =>
      rw [Int.toNat_of_nonpos (by omega)]
      exact (Nat.mul_one _).symm
  have hpos : (0 : ℚ) < i.den := Nat.cast_pos.mpr hden
  have hunit : (0 : ℚ) < tenTo (-e).toNat := Nat.cast_pos.mpr (tenTo_pos _)
  rw [top, ten_zpow, ← mul_div_assoc, div_le_div_iff₀ hunit hpos]
  rw [hpow] at hle
  exact_mod_cast hle

theorem floorAt_bounds (i : Interval) (e : Int) :
    (i.floorAt e : ℚ) ≤ i.center / 10 ^ e ∧ i.center / 10 ^ e < i.floorAt e + 1 := by
  have hfloor : i.floorAt e = i.value * tenTo (-e).toNat / (i.den * tenTo e.toNat) := by
    unfold floorAt
    split
    · next h =>
      rw [Int.toNat_of_nonpos (z := -e) (by omega)]
      exact congrArg (· / _) (Nat.mul_one _).symm
    · next h =>
      rw [Int.toNat_of_nonpos (z := e) (by omega)]
      exact congrArg (fun d => i.value * tenTo (-e).toNat / d) (Nat.mul_one i.den).symm
  rw [center_div, hfloor]
  refine ⟨Nat.cast_div_le, ?_⟩
  rw [← Nat.floor_div_eq_div (K := ℚ)]
  exact Nat.lt_floor_add_one _

theorem floorAt_le_center (i : Interval) (e : Int) : (i.floorAt e : ℚ) * 10 ^ e ≤ i.center :=
  (le_div_iff₀ (ten_zpow_pos e)).mp (i.floorAt_bounds e).1

theorem floorAt_ne_zero {e : Int} (low : (10 : ℚ) ^ e ≤ i.center) : i.floorAt e ≠ 0 := by
  intro h
  have hlt := (i.floorAt_bounds e).2
  rw [h, Nat.cast_zero, zero_add, div_lt_one (ten_zpow_pos e)] at hlt
  exact absurd low (not_le.mpr hlt)

theorem floorAt_lt {magnitude : Int} (high : i.center < 10 ^ magnitude) (count : Nat) :
    i.floorAt (magnitude - count) < tenTo count := by
  have hle := (i.floorAt_bounds (magnitude - count)).1
  have hlt : i.center / 10 ^ (magnitude - count) < 10 ^ count := by
    rw [div_lt_iff₀ (ten_zpow_pos _), ← zpow_natCast, ← zpow_add₀ (by norm_num)]
    rwa [add_sub_cancel]
  rw [← cast_tenTo] at hlt
  exact Nat.cast_lt.mp (hle.trans_lt hlt)

theorem below_iff (hden : 0 < i.den) (k : Int) :
    i.value * tenTo (-k).toNat < i.den * tenTo k.toNat ↔ i.center < 10 ^ k := by
  have hpos : (0 : ℚ) < (i.den * tenTo k.toNat : Nat) :=
    Nat.cast_pos.mpr (Nat.mul_pos hden (tenTo_pos _))
  rw [← div_lt_one (ten_zpow_pos k), center_div, div_lt_one hpos, Nat.cast_lt]

/-- The value is below the power of ten that is found, and not below the one before. -/
theorem magnitude_spec (hden : 0 < i.den) (fuel : Nat) {k : Int}
    (low : (10 : ℚ) ^ (k - 1) ≤ i.center) (high : i.center < 10 ^ (k + fuel)) :
    k ≤ i.magnitude fuel k ∧ i.magnitude fuel k ≤ k + fuel ∧
      (10 : ℚ) ^ (i.magnitude fuel k - 1) ≤ i.center ∧ i.center < 10 ^ i.magnitude fuel k := by
  induction fuel generalizing k with
  | zero =>
    rw [Nat.cast_zero, add_zero] at high
    rw [magnitude]
    exact ⟨le_rfl, by omega, low, high⟩
  | succ fuel ih =>
    rw [magnitude]
    split
    · next h => exact ⟨le_rfl, by omega, low, (below_iff hden k).mp h⟩
    · next h =>
      rw [below_iff hden, not_lt] at h
      have hnext : k + (fuel + 1 : Nat) = k + 1 + fuel := by
        push_cast
        omega
      rw [hnext] at high
      obtain ⟨hleast, hgreatest, hlow, hhigh⟩ := ih (k := k + 1) (by rwa [add_sub_cancel_right]) high
      exact ⟨by omega, by omega, hlow, hhigh⟩

/-! ## Digits that are found -/

theorem onGrid_eq_some {e : Int} {digits : Nat} (h : i.onGrid e = some digits) :
    digits ≠ 0 ∧ digits ≤ i.floorAt e + 1 ∧ i.contains digits e = true := by
  simp only [onGrid] at h
  generalize hd : i.floorAt e = d at *
  have hbelow : (d ≠ 0 && i.contains d e) = true → d ≠ 0 ∧ d ≤ d + 1 ∧ i.contains d e = true :=
    fun h => ⟨of_decide_eq_true (Bool.and_eq_true_iff.mp h).1, Nat.le_succ d,
      (Bool.and_eq_true_iff.mp h).2⟩
  have habove : i.contains (d + 1) e = true →
      d + 1 ≠ 0 ∧ d + 1 ≤ d + 1 ∧ i.contains (d + 1) e = true :=
    fun h => ⟨Nat.succ_ne_zero d, le_rfl, h⟩
  split at h
  · next hb ha =>
    split at h
    · cases h
      exact hbelow hb
    · cases h
      exact habove ha
    · cases h
      split
      · exact hbelow hb
      · exact habove ha
  · next hb _ =>
    cases h
    exact hbelow hb
  · next _ ha =>
    cases h
    exact habove ha
  · cases h

/-- The digits that are found below a power of ten are not zero, number at most eighteen and do
not pass the interval. -/
theorem search_spec (hden : 0 < i.den) (hcenter : i.center ≤ i.top) {magnitude : Int}
    (low : (10 : ℚ) ^ (magnitude - 1) ≤ i.center) (high : i.center < 10 ^ magnitude)
    (fuel count : Nat) (hcount : 1 ≤ count) (hfuel : fuel + count = 18) :
    let d := i.search magnitude fuel count
    d.digits ≠ 0 ∧ d.digits ≤ tenTo 18 ∧ d.toRat ≤ i.top ∧ magnitude - 18 ≤ d.exponent ∧
      d.exponent ≤ magnitude := by
  have hdigits : i.floorAt (magnitude - count) < tenTo 18 :=
    (floorAt_lt high count).trans_le (tenTo_mono (by omega))
  induction fuel generalizing count with
  | zero =>
    have hreached : (10 : ℚ) ^ (magnitude - count) ≤ i.center :=
      (zpow_le_zpow_right₀ (by norm_num) (by omega)).trans low
    refine ⟨floorAt_ne_zero hreached, hdigits.le, ?_, ?_, ?_⟩
    · exact (i.floorAt_le_center _).trans hcenter
    · simp only [search]
      omega
    · simp only [search]
      omega
  | succ fuel ih =>
    simp only [search]
    split
    · next digits h =>
      obtain ⟨hne, hle, hcontains⟩ := onGrid_eq_some h
      refine ⟨hne, Nat.le_trans hle hdigits, le_top hden hcontains, ?_, ?_⟩
      · dsimp only
        omega
      · dsimp only
        omega
    · exact ih (count + 1) (by omega) (by omega) ((floorAt_lt high (count + 1)).trans_le (tenTo_mono (by omega)))

end Interval

theorem Decimal.strip_spec (fuel : Nat) {d : Decimal} (h : d.digits ≠ 0) :
    (d.strip fuel).digits ≠ 0 ∧ (d.strip fuel).digits ≤ d.digits ∧
      (d.strip fuel).toRat = d.toRat ∧ d.exponent ≤ (d.strip fuel).exponent ∧
      (d.strip fuel).exponent ≤ d.exponent + fuel := by
  induction fuel generalizing d with
  | zero => exact ⟨h, le_rfl, rfl, le_rfl, by rw [strip]; omega⟩
  | succ fuel ih =>
    rw [strip]
    split
    · next hzero =>
      have hmod : d.digits % 10 = 0 := of_decide_eq_true (Bool.and_eq_true_iff.mp hzero).2
      have hdigits : d.digits / 10 * 10 = d.digits := by omega
      obtain ⟨hne, hle, hvalue, hleast, hgreatest⟩ :=
        ih (d := ⟨d.digits / 10, d.exponent + 1⟩) (by simp only; omega)
      refine ⟨hne, hle.trans (Nat.div_le_self _ _), hvalue.trans ?_, by simp only at hleast; omega,
        by simp only at hgreatest; omega⟩
      have hcast : ((d.digits / 10 : Nat) : ℚ) * 10 = d.digits := by exact_mod_cast hdigits
      rw [toRat, toRat, zpow_add_one₀ (by norm_num), ← hcast]
      ring
    · exact ⟨h, le_rfl, rfl, le_rfl, by omega⟩

/-! ## The guess -/

/-- Multiplying an exponent by the logarithm of two and rounding it down or up gives the power of
ten close below or above a power of two, over the exponents of doubles. -/
theorem tenTo_near_twoTo : ∀ n : Nat, n < 1075 →
    tenTo (n * 30103 / 100000) ≤ twoTo n ∧ twoTo n ≤ 50 * tenTo (n * 30103 / 100000) ∧
      twoTo n ≤ tenTo ((n * 30103 + 99999) / 100000) ∧
      tenTo ((n * 30103 + 99999) / 100000) ≤ 50 * twoTo n := by
  decide +kernel

theorem guess_bounds (binary : Int) (h : binary.natAbs < 1075) :
    let guess := Int.fdiv (binary * 30103) 100000
    (10 : ℚ) ^ guess ≤ 2 ^ binary ∧ (2 : ℚ) ^ binary ≤ 50 * 10 ^ guess := by
  intro guess
  have hguess : guess = binary * 30103 / 100000 := Int.fdiv_eq_ediv_of_nonneg _ (by decide)
  obtain ⟨hlow, hlow', hhigh, hhigh'⟩ := tenTo_near_twoTo binary.natAbs h
  rcases Int.le_total 0 binary with hsign | hsign
  · obtain ⟨n, rfl⟩ := Int.eq_ofNat_of_zero_le hsign
    rw [Int.natAbs_natCast] at hlow hlow'
    have hdown : guess = (n * 30103 / 100000 : Nat) := by
      rw [hguess]
      norm_cast
    rw [hdown, zpow_natCast, zpow_natCast, ← cast_tenTo, ← cast_twoTo]
    exact ⟨by exact_mod_cast hlow, by exact_mod_cast hlow'⟩
  · obtain ⟨n, rfl⟩ : ∃ n : Nat, binary = -(n : Int) := ⟨binary.natAbs, by omega⟩
    rw [Int.natAbs_neg, Int.natAbs_natCast] at hhigh hhigh'
    have hup : guess = -((n * 30103 + 99999) / 100000 : Nat) := by
      rw [hguess]
      omega
    have hten : (0 : ℚ) < tenTo ((n * 30103 + 99999) / 100000) := Nat.cast_pos.mpr (tenTo_pos _)
    have htwo : (0 : ℚ) < twoTo n := Nat.cast_pos.mpr (twoTo_pos _)
    rw [hup, zpow_neg, zpow_neg, zpow_natCast, zpow_natCast, ← cast_tenTo, ← cast_twoTo]
    refine ⟨(inv_le_inv₀ hten htwo).mpr (by exact_mod_cast hhigh), ?_⟩
    rw [← div_eq_mul_inv, inv_eq_one_div, div_le_div_iff₀ htwo hten, one_mul]
    exact_mod_cast hhigh'

/-- A double lies between its guess and a power of ten that is soon reached from there. -/
theorem magnitudeGuess_bounds {x : Binary64} (canonical : x.Canonical) (nonzero : x.mantissa ≠ 0) :
    -324 ≤ magnitudeGuess x ∧ magnitudeGuess x ≤ 308 ∧
      (10 : ℚ) ^ magnitudeGuess x ≤ x.toRat ∧ x.toRat < 10 ^ (magnitudeGuess x + 2) := by
  obtain ⟨hlow, hhigh⟩ := log2_bounds (Nat.pos_of_ne_zero nonzero)
  have hlog : Nat.log2 x.mantissa < 53 := (Nat.log2_lt nonzero).mpr canonical.fits
  have hleast := canonical.least
  have hgreatest := canonical.greatest
  simp only [minExponent, maxExponent] at hleast hgreatest
  obtain ⟨hbelow, habove⟩ := guess_bounds ((Nat.log2 x.mantissa : Int) + x.exponent) (by omega)
  change (10 : ℚ) ^ magnitudeGuess x ≤ _ at hbelow
  change _ ≤ 50 * (10 : ℚ) ^ magnitudeGuess x at habove
  have hguess : magnitudeGuess x =
      ((Nat.log2 x.mantissa : Int) + x.exponent) * 30103 / 100000 :=
    Int.fdiv_eq_ediv_of_nonneg _ (by decide)
  have hunit : (0 : ℚ) < 2 ^ x.exponent := zpow_pos two_pos _
  rw [zpow_add₀ two_ne_zero] at hbelow habove
  rw [zpow_add_one₀ two_ne_zero] at hhigh
  refine ⟨by omega, by omega, hbelow.trans ?_, ?_⟩
  · exact mul_le_mul_of_nonneg_right hlow hunit.le
  · rw [zpow_add₀ (by norm_num)]
    calc x.toRat < 2 ^ (Nat.log2 x.mantissa : Int) * 2 * 2 ^ x.exponent :=
          mul_lt_mul_of_pos_right hhigh hunit
      _ ≤ 2 * (50 * 10 ^ magnitudeGuess x) := by linarith
      _ = 10 ^ magnitudeGuess x * 10 ^ (2 : Int) := by
        rw [zpow_ofNat]
        ring

/-! ## The shortest decimal -/

/-- The shortest decimal of a double is not zero, fits 64 bits and goes no higher than half a unit
in the last place above the double. -/
theorem shortest_spec {x : Binary64} (canonical : x.Canonical) (nonzero : x.mantissa ≠ 0) :
    x.shortest.digits ≠ 0 ∧ x.shortest.digits ≤ tenTo 18 ∧
      x.shortest.toRat ≤ x.toRat + 2 ^ (x.exponent - 1) ∧ x.shortest.exponent.natAbs ≤ 350 := by
  obtain ⟨hden, hcenter, htop⟩ := interval_spec x
  obtain ⟨hleast, hgreatest, hlow, hhigh⟩ := magnitudeGuess_bounds canonical nonzero
  have hinside : x.interval.center ≤ x.interval.top := by
    rw [hcenter, htop]
    linarith [zpow_pos (two_pos (α := ℚ)) (x.exponent - 1)]
  obtain ⟨hfrom, hto, hreached, hbelow⟩ := Interval.magnitude_spec hden 4
    (k := magnitudeGuess x) (by
      rw [hcenter]
      exact (zpow_le_zpow_right₀ (by norm_num) (by omega)).trans hlow) (by
      rw [hcenter]
      exact hhigh.trans_le (zpow_le_zpow_right₀ (by norm_num) (by omega)))
  obtain ⟨hdigits, hfits, hle, hfirst, hlast⟩ :=
    Interval.search_spec hden hinside hreached hbelow 17 1 le_rfl rfl
  obtain ⟨hdigits', hfits', hvalue, hfirst', hlast'⟩ := Decimal.strip_spec 20 hdigits
  refine ⟨hdigits', hfits'.trans hfits, ?_, ?_⟩
  · rw [← htop]
    exact hvalue.trans_le hle
  · rw [shortest]
    omega

/-- The two greatest doubles, whose decimals two roundings could take to the threshold. -/
theorem ofDecimal_greatest : ∀ sign negative : Bool, ∀ k : Nat, k < 2 →
    let d := (⟨sign, twoTo 53 - 1 - k, maxExponent⟩ : Binary64).shortest
    (ofDecimal negative d.digits d.exponent).isSome = true := by
  decide +kernel

/-- The shortest decimal of a double is read without overflow. -/
theorem ofDecimal_shortest {x : Binary64} (canonical : x.Canonical) (nonzero : x.mantissa ≠ 0)
    (negative : Bool) : ∃ y, ofDecimal negative x.shortest.digits x.shortest.exponent = some y := by
  obtain ⟨hdigits, hfits, hle, hexponent⟩ := shortest_spec canonical nonzero
  obtain ⟨sign, m, e⟩ := x
  have hm : m < twoTo 53 := canonical.fits
  have he : e ≤ maxExponent := canonical.greatest
  by_cases hgreatest : e = maxExponent ∧ twoTo 53 - 2 ≤ m
  · obtain ⟨rfl, htop⟩ := hgreatest
    obtain ⟨k, hk, rfl⟩ : ∃ k, k < 2 ∧ m = twoTo 53 - 1 - k := ⟨twoTo 53 - 1 - m, by omega, by omega⟩
    exact Option.isSome_iff_exists.mp (ofDecimal_greatest sign negative k hk)
  refine ofDecimal_of_lt negative (hfits.trans_lt (by decide)) fun _ => ?_
  have hten : (0 : ℚ) < 2 ^ (970 : Int) := zpow_pos two_pos _
  have hends : (m : ℚ) * 2 ^ e + 2 ^ (e - 1) = (2 * m + 1) * 2 ^ (e - 1) := by
    rw [zpow_sub_one₀ two_ne_zero]
    ring
  -- Away from the two greatest doubles there is room for two roundings.
  obtain ⟨c, hc, hroom⟩ : ∃ c : ℚ, (2 * m + 1) * 2 ^ (e - 1) ≤ c * 2 ^ (970 : Int) ∧
      c * (1 + 1 / 2 ^ 53) ^ 2 < 2 ^ 54 - 1 := by
    by_cases hlast : e = maxExponent
    · refine ⟨2 ^ 54 - 5, ?_, by norm_num⟩
      have hsmall : m + 3 ≤ twoTo 53 := by
        have hmin : 2 ≤ twoTo 53 := by decide
        omega
      have hcast : (m : ℚ) + 3 ≤ 2 ^ 53 := by
        rw [← cast_twoTo]
        exact_mod_cast hsmall
      rw [hlast]
      exact mul_le_mul_of_nonneg_right (by linarith) hten.le
    · refine ⟨2 ^ 53, ?_, by norm_num⟩
      have hcast : (m : ℚ) + 1 ≤ 2 ^ 53 := by
        rw [← cast_twoTo]
        exact_mod_cast hm
      have hunit : (2 : ℚ) ^ (e - 1) ≤ 2 ^ (969 : Int) := by
        refine zpow_le_zpow_right₀ one_le_two ?_
        simp only [maxExponent] at he hlast
        omega
      calc (2 * (m : ℚ) + 1) * 2 ^ (e - 1) ≤ (2 * 2 ^ 53) * 2 ^ (969 : Int) := by
            gcongr
            linarith
        _ = 2 ^ 53 * 2 ^ (970 : Int) := by
          rw [mul_comm (2 : ℚ), mul_assoc, ← zpow_one_add₀ two_ne_zero]
          rfl
  rw [cast_overflowThreshold]
  calc _ ≤ c * 2 ^ (970 : Int) * (1 + 1 / 2 ^ 53) ^ 2 :=
        mul_le_mul_of_nonneg_right (hle.trans (hends.trans_le hc)) (by positivity)
    _ = c * (1 + 1 / 2 ^ 53) ^ 2 * 2 ^ (970 : Int) := by ring
    _ < (2 ^ 54 - 1) * 2 ^ (970 : Int) := mul_lt_mul_of_pos_right hroom hten

end WorkQueue.Binary64
