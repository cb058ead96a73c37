import WorkQueue.Binary64
import Mathlib.Algebra.Order.Field.Power
import Mathlib.Data.Rat.Cast.Order
import Mathlib.Tactic.FieldSimp
import Mathlib.Tactic.Linarith
import Mathlib.Tactic.NormNum
import Mathlib.Tactic.Positivity
import Mathlib.Tactic.Ring

/-! # Rounding to doubles

A quotient below the overflow threshold rounds to a double that is off by no more than half a unit
in its last place.
-/
namespace WorkQueue

theorem cast_twoTo (n : Nat) : (twoTo n : ℚ) = 2 ^ n := Nat.cast_pow 2 n

theorem cast_tenTo (n : Nat) : (tenTo n : ℚ) = 10 ^ n := Nat.cast_pow 10 n

theorem zpow_of_nonneg (b : ℚ) {e : Int} (h : 0 ≤ e) : b ^ e = b ^ e.toNat := by
  rw [← zpow_natCast, Int.toNat_of_nonneg h]

theorem zpow_of_nonpos (b : ℚ) {e : Int} (h : e ≤ 0) : b ^ e = 1 / b ^ (-e).toNat := by
  rw [← zpow_natCast, Int.toNat_of_nonneg (neg_nonneg.mpr h), zpow_neg, one_div, inv_inv]

theorem twoTo_pos (n : Nat) : 0 < twoTo n := Nat.pow_pos (by decide)

theorem tenTo_pos (n : Nat) : 0 < tenTo n := Nat.pow_pos (by decide)

theorem tenTo_succ (n : Nat) : tenTo (n + 1) = 10 * tenTo n := Nat.pow_succ'

theorem tenTo_mono {m n : Nat} (h : m ≤ n) : tenTo m ≤ tenTo n :=
  Nat.pow_le_pow_right (by decide) h

namespace Binary64

/-- The magnitude of a double. -/
def toRat (x : Binary64) : ℚ := x.mantissa * 2 ^ x.exponent

/-- Halfway from the greatest double to the power of two above it. -/
def overflowThreshold : Nat := (twoTo 54 - 1) * twoTo 970

theorem cast_overflowThreshold : (overflowThreshold : ℚ) = (2 ^ 54 - 1) * 2 ^ (970 : Int) := by
  have hone : 1 ≤ twoTo 54 := twoTo_pos 54
  rw [overflowThreshold, Nat.cast_mul, Nat.cast_sub hone, cast_twoTo, cast_twoTo, Nat.cast_one,
    zpow_ofNat]

-- Its digits are never wanted.
attribute [irreducible] overflowThreshold

theorem toRat_nonneg (x : Binary64) : 0 ≤ x.toRat := by
  unfold toRat
  positivity

/-- Whether a double is off from a magnitude by at most half a unit in the last place. -/
def Rounds (x : Binary64) (q : ℚ) : Prop := |x.toRat - q| ≤ max (q / 2 ^ 53) (1 / 2 ^ 1075)

namespace Rounds
variable {x : Binary64} {q : ℚ}

theorem bounds (h : x.Rounds q) (hq : 1 ≤ q) :
    q - q / 2 ^ 53 ≤ x.toRat ∧ x.toRat ≤ q + q / 2 ^ 53 := by
  have hmax : max (q / 2 ^ 53) (1 / 2 ^ 1075) = q / 2 ^ 53 := by
    refine max_eq_left ?_
    calc (1 : ℚ) / 2 ^ 1075 ≤ 1 / 2 ^ 53 := by
          gcongr
          · exact one_le_two
          · decide
      _ ≤ q / 2 ^ 53 := by gcongr
  rw [Rounds, hmax, abs_le] at h
  constructor <;> linarith

theorem le_add_one (h : x.Rounds q) (hq : 0 ≤ q) : x.toRat ≤ 2 * q + 1 := by
  have hmax : max (q / 2 ^ 53) (1 / 2 ^ 1075) ≤ q + 1 := by
    refine max_le ?_ ?_
    · exact (div_le_self hq (one_le_pow₀ one_le_two)).trans (by linarith)
    · exact (div_le_self zero_le_one (one_le_pow₀ one_le_two)).trans (by linarith)
  have hclose := (abs_le.mp (h.trans hmax)).2
  linarith

end Rounds

/-! ## One rounding -/

variable {num den : Nat}

theorem roundHalfEven_error (hden : 0 < den) :
    |(roundHalfEven num den : ℚ) - num / den| ≤ 1 / 2 := by
  have hsplit := Nat.div_add_mod num den
  have hrest := Nat.mod_lt num hden
  have hclose : 2 * (den * roundHalfEven num den) ≤ 2 * num + den ∧
      2 * num ≤ 2 * (den * roundHalfEven num den) + den := by
    simp only [roundHalfEven]
    split
    · omega
    split
    · rw [Nat.mul_add]
      omega
    split
    · omega
    · rw [Nat.mul_add]
      omega
  have hpos : (0 : ℚ) < den := Nat.cast_pos.mpr hden
  obtain ⟨hhigh, hlow⟩ := hclose
  have hhigh : 2 * (den * (roundHalfEven num den : ℚ)) ≤ 2 * num + den := by exact_mod_cast hhigh
  have hlow : 2 * (num : ℚ) ≤ 2 * (den * (roundHalfEven num den : ℚ)) + den := by
    exact_mod_cast hlow
  have hdiff : (roundHalfEven num den : ℚ) - num / den =
      (den * roundHalfEven num den - num) / den := by field_simp
  rw [hdiff, abs_div, abs_of_pos hpos, div_le_iff₀ hpos, abs_le]
  constructor <;> linarith

theorem scale_pos (hden : 0 < den) (e : Int) : 0 < (scale num den e).2 := by
  unfold scale
  split
  · exact Nat.mul_pos hden (twoTo_pos _)
  · exact hden

theorem scale_ratio (num den : Nat) (e : Int) :
    ((scale num den e).1 : ℚ) / (scale num den e).2 = num / den / 2 ^ e := by
  unfold scale
  split
  · next h => rw [zpow_of_nonneg 2 h, Nat.cast_mul, cast_twoTo, div_div]
  · next h =>
    rw [zpow_of_nonpos 2 (not_le.mp h).le, Nat.cast_mul, cast_twoTo, div_div_eq_mul_div, div_one,
      div_mul_eq_mul_div]

theorem log2_bounds {n : Nat} (h : 0 < n) :
    (2 : ℚ) ^ (Nat.log2 n : Int) ≤ n ∧ (n : ℚ) < 2 ^ ((Nat.log2 n : Int) + 1) := by
  have hlow := Nat.log2_self_le (Nat.ne_of_gt h)
  have hhigh := Nat.lt_log2_self (n := n)
  refine ⟨?_, ?_⟩
  · rw [zpow_natCast]
    exact_mod_cast hlow
  · exact_mod_cast hhigh

/-- The exponent chosen for a quotient leaves it a mantissa of 53 bits, unless it is the least. -/
theorem exponentFor_bounds (hnum : 0 < num) (hden : 0 < den) :
    minExponent ≤ exponentFor num den ∧ (num : ℚ) / den < 2 ^ (exponentFor num den + 53) ∧
      (exponentFor num den = minExponent ∨
        (2 : ℚ) ^ (exponentFor num den + 52) ≤ num / den) := by
  obtain ⟨hnum_low, hnum_high⟩ := log2_bounds hnum
  obtain ⟨hden_low, hden_high⟩ := log2_bounds hden
  have hpos : (0 : ℚ) < den := Nat.cast_pos.mpr hden
  have htwo : (2 : ℚ) ≠ 0 := two_ne_zero
  generalize hguess : (Nat.log2 num : Int) - (Nat.log2 den : Int) - 53 = guess
  have hhigh : (num : ℚ) / den < 2 ^ (guess + 54) := by
    rw [div_lt_iff₀ hpos]
    calc (num : ℚ) < 2 ^ ((Nat.log2 num : Int) + 1) := hnum_high
      _ = 2 ^ (guess + 54) * 2 ^ (Nat.log2 den : Int) := by
        rw [← zpow_add₀ htwo, ← hguess]
        congr 1
        omega
      _ ≤ 2 ^ (guess + 54) * den := by gcongr
  have hlow : (2 : ℚ) ^ (guess + 52) ≤ num / den := by
    rw [le_div_iff₀ hpos]
    calc (2 : ℚ) ^ (guess + 52) * den ≤ 2 ^ (guess + 52) * 2 ^ ((Nat.log2 den : Int) + 1) := by
          gcongr
      _ = 2 ^ (Nat.log2 num : Int) := by
        rw [← zpow_add₀ htwo, ← hguess]
        congr 1
        omega
      _ ≤ num := hnum_low
  have hstep : (twoTo 53 * (scale num den guess).2 ≤ (scale num den guess).1) ↔
      (2 : ℚ) ^ (guess + 53) ≤ num / den := by
    have hunit : (0 : ℚ) < 2 ^ guess := zpow_pos two_pos guess
    have hscaled : (0 : ℚ) < (scale num den guess).2 := Nat.cast_pos.mpr (scale_pos hden guess)
    have hpower : (2 : ℚ) ^ (guess + 53) = twoTo 53 * 2 ^ guess := by
      rw [zpow_add₀ htwo, cast_twoTo, mul_comm]
      rfl
    rw [hpower, ← le_div_iff₀ hunit, ← scale_ratio, le_div_iff₀ hscaled]
    norm_cast
  have hexponent : exponentFor num den =
      max (if (2 : ℚ) ^ (guess + 53) ≤ num / den then guess + 1 else guess) minExponent := by
    simp only [exponentFor, hguess, hstep]
  generalize hchosen : (if (2 : ℚ) ^ (guess + 53) ≤ num / den then guess + 1 else guess) = chosen
    at hexponent
  have hchosen : (num : ℚ) / den < 2 ^ (chosen + 53) ∧ (2 : ℚ) ^ (chosen + 52) ≤ num / den := by
    subst hchosen
    split
    · next h =>
      rw [add_assoc, add_assoc]
      exact ⟨hhigh, h⟩
    · next h => exact ⟨not_le.mp h, hlow⟩
  rw [hexponent]
  refine ⟨le_max_right _ _, hchosen.1.trans_le ?_, ?_⟩
  · exact zpow_le_zpow_right₀ one_le_two (by omega)
  · rcases max_choice chosen minExponent with h | h
    · rw [h]
      exact .inr hchosen.2
    · exact .inl h

/-- The mantissa of a quotient at its exponent. -/
def mantissaFor (num den : Nat) : Nat :=
  roundHalfEven (scale num den (exponentFor num den)).1 (scale num den (exponentFor num den)).2

theorem mantissaFor_bounds (hnum : 0 < num) (hden : 0 < den) :
    mantissaFor num den ≤ twoTo 53 ∧
      (exponentFor num den = minExponent ∨ twoTo 52 ≤ mantissaFor num den) ∧
      |(mantissaFor num den : ℚ) * 2 ^ exponentFor num den - num / den| ≤
        2 ^ (exponentFor num den - 1) := by
  obtain ⟨-, hhigh, hlow⟩ := exponentFor_bounds hnum hden
  have hscaled : 0 < (scale num den (exponentFor num den)).2 := scale_pos hden _
  have herror : |(mantissaFor num den : ℚ) - (scale num den (exponentFor num den)).1 /
      (scale num den (exponentFor num den)).2| ≤ 1 / 2 := roundHalfEven_error hscaled
  rw [scale_ratio] at herror
  generalize exponentFor num den = e at *
  generalize mantissaFor num den = m at *
  have hunit : (0 : ℚ) < 2 ^ e := zpow_pos two_pos e
  obtain ⟨hbelow, habove⟩ := abs_le.mp herror
  rw [zpow_add₀ two_ne_zero, mul_comm, ← div_lt_iff₀ hunit, zpow_ofNat] at hhigh
  refine ⟨?_, hlow.imp_right fun hlow => ?_, ?_⟩
  · have hm : (m : ℚ) < (twoTo 53 : ℚ) + 1 := by
      rw [cast_twoTo]
      linarith
    exact Nat.le_of_lt_succ (by exact_mod_cast hm)
  · rw [zpow_add₀ two_ne_zero, mul_comm, ← le_div_iff₀ hunit, zpow_ofNat] at hlow
    have hm : (twoTo 52 : ℚ) < m + 1 := by
      rw [cast_twoTo]
      linarith
    exact Nat.le_of_lt_succ (by exact_mod_cast hm)
  · have hscaled : (m : ℚ) * 2 ^ e - num / den = (m - num / den / 2 ^ e) * 2 ^ e := by
      field_simp
    have hhalf : (2 : ℚ) ^ (e - 1) = 1 / 2 * 2 ^ e := by
      rw [zpow_sub_one₀ two_ne_zero]
      ring
    rw [hscaled, abs_mul, abs_of_pos hunit, hhalf]
    exact mul_le_mul_of_nonneg_right herror hunit.le

theorem canonical_zero (negative : Bool) : (zero negative).Canonical :=
  ⟨twoTo_pos 53, le_rfl, show minExponent ≤ maxExponent by decide, .inr rfl⟩

@[simp] theorem toRat_zero (negative : Bool) : (zero negative).toRat = 0 := by
  rw [toRat, zero, Nat.cast_zero, zero_mul]

/-- A mantissa and its exponent, a mantissa of 54 bits halved. -/
def carry (m : Nat) (e : Int) : Nat × Int := if m = twoTo 53 then (twoTo 52, e + 1) else (m, e)

theorem carry_spec {m : Nat} {e : Int} (hm : m ≤ twoTo 53) (least : minExponent ≤ e)
    (normal : e = minExponent ∨ twoTo 52 ≤ m) :
    (carry m e).1 < twoTo 53 ∧ minExponent ≤ (carry m e).2 ∧
      (twoTo 52 ≤ (carry m e).1 ∨ (carry m e).2 = minExponent) ∧
      ((carry m e).1 : ℚ) * 2 ^ (carry m e).2 = m * 2 ^ e := by
  unfold carry
  split
  · next h =>
    have hhalf : twoTo 52 < twoTo 53 := by decide
    refine ⟨hhalf, Int.le_add_one least, .inl le_rfl, ?_⟩
    rw [h, zpow_add_one₀ two_ne_zero, cast_twoTo, cast_twoTo]
    ring
  · next h => exact ⟨Nat.lt_of_le_of_ne hm h, least, normal.symm, rfl⟩

theorem ofQuotient_eq (negative : Bool) (hnum : 0 < num) :
    ofQuotient negative num den =
      let rounded := carry (mantissaFor num den) (exponentFor num den)
      if maxExponent < rounded.2 then none
      else if rounded.1 = 0 then some (zero negative)
      else some ⟨negative, rounded.1, rounded.2⟩ := if_neg hnum.ne'

/-- A quotient below the overflow threshold stays within the exponents of doubles. -/
theorem carry_le (hnum : 0 < num) (hden : 0 < den) (below : (num : ℚ) / den < overflowThreshold) :
    (carry (mantissaFor num den) (exponentFor num den)).2 ≤ maxExponent := by
  obtain ⟨-, -, hlow⟩ := exponentFor_bounds hnum hden
  obtain ⟨-, -, herror⟩ := mantissaFor_bounds hnum hden
  generalize exponentFor num den = e at *
  generalize mantissaFor num den = m at *
  generalize (num : ℚ) / den = q at *
  by_contra h
  refine absurd below (not_lt.mpr ?_)
  have hq : (2 ^ 54 - 1) * (2 : ℚ) ^ (970 : Int) ≤ q := by
    unfold carry at h
    split at h
    · next hfull =>
      have he : (970 : Int) ≤ e - 1 := by
        simp only [maxExponent] at h
        omega
      have hsplit : (m : ℚ) * 2 ^ e = 2 ^ 54 * 2 ^ (e - 1) := by
        rw [hfull, cast_twoTo, zpow_sub_one₀ two_ne_zero]
        ring
      rw [hsplit] at herror
      have hbelow := (abs_le.mp herror).2
      calc (2 ^ 54 - 1) * (2 : ℚ) ^ (970 : Int) ≤ (2 ^ 54 - 1) * 2 ^ (e - 1) := by
            have hmono := zpow_le_zpow_right₀ (one_le_two (α := ℚ)) he
            exact mul_le_mul_of_nonneg_left hmono (by norm_num)
        _ ≤ q := by linarith
    · next hfull =>
      have he : (1024 : Int) ≤ e + 52 := by
        simp only [maxExponent] at h
        omega
      have hne : e ≠ minExponent := by
        rintro rfl
        exact absurd he (by decide)
      have hmono := zpow_le_zpow_right₀ (one_le_two (α := ℚ)) he
      calc (2 ^ 54 - 1) * (2 : ℚ) ^ (970 : Int) ≤ 2 ^ (54 : Int) * 2 ^ (970 : Int) := by
            refine mul_le_mul_of_nonneg_right (by norm_num) (zpow_pos two_pos _).le
        _ = 2 ^ (1024 : Int) := by rw [← zpow_add₀ two_ne_zero]; rfl
        _ ≤ 2 ^ (e + 52) := hmono
        _ ≤ q := hlow.resolve_left hne
  rw [cast_overflowThreshold]
  exact hq

/-- A rounded quotient is canonical. -/
theorem ofQuotient_canonical {negative : Bool} (hden : 0 < den) {x : Binary64}
    (h : ofQuotient negative num den = some x) : x.Canonical := by
  rcases Nat.eq_zero_or_pos num with rfl | hnum
  · cases h
    exact canonical_zero negative
  obtain ⟨hleast, -, -⟩ := exponentFor_bounds hnum hden
  obtain ⟨hm, hnormal, -⟩ := mantissaFor_bounds hnum hden
  obtain ⟨hfits, hleast, hnormal, -⟩ := carry_spec hm hleast hnormal
  rw [ofQuotient_eq negative hnum] at h
  dsimp only at h
  split at h
  · cases h
  · next hgreatest =>
    split at h
    · cases h
      exact canonical_zero negative
    · cases h
      exact ⟨hfits, hleast, not_lt.mp hgreatest, hnormal⟩

/-- A quotient below the overflow threshold rounds to a double that is off by at most half a unit in
the last place. -/
theorem ofQuotient_spec (negative : Bool) (hden : 0 < den)
    (below : (num : ℚ) / den < overflowThreshold) :
    ∃ x, ofQuotient negative num den = some x ∧ x.Rounds (num / den) := by
  rcases Nat.eq_zero_or_pos num with rfl | hnum
  · refine ⟨zero negative, if_pos rfl, ?_⟩
    rw [Rounds, toRat_zero, Nat.cast_zero, zero_div, sub_zero, abs_zero, zero_div]
    exact le_max_left _ _
  obtain ⟨hleast, -, hlow⟩ := exponentFor_bounds hnum hden
  obtain ⟨hm, hnormal, herror⟩ := mantissaFor_bounds hnum hden
  obtain ⟨-, -, -, hvalue⟩ := carry_spec hm hleast hnormal
  have hroom := not_lt.mpr (carry_le hnum hden below)
  rw [ofQuotient_eq negative hnum]
  rw [← hvalue] at herror
  generalize carry (mantissaFor num den) (exponentFor num den) = rounded at *
  generalize exponentFor num den = e at *
  generalize (num : ℚ) / den = q at *
  have hclose : (2 : ℚ) ^ (e - 1) ≤ max (q / 2 ^ 53) (1 / 2 ^ 1075) := by
    rcases hlow with rfl | hlow
    · refine le_trans (le_of_eq ?_) (le_max_right _ _)
      rw [one_div]
      exact zpow_neg (2 : ℚ) 1075
    · refine le_trans ?_ (le_max_left _ _)
      have hsplit : (2 : ℚ) ^ (e + 52) = 2 ^ (e - 1) * 2 ^ 53 := by
        rw [← zpow_natCast, ← zpow_add₀ two_ne_zero]
        congr 1
        omega
      rw [le_div_iff₀ (by positivity), ← hsplit]
      exact hlow
  by_cases hm0 : rounded.1 = 0
  · refine ⟨zero negative, ?_, ?_⟩
    · simp only [hroom, hm0, ↓reduceIte]
    · rw [hm0, Nat.cast_zero, zero_mul] at herror
      rw [Rounds, toRat_zero]
      exact herror.trans hclose
  · refine ⟨⟨negative, rounded.1, rounded.2⟩, ?_, herror.trans hclose⟩
    simp only [hroom, hm0, ↓reduceIte]

end Binary64
end WorkQueue
