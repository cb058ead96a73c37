/-! # Exact binary floating point

A finite double is a sign and a value `mantissa * 2 ^ exponent`. All arithmetic goes
through one rounding of an exact quotient, so that no machine float takes part.
-/
namespace WorkQueue

def twoTo (n : Nat) : Nat := Nat.pow 2 n

def tenTo (n : Nat) : Nat := Nat.pow 10 n

/-- A finite double. In canonical form the mantissa is below `2 ^ 53`, the exponent is at
least `-1074`, and the mantissa is at least `2 ^ 52` unless the exponent is least. -/
structure Binary64 where
  negative : Bool
  mantissa : Nat
  exponent : Int
  deriving DecidableEq, Repr

namespace Binary64

def minExponent : Int := -1074

def maxExponent : Int := 971

/-- Whether a double is in canonical form and no greater than the greatest one. -/
structure Canonical (x : Binary64) : Prop where
  fits : x.mantissa < twoTo 53
  least : minExponent ≤ x.exponent
  greatest : x.exponent ≤ maxExponent
  normal : twoTo 52 ≤ x.mantissa ∨ x.exponent = minExponent

def zero (negative : Bool) : Binary64 := ⟨negative, 0, minExponent⟩

def isZero (x : Binary64) : Bool := x.mantissa == 0

/-- The quotient rounded to the nearest integer, a half going to the even neighbour. -/
def roundHalfEven (num den : Nat) : Nat :=
  let q := num / den
  let r := num % den
  if 2 * r < den then q
  else if den < 2 * r then q + 1
  else if q % 2 = 0 then q else q + 1

/-- `num / den * 2 ^ -e` as a quotient of naturals. -/
def scale (num den : Nat) (e : Int) : Nat × Nat :=
  if 0 ≤ e then (num, den * twoTo e.toNat) else (num * twoTo (-e).toNat, den)

/-- The exponent at which a positive quotient has a mantissa of 53 bits, or the least. -/
def exponentFor (num den : Nat) : Int :=
  let guess : Int := (Nat.log2 num : Int) - (Nat.log2 den : Int) - 53
  let scaled := scale num den guess
  let e := if twoTo 53 * scaled.2 ≤ scaled.1 then guess + 1 else guess
  max e minExponent

/-- The magnitude nearest to a quotient, or nothing when it passes the greatest double. -/
def ofQuotient (negative : Bool) (num den : Nat) : Option Binary64 :=
  if num = 0 then some (zero negative) else
    let e := exponentFor num den
    let scaled := scale num den e
    let m := roundHalfEven scaled.1 scaled.2
    let rounded : Nat × Int := if m = twoTo 53 then (twoTo 52, e + 1) else (m, e)
    if maxExponent < rounded.2 then none
    else if rounded.1 = 0 then some (zero negative)
    else some ⟨negative, rounded.1, rounded.2⟩

/-- The magnitude as a quotient of naturals. -/
def quotient (x : Binary64) : Nat × Nat :=
  if 0 ≤ x.exponent then (x.mantissa * twoTo x.exponent.toNat, 1)
  else (x.mantissa, twoTo (-x.exponent).toNat)

/-- The product, rounded; the sign is that of the first factor. -/
def mul (x y : Binary64) : Option Binary64 :=
  let a := x.quotient
  let b := y.quotient
  ofQuotient x.negative (a.1 * b.1) (a.2 * b.2)

/-- The ratio, rounded; the sign is that of the dividend. -/
def div (x y : Binary64) : Option Binary64 :=
  let a := x.quotient
  let b := y.quotient
  ofQuotient x.negative (a.1 * b.2) (a.2 * b.1)

def powerOfTen (k : Nat) : Option Binary64 := ofQuotient false (tenTo k) 1

/-- The greatest power of ten that a double reaches. -/
def greatestPower : Nat := 308

/-- Divides by the greatest power of ten until the exponent that remains is a power of ten
or the value has vanished, then multiplies or divides once more. Each step rounds. -/
def scaleByPower : Nat → Binary64 → Int → Option Binary64
  | 0, x, _ => some (zero x.negative)
  | fuel + 1, x, e =>
    if e.natAbs ≤ greatestPower then
      (powerOfTen e.natAbs).bind fun p => if 0 ≤ e then x.mul p else x.div p
    else if x.isZero then some x
    else if 0 ≤ e then none
    else (powerOfTen greatestPower).bind fun p =>
      (x.div p).bind fun y => scaleByPower fuel y (e + greatestPower)

/-- The double read from decimal digits and a power of ten, or nothing when it is too
large. Every nonzero 64 bit significand vanishes within three divisions. -/
def ofDecimal (negative : Bool) (significand : Nat) (e : Int) : Option Binary64 :=
  (ofQuotient negative significand 1).bind fun x => scaleByPower 4 x e

end Binary64
end WorkQueue
