import WorkQueue.Binary64

/-! # The shortest decimal of a double

The digits of a double are the fewest that read back as it: for one digit, two digits and
so on, the two neighbours of the value on that decimal grid are compared with the interval
of reals that round to it. The interval holds its ends exactly when the mantissa is even.
-/
namespace WorkQueue.Binary64

/-- A positive decimal `digits * 10 ^ exponent`. -/
structure Decimal where
  digits : Nat
  exponent : Int
  deriving DecidableEq, Repr

/-- The reals that round to a positive double, over a common denominator. -/
structure Interval where
  low : Nat
  value : Nat
  high : Nat
  den : Nat
  closed : Bool

/-- The rounding interval. Below a power of two the gap is half as wide. -/
def interval (x : Binary64) : Interval :=
  let m := 4 * x.mantissa
  let gap := if x.mantissa = twoTo 52 && minExponent < x.exponent then 1 else 2
  let e := x.exponent - 2
  let factor := if 0 ≤ e then twoTo e.toNat else 1
  { low := (m - gap) * factor
    value := m * factor
    high := (m + 2) * factor
    den := if 0 ≤ e then 1 else twoTo (-e).toNat
    closed := x.mantissa % 2 == 0 }

/-- `n * 10 ^ e` over the denominator `10 ^ k` with `k` the negative part of `e`. -/
def tenPow (n : Nat) (e : Int) : Nat := if 0 ≤ e then n * tenTo e.toNat else n

/-- Whether `digits * 10 ^ e` lies in the interval. -/
def Interval.contains (i : Interval) (digits : Nat) (e : Int) : Bool :=
  let left := tenPow digits e * i.den
  let unit := tenTo (-e).toNat
  if i.closed then i.low * unit ≤ left && left ≤ i.high * unit
  else i.low * unit < left && left < i.high * unit

/-- The grid point just below the value. -/
def Interval.floorAt (i : Interval) (e : Int) : Nat :=
  if 0 ≤ e then i.value / (i.den * tenTo e.toNat) else i.value * tenTo (-e).toNat / i.den

/-- Twice the distance of the value from the grid point below, against one grid step: less
than, equal or greater. -/
def Interval.compareHalf (i : Interval) (digits : Nat) (e : Int) : Ordering :=
  if 0 ≤ e then
    compare (2 * i.value) ((2 * digits + 1) * (i.den * tenTo e.toNat))
  else compare (2 * i.value * tenTo (-e).toNat) ((2 * digits + 1) * i.den)

/-- The nearer of the two neighbours on a grid that lie in the interval; a tie goes to the
even one. -/
def Interval.onGrid (i : Interval) (e : Int) : Option Nat :=
  let d := i.floorAt e
  let below := d ≠ 0 && i.contains d e
  let above := i.contains (d + 1) e
  match below, above with
  | true, true =>
    match i.compareHalf d e with
    | .lt => some d
    | .gt => some (d + 1)
    | .eq => some (if d % 2 = 0 then d else d + 1)
  | true, false => some d
  | false, true => some (d + 1)
  | false, false => none

/-- The least `k` from a starting point with the value below `10 ^ k`. -/
def Interval.magnitude (i : Interval) : Nat → Int → Int
  | 0, k => k
  | fuel + 1, k =>
    if i.value * tenTo (-k).toNat < i.den * tenTo k.toNat then k else i.magnitude fuel (k + 1)

/-- A power of ten that the value reaches, close below its magnitude. -/
def magnitudeGuess (x : Binary64) : Int :=
  Int.fdiv (((Nat.log2 x.mantissa : Int) + x.exponent) * 30103) 100000

/-- The first grid with a hit, for up to seventeen digits. -/
def Interval.search (i : Interval) (magnitude : Int) : Nat → Nat → Decimal
  | 0, count => ⟨i.floorAt (magnitude - count), magnitude - count⟩
  | fuel + 1, count =>
    match i.onGrid (magnitude - count) with
    | some digits => ⟨digits, magnitude - count⟩
    | none => i.search magnitude fuel (count + 1)

/-- Drops zeros at the end of the digits. -/
def Decimal.strip : Nat → Decimal → Decimal
  | 0, d => d
  | fuel + 1, d =>
    if d.digits ≠ 0 && d.digits % 10 = 0 then strip fuel ⟨d.digits / 10, d.exponent + 1⟩ else d

/-- The shortest decimal of a nonzero magnitude. -/
def shortest (x : Binary64) : Decimal :=
  let i := x.interval
  let magnitude := i.magnitude 4 (magnitudeGuess x)
  (i.search magnitude 17 1).strip 20

end WorkQueue.Binary64
