/-! # Labels beyond ASCII

A label is written in ASCII as its ASCII characters, a hyphen, and digits that say where the
other characters go, in ascending order. Digits are those of base 36, and their thresholds
follow a bias that adapts to the distances written so far.
-/
namespace WorkQueue.Net.Punycode

def digitChar (n : Nat) : Char :=
  if n < 26 then Char.ofNat (0x61 + n) else Char.ofNat (0x30 + n - 26)

def threshold (position bias : Nat) : Nat :=
  if position ≤ bias then 1 else if bias + 26 ≤ position then 26 else position - bias

theorem threshold_bounds (position bias : Nat) :
    1 ≤ threshold position bias ∧ threshold position bias ≤ 26 := by
  unfold threshold
  split
  · omega
  · split <;> omega

/-- Divides a distance until it is small, and counts the positions. -/
def shrink (distance position : Nat) : Nat × Nat :=
  if 455 < distance then shrink (distance / 35) (position + 36) else (distance, position)
termination_by distance
decreasing_by omega

/-- The bias after a distance was written. -/
def adapt (distance written : Nat) (first : Bool) : Nat :=
  let halved := if first then distance / 700 else distance / 2
  let (small, position) := shrink (halved + halved / written) 0
  position + 36 * small / (small + 38)

/-- The digits of a distance, from a position on. -/
def distanceDigits (bias position distance : Nat) : List Char :=
  let t := threshold position bias
  if distance < t then [digitChar distance]
  else
    digitChar (t + (distance - t) % (36 - t)) ::
      distanceDigits bias (position + 36) ((distance - t) / (36 - t))
termination_by distance
decreasing_by
  have h := threshold_bounds position bias
  have := Nat.div_le_self (distance - threshold position bias) (36 - threshold position bias)
  omega

structure Scan where
  digits : List Char
  distance : Nat
  bias : Nat
  written : Nat

/-- Passes one character while those of one code point are written. -/
def Scan.step (basic codePoint : Nat) (s : Scan) (c : Char) : Scan :=
  if c.toNat < codePoint then { s with distance := s.distance + 1 }
  else if c.toNat = codePoint then
    { digits := s.digits ++ distanceDigits s.bias 36 s.distance
      distance := 0
      bias := adapt s.distance (s.written + 1) (s.written == basic)
      written := s.written + 1 }
  else s

/-- Writes the characters of each code point, in ascending order. -/
def Scan.run (label : List Char) (basic : Nat) : List Nat → Nat → Scan → Scan
  | [], _, s => s
  | codePoint :: rest, next, s =>
    let s := { s with distance := s.distance + (codePoint - next) * (s.written + 1) }
    let s := label.foldl (Scan.step basic codePoint) s
    run label basic rest (codePoint + 1) { s with distance := s.distance + 1 }

/-- Inserts a number into an ascending list that does not hold it. -/
def insertOnce (n : Nat) : List Nat → List Nat
  | [] => [n]
  | m :: rest =>
    if n < m then n :: m :: rest else if n = m then m :: rest else m :: insertOnce n rest

def encode (label : List Char) : List Char :=
  let basic := label.filter fun c => c.toNat < 0x80
  let beyond := (label.filter fun c => 0x80 ≤ c.toNat).map Char.toNat
  let start : Scan := ⟨[], 0, 72, basic.length⟩
  let s := Scan.run label basic.length (beyond.foldr insertOnce []) 0x80 start
  basic ++ (if basic = [] then [] else ['-']) ++ s.digits

/-- A label as a domain holds it: one beyond ASCII is encoded and marked. -/
def label (cs : List Char) : List Char :=
  if cs.all fun c => c.toNat < 0x80 then cs else ['x', 'n', '-', '-'] ++ encode cs

end WorkQueue.Net.Punycode
