/-! # Similar words

Two words are similar by the share of characters that they have in common, at places not too
far apart, less half of those that are out of order. The share is kept as a fraction.
-/
namespace WorkQueue.Text

structure Share where
  part : Nat
  whole : Nat
  deriving DecidableEq, Repr

namespace Share

def le (a b : Share) : Bool := a.part * b.whole ≤ b.part * a.whole

def lt (a b : Share) : Bool := a.part * b.whole < b.part * a.whole

end Share

/-- Marks the first character between two indices that equals a character and is not marked. -/
def markFirst (c : Char) (low high : Nat) : Nat → List (Char × Bool) → Option (List (Char × Bool))
  | _, [] => none
  | index, (d, marked) :: rest =>
    if high ≤ index then none
    else if low ≤ index && c == d && !marked then some ((d, true) :: rest)
    else (markFirst c low high (index + 1) rest).map ((d, marked) :: ·)

/-- The characters of a word that have a partner in another one, and the other one with the
partners marked. -/
def pairUp (range : Nat) : Nat → List Char → List (Char × Bool) → List Char × List (Char × Bool)
  | _, [], other => ([], other)
  | index, c :: rest, other =>
    match markFirst c (index - range) (index + range + 1) 0 other with
    | none => pairUp range (index + 1) rest other
    | some other =>
      let (paired, other) := pairUp range (index + 1) rest other
      (c :: paired, other)

/-- How similar two words are. -/
def similarity (a b : String) : Share :=
  let (cs, ds) := (a.toList, b.toList)
  let (m, n) := (cs.length, ds.length)
  let (paired, marked) := pairUp (max m n / 2 - 1) 0 cs (ds.map fun d => (d, false))
  let partners := (marked.filter Prod.snd).map Prod.fst
  let count := paired.length
  let moved := ((paired.zip partners).filter fun p => p.1 != p.2).length / 2
  if m = 0 ∧ n = 0 then ⟨1, 1⟩
  else if count = 0 then ⟨0, 1⟩
  else ⟨count * count * n + count * count * m + (count - moved) * m * n, 3 * count * m * n⟩

/-- The words that are similar to a word, the most similar one last. -/
def similarWords (word : String) (words : List String) : List String :=
  let scored := words.map fun w => (similarity word w, w)
  let near := scored.filter fun s => Share.lt ⟨7, 10⟩ s.1
  (near.mergeSort fun a b => Share.le a.1 b.1).map Prod.snd

end WorkQueue.Text
