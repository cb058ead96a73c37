import WorkQueue.Binary64
import WorkQueue.NameMap

/-! # JSON values

A value keeps the fields of an object in ascending order of their names, each name once.
An integer that fits 64 bits, signed or unsigned, stays an integer; every other number is a
double.
-/
namespace WorkQueue.Json

/-- A number as a document holds it. -/
inductive Number
  | integer (n : Int)
  | real (x : Binary64)
  deriving DecidableEq, Repr

inductive Value
  | null
  | bool (b : Bool)
  | number (n : Number)
  | string (s : String)
  | array (items : List Value)
  | object (fields : List (String × Value))
  deriving Repr, Inhabited

/-- The fields of an object, by ascending name. -/
abbrev Fields := NameMap Value

/-- The range of integers that a document keeps as integers. -/
def keepsInteger (n : Int) : Prop := -9223372036854775808 ≤ n ∧ n ≤ 18446744073709551615

instance (n : Int) : Decidable (keepsInteger n) := by unfold keepsInteger; infer_instance

end WorkQueue.Json
