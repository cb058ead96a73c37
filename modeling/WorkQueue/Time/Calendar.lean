/-! # The calendar

Days of the proleptic Gregorian calendar, within the years that the service can tell apart.
-/
namespace WorkQueue

structure Date where
  year : Int
  month : Nat
  day : Nat
  deriving DecidableEq, Repr

namespace Date

def firstYear : Int := -262143

def lastYear : Int := 262142

def isLeap (year : Int) : Bool := year % 4 == 0 && (year % 100 != 0 || year % 400 == 0)

def monthLength (year : Int) (month : Nat) : Nat :=
  match month with
  | 2 => if isLeap year then 29 else 28
  | 4 | 6 | 9 | 11 => 30
  | _ => 31

def IsValid (d : Date) : Prop :=
  firstYear ≤ d.year ∧ d.year ≤ lastYear ∧ 1 ≤ d.month ∧ d.month ≤ 12 ∧
    1 ≤ d.day ∧ d.day ≤ monthLength d.year d.month

instance (d : Date) : Decidable d.IsValid := inferInstanceAs (Decidable (_ ∧ _))

/-- The day, if the calendar has it. -/
def make? (year : Int) (month day : Nat) : Option Date :=
  if (Date.mk year month day).IsValid then some ⟨year, month, day⟩ else none

def next? (d : Date) : Option Date :=
  if d.day < monthLength d.year d.month then make? d.year d.month (d.day + 1)
  else if d.month < 12 then make? d.year (d.month + 1) 1
  else make? (d.year + 1) 1 1

def previous? (d : Date) : Option Date :=
  if 1 < d.day then make? d.year d.month (d.day - 1)
  else if 1 < d.month then make? d.year (d.month - 1) (monthLength d.year (d.month - 1))
  else make? (d.year - 1) 12 31

/-- A day that is made is a day of the calendar. -/
theorem isValid_of_make? {year : Int} {month day : Nat} {d : Date}
    (h : make? year month day = some d) : d.IsValid := by
  unfold make? at h
  split at h
  · cases h; assumption
  · cases h

end Date
end WorkQueue
