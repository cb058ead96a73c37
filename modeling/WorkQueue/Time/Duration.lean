import WorkQueue.Text.Decimal

/-! # Spans of time

A span is a 64 bit number of seconds and a part of a second. Points in time are
nanoseconds after an origin.
-/
namespace WorkQueue

def nanosPerSecond : Nat := 1000000000

def nanosPerMilli : Nat := 1000000

/-- A span of time. -/
structure Duration where
  seconds : UInt64
  nanos : Nat
  nanos_lt : nanos < 1000000000 := by omega
  deriving DecidableEq, Repr

/-- Nanoseconds after an origin. -/
abbrev Instant := Nat

namespace Duration

def zero : Duration := ⟨0, 0, by decide⟩

instance : Inhabited Duration := ⟨zero⟩

def ofSeconds (n : UInt64) : Duration := ⟨n, 0, by decide⟩

def ofMillis (n : UInt64) : Duration :=
  ⟨n / 1000, n.toNat % 1000 * 1000000, by omega⟩

def toNanos (d : Duration) : Nat := d.seconds.toNat * nanosPerSecond + d.nanos

def isZero (d : Duration) : Bool := d.toNanos == 0

/-- The whole milliseconds of the span, in 64 bits. -/
def millis (d : Duration) : UInt64 := UInt64.ofNat (d.toNanos / nanosPerMilli)

/-- The greatest value of 32 signed bits. -/
def maxInt32 : UInt64 := 2147483647

/-- The seconds that cover the span, as a database takes them. The count of seconds is
raised by one for a part of a second, in 64 bits, and is then limited to 32 signed bits. -/
def wholeSeconds (d : Duration) : UInt64 :=
  let seconds := d.seconds + (if 0 < d.nanos then 1 else 0)
  if seconds ≤ maxInt32 then seconds else maxInt32

end Duration
end WorkQueue
