import WorkQueue.Time.Duration

/-! # Messages of a queue

Delivery is at least once. A received message stays hidden until its window ends and can be
received again after that unless it has been deleted; each receive raises its read count.
-/
namespace WorkQueue

/-- The greatest read count, in 32 signed bits. -/
def maxReadCount : Int := 2147483647

/-- The read count after one more receive. It runs through 32 signed bits and starts over from
the least of them. -/
def nextReadCount (count : Int) : Int :=
  if count = maxReadCount then -maxReadCount - 1 else count + 1

/-- A message as a receive hands it out. -/
structure Delivery where
  id : Int
  readCount : Int
  visibleAgain : Instant
  body : String
  deriving DecidableEq, Repr

/-- The number of the delivery attempt; a negative count stands for none. -/
def deliveryCount (readCount : Int) : Nat := readCount.toNat

def Delivery.attempt (d : Delivery) : Nat := deliveryCount d.readCount

/-- The acknowledgement of a sent message. -/
structure Receipt where
  queue : String
  id : Int
  deriving DecidableEq, Repr

end WorkQueue
