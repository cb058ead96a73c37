import WorkQueue.Payload.Catalog
import WorkQueue.Failure.Named
import WorkQueue.Handler

/-! # The handlers at hand

One handler for each payload type that is handled at all. A job's handler counts the
attempts at each identity and behaves as the job says.
-/
namespace WorkQueue

/-- How many attempts were made at each identity. -/
abbrev Attempts := List (String × Nat)

/-- Counts one more attempt at an identity. -/
def Attempts.next (counts : Attempts) (id : String) : Attempts × Nat :=
  match counts.lookup id with
  | none => ((id, 1) :: counts, 1)
  | some n => (counts.map fun e => if e.1 = id then (id, n + 1) else e, n + 1)

namespace Activity

/-- Reports that a work item is done with, and ends. -/
def processed (id : String) : Activity := .report (.ended id) (.done (.ok ()))

def ofText (p : TextItem) : Activity :=
  .unlessCancelled (.report (.logged p.id p.text) (.done (.ok ())))

/-- Charges an invoice; there has to be an amount. -/
def ofInvoice (p : SendInvoice) : Activity :=
  if p.amountCents = 0 then .done (.error (.other "nothing to charge")) else processed p.id

def ofResize (p : ResizeImage) : Activity :=
  if p.width = 0 then .done (.error (.nonRetriable "width must be positive")) else processed p.id

/-- What a job does once it has slept. -/
def afterSleep (p : Job) (attempt : Nat) : Activity :=
  if attempt ≤ p.failTimes.toNat then
    .done (.error (.other s!"transient failure on attempt {attempt}"))
  else
    match p.error with
    | some description => .done (.error (Failure.described description))
    | none =>
      if p.blockUntilCancelled then .untilCancelled
      else if p.hold then .untilReleased (processed p.id)
      else processed p.id

def ofJob (p : Job) (attempt : Nat) : Activity :=
  .report (.began p.id attempt) (.sleep (.ofMillis p.sleepMs) (afterSleep p attempt))

end Activity

def AnyPayload.handle (p : AnyPayload) (counts : Attempts) : Attempts × Activity :=
  match p with
  | ⟨.text, item⟩ => (counts, .ofText item)
  | ⟨.buildFlow, item⟩ => (counts, .processed item.id)
  | ⟨.sendInvoice, item⟩ => (counts, .ofInvoice item)
  | ⟨.resizeImage, item⟩ => (counts, .ofResize item)
  | ⟨.job, item⟩ =>
    let (counts, attempt) := counts.next item.id
    (counts, .ofJob item attempt)
  | ⟨.freeForm, item⟩ => (counts, .processed item.id)
  | ⟨.unserializable, item⟩ => (counts, .processed item.id)

def AnyPayload.handler : Handler AnyPayload Attempts := ⟨AnyPayload.handle⟩

def Kind.registration (kind : Kind) : Registration AnyPayload :=
  { workItemType := kind.typeName
    decode := AnyPayload.decode kind
    decode_error := AnyPayload.decode_error }

end WorkQueue
