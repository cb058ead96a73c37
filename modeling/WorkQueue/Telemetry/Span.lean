import WorkQueue.Telemetry.Notice

/-! # Spans

One span per delivery attempt. Its outcome is written when the attempt ends; attempts of one
consumer do not overlap, so the outcome belongs to the span that was opened last.
-/
namespace WorkQueue

structure Span where
  workItemType : String
  id : String
  attempt : Nat
  outcome : Option Outcome := none
  deriving DecidableEq, Repr

/-- Writes an outcome into the last span. -/
def Span.endLast (outcome : Outcome) : List Span → List Span
  | [] => []
  | [s] => [{ s with outcome := some outcome }]
  | s :: t :: rest => s :: endLast outcome (t :: rest)

def Span.after (spans : List Span) : Notice → List Span
  | .attemptOpened workItemType id attempt => spans ++ [⟨workItemType, id, attempt, none⟩]
  | .attemptEnded outcome => Span.endLast outcome spans
  | _ => spans

/-- The spans of a list of notices, in the order in which they were opened. -/
def spansOf (notices : List Notice) : List Span := notices.foldl Span.after []

/-- The fields of a span as text. An outcome not yet written is absent. -/
def Span.fields (s : Span) : List (String × String) :=
  [("span", "work_item.process"), ("work_item.type", s.workItemType), ("work_item.id", s.id),
    ("work_item.attempt", toString s.attempt)] ++
    (s.outcome.map fun o => ("work_item.outcome", o.name)).toList

end WorkQueue
