import WorkQueue.Database.Address
import WorkQueue.Database.Statement
import WorkQueue.Failure
import WorkQueue.Payload.Basic
import WorkQueue.Telemetry.Notice

/-! # Sessions with a database

A database is named by a URL, and what the URL leads to is reached through the network. A
session sends statements and takes the answers one by one; a statement beyond the last answer
gets no rows. Points in time are seconds. A queue operation is reported once the database has
carried it out.
-/
namespace WorkQueue.Database

inductive Cell
  | null
  | integer (n : Int)
  | text (s : String)
  deriving DecidableEq, Repr

abbrev Row := List Cell

inductive Answer
  | rows (rows : List Row)
  | refused (text : String)
  | hungUp
  deriving DecidableEq, Repr

/-- A session: the answers to come, and the statements that were sent. -/
structure Session where
  answers : List Answer := []
  statements : List Statement := []
  deriving Repr

/-- A message as the database holds it. -/
structure StoredMessage where
  id : Int
  readCount : Int
  enqueuedAt : Int
  visibleAgain : Int
  body : String
  deriving DecidableEq, Repr

/-- The recorded state of a replica, and when it was recorded. -/
structure StoredState where
  replica : String
  state : ProcessorState
  updatedAt : Int
  deriving DecidableEq, Repr

def unexpectedNull : String := "unexpected null; try decoding as an \x60Option\x60"

def integerAt (row : Row) (index : Nat) : Except DatabaseFault Int :=
  match row[index]? with
  | some (.integer n) => .ok n
  | some .null => .error (.unfitColumn index unexpectedNull)
  | _ => .error (.unfitColumn index "mismatched types")

def textAt (row : Row) (index : Nat) : Except DatabaseFault String :=
  match row[index]? with
  | some (.text s) => .ok s
  | some .null => .error (.unfitColumn index unexpectedNull)
  | _ => .error (.unfitColumn index "mismatched types")

def messageOf (row : Row) : Except DatabaseFault StoredMessage := do
  let id ← integerAt row 0
  let readCount ← integerAt row 1
  let enqueuedAt ← integerAt row 2
  let visibleAgain ← integerAt row 3
  let body ← textAt row 4
  return ⟨id, readCount, enqueuedAt, visibleAgain, body⟩

namespace Session

def execute (session : Session) (statement : Statement) :
    Session × Except DatabaseFault (List Row) :=
  let session' : Session := ⟨session.answers.tail, session.statements ++ [statement]⟩
  (session', match session.answers.head? with
    | none => .ok []
    | some (.rows rows) => .ok rows
    | some (.refused text) => .error (.refused text)
    | some .hungUp => .error .hungUp)

def query (session : Session) (statement : Statement)
    (read : List Row → Except DatabaseFault α) : Session × Except Failure α :=
  let (session, answer) := session.execute statement
  (session, (answer.bind read).mapError .queue)

/-- Reads the first of some rows, of which there has to be one. -/
def firstRow (read : Row → Except DatabaseFault α) : List Row → Except DatabaseFault α
  | [] => .error .noRow
  | row :: _ => read row

/-- The notice of a queue operation that was carried out. -/
def operated (queue : String) (operation : QueueOperation) : Except Failure α → List Notice
  | .ok _ => [.queueOperated queue operation]
  | .error _ => []

def checkHealth (session : Session) : Session × Except Failure Unit :=
  session.query .checkHealth (firstRow fun row => (integerAt row 0).map fun _ => ())

def createQueue (session : Session) (queue : String) :
    Session × Except Failure Unit × List Notice :=
  let (session, answer) := session.query (.createQueue queue) fun _ => .ok ()
  (session, answer, operated queue .create answer)

def send (session : Session) (queue body : String) (delay : Duration) :
    Session × Except Failure Receipt × List Notice :=
  let (session, answer) := session.query (.send queue body delay)
    (firstRow fun row => (integerAt row 0).map fun id => ⟨queue, id⟩)
  (session, answer, operated queue .send answer)

def receive (session : Session) (queue : String) (invisibility : Duration) :
    Session × Except Failure (Option StoredMessage) × List Notice :=
  let (session, answer) := session.query (.receive queue invisibility)
    fun rows => rows.head?.mapM messageOf
  let operation := match answer with
    | .ok (some _) => QueueOperation.read
    | _ => .readEmpty
  (session, answer, operated queue operation answer)

def delete (session : Session) (queue : String) (id : Int) :
    Session × Except Failure Unit × List Notice :=
  let (session, answer) := session.query (.delete queue id) fun _ => .ok ()
  (session, answer, operated queue .delete answer)

def produce [Payload α] (session : Session) (queue : String) (p : α) (delay : Duration) :
    Session × Except Failure Receipt × List Notice :=
  match Payload.encode p with
  | .error failure => (session, .error failure, [.produced (Payload.typeName α) false])
  | .ok body =>
    let (session, answer, notices) := session.send queue body delay
    let rest : List Notice := match answer with
      | .ok receipt =>
        [.enqueued (Payload.id p) (Payload.typeName α) receipt.id delay,
          .produced (Payload.typeName α) true]
      | .error _ => [.produced (Payload.typeName α) false]
    (session, answer, notices ++ rest)

def recordState (session : Session) (replica : String) (state : ProcessorState) :
    Session × Except Failure Unit :=
  session.query (.recordState replica state) fun _ => .ok ()

def recordedStates (session : Session) : Session × Except Failure (List StoredState) :=
  let read (row : Row) : Except DatabaseFault (String × String × Int) := do
    return (← textAt row 0, ← textAt row 1, ← integerAt row 2)
  let (session, answer) := session.query .recordedStates fun rows => rows.mapM read
  let stored (r : String × String × Int) : Except Failure StoredState :=
    (ProcessorState.parse r.2.1).map fun state => ⟨r.1, state, r.2.2⟩
  (session, answer.bind fun rows => rows.mapM stored)

end Session

/-- A session with the database that a URL names. -/
def connect (reach : Address → Except NetworkFault Session) (url : String) :
    Except Failure Session :=
  let outcome : Except DatabaseFault Session :=
    match Address.parse url with
    | .error fault => .error (.configuration fault)
    | .ok address => (reach address).mapError .unreachable
  outcome.mapError .queue

end WorkQueue.Database
