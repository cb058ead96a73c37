import WorkQueue.ProcessorState
import WorkQueue.Queue.Message

/-! # Statements

What the service asks a database for. A queue is operated on by functions of the database;
spans of time are handed to them in whole seconds. Everything that a caller chooses is a
parameter of the statement and never a part of its text.
-/
namespace WorkQueue.Database

inductive Parameter
  | text (s : String)
  | integer (n : Int)
  deriving DecidableEq, Repr

structure Statement where
  text : String
  parameters : List Parameter := []
  deriving DecidableEq, Repr

namespace Statement

def span (d : Duration) : Parameter := .integer d.wholeSeconds.toNat

def checkHealth : Statement := { text := "SELECT 1" }

def createQueue (queue : String) : Statement :=
  { text := "SELECT pgmq.create($1)", parameters := [.text queue] }

def send (queue body : String) (delay : Duration) : Statement :=
  { text := "SELECT pgmq.send($1, $2::jsonb, $3)"
    parameters := [.text queue, .text body, span delay] }

def receive (queue : String) (invisibility : Duration) : Statement :=
  { text := "SELECT msg_id, read_ct, enqueued_at, vt, message::text FROM pgmq.read($1, $2, 1)"
    parameters := [.text queue, span invisibility] }

def delete (queue : String) (id : Int) : Statement :=
  { text := "SELECT pgmq.delete($1, $2)", parameters := [.text queue, .integer id] }

def recordState (replica : String) (state : ProcessorState) : Statement :=
  { text := "INSERT INTO work_item_processor_state (replica_name, state, updated_at) " ++
      "VALUES ($1, $2, now()) ON CONFLICT (replica_name) " ++
      "DO UPDATE SET state = EXCLUDED.state, updated_at = EXCLUDED.updated_at"
    parameters := [.text replica, .text state.name] }

def recordedStates : Statement :=
  { text := "SELECT replica_name, state, updated_at FROM work_item_processor_state " ++
      "ORDER BY replica_name" }

end Statement
end WorkQueue.Database
