import WorkQueue.Database.Connection

/-! # Migrations

A database is brought up to date by migrations in order of their versions, each applied once.
What was applied has to be what is known here: a migration that stopped halfway, that is
unknown, or that has changed since stops everything.
-/
namespace WorkQueue.Database

structure Migration where
  version : Int
  text : String
  digest : String
  deriving DecidableEq, Repr

structure MigrationLog where
  halfway : Option Int := none
  applied : List (Int × String) := []
  deriving DecidableEq, Repr

inductive MigrationFault
  | halfway (version : Int)
  | unknown (version : Int)
  | changed (version : Int)
  | failed (version : Int) (fault : DatabaseFault)
  deriving DecidableEq, Repr

def MigrationFault.message : MigrationFault → String
  | .halfway version =>
    s!"migration {version} is partially applied; fix and remove row from " ++
      "\x60_sqlx_migrations\x60 table"
  | .unknown version =>
    s!"migration {version} was previously applied but is missing in the resolved migrations"
  | .changed version => s!"migration {version} was previously applied but has been modified"
  | .failed version fault => s!"while executing migration {version}: {fault.message}"

namespace Migration

def all : List Migration :=
  [{ version := 1
     text := "CREATE EXTENSION IF NOT EXISTS pgmq;"
     digest := "3d1661b9658abdc3ef4caebc4fdd85633be7943a93cd37c598d9cec0ef3a9ea2" ++
       "476252199ba99debfb774ce7d282d6f1" },
   { version := 2
     text := "-- Last known scope manager state of every consumer replica. " ++
       "CREATE TABLE IF NOT EXISTS work_item_processor_state ( " ++
       "replica_name TEXT PRIMARY KEY, " ++
       "state TEXT NOT NULL CHECK (state IN ('Working', 'Stopping', 'Stopped')), " ++
       "updated_at TIMESTAMPTZ NOT NULL DEFAULT now() );"
     digest := "53a7b0b1b4d818ec516189786eff25a26121c636243bb991946fe97b250da375" ++
       "ed0a7a3e4cc07af9734dfbdaf63337e5" }]

def pending (known : List Migration) (log : MigrationLog) :
    Except MigrationFault (List Migration) :=
  match log.halfway with
  | some version => .error (.halfway version)
  | none =>
    match log.applied.find? fun a => !known.any fun m => m.version == a.1 with
    | some a => .error (.unknown a.1)
    | none =>
      let digestOf (m : Migration) : Option String := log.applied.lookup m.version
      match known.find? fun m => (digestOf m).any (· != m.digest) with
      | some m => .error (.changed m.version)
      | none => .ok (known.filter fun m => (digestOf m).isNone)

/-- Applies migrations in order, until one fails. -/
def applyAll (session : Session) : List Migration → Session × Except MigrationFault Unit
  | [] => (session, .ok ())
  | m :: rest =>
    match session.execute { text := m.text } with
    | (session, .ok _) => applyAll session rest
    | (session, .error fault) => (session, .error (.failed m.version fault))

end Migration

/-- Brings a database up to date. -/
def Session.migrate (session : Session) (log : MigrationLog) : Session × Except Failure Unit :=
  let (session, outcome) : Session × Except MigrationFault Unit :=
    match Migration.pending Migration.all log with
    | .error fault => (session, .error fault)
    | .ok migrations => Migration.applyAll session migrations
  (session, outcome.mapError fun fault => .other s!"migration failed: {fault.message}")

end WorkQueue.Database
