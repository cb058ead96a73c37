import WorkQueue.Program.Isolated
import WorkQueue.WorkItem.Identity

/-! # The program

The command line and the environment are read here, and what a run wrote is written out. No
connection leaves the process, so it runs as on a machine of its own.
-/
open WorkQueue

/-- A number of random bits. -/
def randomBits : IO Nat := do
  let bytes ← IO.getRandomBytes 16
  return bytes.foldl (fun n b => n * 256 + b.toNat) 0

/-- The environment, as far as settings are read from it. -/
def readEnvironment : IO (List (String × String)) := do
  let mut found := []
  for name in Settings.names do
    if let some value ← IO.getEnv name then
      found := (name, value) :: found
  return found

def main (words : List String) : IO UInt32 := do
  let environment ← readEnvironment
  let around := Program.Isolated.surroundings (fun name => environment.lookup name)
    (WorkItem.freshId (← randomBits))
  match Program.run around words with
  | .serving _ _ => return 0
  | .finished result =>
    IO.print result.output
    IO.eprint result.errors
    return UInt32.ofNat result.exit
