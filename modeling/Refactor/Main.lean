import Refactor.Program
import Refactor.World.Inventory

/-!
# The command line

Reads the inventory of the world from standard input, runs the program with the arguments of the
command line, and does what the outcome says: prints, tells the errors, makes directories and
writes the report.
-/

namespace Refactor

/-- All lines up to the end of the input. -/
partial def readLines (input : IO.FS.Stream) : IO (List String) := do
  let line ← input.getLine
  if line.isEmpty then return []
  return (line.dropEndWhile '\n').toString :: (← readLines input)

/-- Does what an outcome says. -/
def perform (outcome : Program.Outcome) : IO UInt32 := do
  IO.print outcome.printed
  IO.eprint outcome.log
  for entry in outcome.written do
    match entry.content with
    | .directory => IO.FS.createDirAll entry.path
    | .file bytes => IO.FS.writeBinFile entry.path ⟨bytes.toArray⟩
    | .link _ => pure ()
  return UInt32.ofNat outcome.exitCode

end Refactor

open Refactor in
/-- Runs the program. -/
def main (args : List String) : IO UInt32 := do
  match Inventory.ofLines? (← readLines (← IO.getStdin)) with
  | none =>
    IO.eprintln "ERROR Ill-formed inventory"
    return 1
  | some inventory =>
    let threads ← IO.getEnv Program.threadsVariable
    let environment := threads.toList.map fun value => (Program.threadsVariable, value)
    perform (Program.run (inventory.world environment) args)
