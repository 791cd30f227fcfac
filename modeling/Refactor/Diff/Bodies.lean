import Refactor.Diff.Alignment
import Refactor.Diff.Config
import Refactor.Diff.Parameters

/-!
# Comparing operations

Two operations are compared by their parameters and by their bodies, which are lists of
statements, one per line. The parameters give the renaming under which statements correspond.

The score of a pair is the share of statements that correspond, out of the longer body's. When
the names differ and the score reaches the threshold, the operation was renamed.
-/

namespace Refactor.Diff

/-- The statements of a body: its lines, without blanks around them and without empty ones. -/
def splitStatements (body : String) : List String :=
  ((Text.lines body).map Text.trim).filter fun line => line ≠ ""

/-- Two operations compared. -/
structure OperationMapping where
  old : Operation
  new : Operation
  renames : Renaming
  /-- The pairs of statements that correspond. -/
  statements : List StatementComparison
  refactorings : List Refactoring

/-- The statements of two bodies that correspond under a renaming: the pairs in order first. -/
def matchStatements (renames : Renaming) (old new : List String) : List StatementComparison :=
  let table := Statement.wordTable renames
  let renamed := old.map fun s => String.ofList (Statement.substitute table s.toList)
  (Alignment.pairs renamed new).filterMap fun (i, j) => do
    return StatementComparison.between renames (← old[i]?) (← new[j]?)

/-- The statements of both operations, if both have a body. -/
def bodies? (old new : Operation) : Option (List String × List String) := do
  return (splitStatements (← old.body), splitStatements (← new.body))

/-- The share that a number of pairs is of the longer list; nothing has no share. -/
def shareOf (pairs : Nat) (old new : List String) : Binary64 :=
  let longer := max old.length new.length
  if longer = 0 then .zero else .ofRatio pairs longer

namespace OperationMapping

/-- The share of statements that correspond. Without two bodies it is zero. -/
def score (m : OperationMapping) : Binary64 :=
  match bodies? m.old m.new with
  | some (old, new) => shareOf m.statements.length old new
  | none => .zero

/-- Compares two operations. -/
def between (config : Config) (old new : Operation) : OperationMapping :=
  let parameters := ParameterMapping.between old new
  let statements :=
    match bodies? old new with
    | some (before, after) => matchStatements parameters.renames before after
    | none => []
  let mapping : OperationMapping :=
    { old := old
      new := new
      renames := parameters.renames
      statements := statements
      refactorings := parameters.refactorings }
  if old.name ≠ new.name ∧ config.threshold.le mapping.score then
    { mapping with refactorings := mapping.refactorings ++ [.renameMethod old new] }
  else mapping

end OperationMapping

end Refactor.Diff
