import Refactor.Diff.Bodies
import Refactor.Diff.Names
import Refactor.Model.CodeModel

/-!
# Comparing models

The operations of two models are matched one to one: first those with the same signature, then
those that are left, by related names and similar bodies. In that second round each old
operation in turn takes the best of the new ones that are still free.

A signature is the qualified name, with the types of the parameters unless the old model is in
Python. When several operations of a model have one signature, the last of them stands at the
first one's place.
-/

namespace Refactor.Diff

/-! ## Signatures -/

/-- What operations are matched by at first. -/
def signatureKey (old : CodeModel) (o : Operation) : String :=
  o.qualifiedName ++ "(" ++
    (if old.isPython then "" else Text.join "," (o.parameters.map fun p => p.type.name)) ++ ")"

/-- Operations by their signatures, in order of first appearance. -/
abbrev OperationIndex := List (String × Operation)

namespace OperationIndex

/-- Puts an operation over the earlier one of its signature, or at the end. -/
def insert (key : String) (o : Operation) : OperationIndex → OperationIndex
  | [] => [(key, o)]
  | (k, other) :: rest =>
    if k = key then (k, o) :: rest else (k, other) :: insert key o rest

/-- The operations of a list by their signatures. -/
def ofOperations (keyOf : Operation → String) (operations : List Operation) : OperationIndex :=
  operations.foldl (fun index o => insert (keyOf o) o index) []

def get? (index : OperationIndex) (key : String) : Option Operation :=
  index.lookup key

def contains (index : OperationIndex) (key : String) : Bool :=
  (index.get? key).isSome

end OperationIndex

/-! ## Matching -/

/-- The pairs of operations with the same signature, in the old order. -/
def exactMatches (config : Config) (old new : OperationIndex) : List OperationMapping :=
  old.filterMap fun (key, o) => (new.get? key).map (OperationMapping.between config o)

/-- A candidate to match an old operation with: its place among the free ones, and the pair. -/
structure Candidate where
  place : Nat
  mapping : OperationMapping

/-- The score that a next candidate has to exceed. -/
def bestScore (best : Option Candidate) : Binary64 :=
  (best.map fun candidate => candidate.mapping.score).getD .zero

/-- Keeps the better of the best candidate so far and a free operation. One that is not better,
or not similar enough, changes nothing. -/
def better (config : Config) (old : Operation) (best : Option Candidate)
    (free : (String × Operation) × Nat) : Option Candidate :=
  let ((_, new), place) := free
  if Names.related config.maxDistance old.name new.name then
    let mapping := OperationMapping.between config old new
    if (bestScore best).lt mapping.score ∧ config.threshold.le mapping.score then
      some ⟨place, mapping⟩
    else best
  else best

/-- The best of the free operations to match an old one with. -/
def bestMatch? (config : Config) (old : Operation) (free : OperationIndex) : Option Candidate :=
  free.zipIdx.foldl (better config old) none

/-- Lets each old operation in turn take the best of the free ones. -/
def fuzzyMatches (config : Config) : OperationIndex → OperationIndex → List OperationMapping
  | [], _ => []
  | (_, o) :: rest, free =>
    match bestMatch? config o free with
    | some candidate =>
      candidate.mapping :: fuzzyMatches config rest (free.eraseIdx candidate.place)
    | none => fuzzyMatches config rest free

/-- Matches the operations of two models. -/
def matchOperations (config : Config) (old new : CodeModel) : List OperationMapping :=
  let keyOf := signatureKey old
  let oldIndex := OperationIndex.ofOperations keyOf old.allOperations
  let newIndex := OperationIndex.ofOperations keyOf new.allOperations
  exactMatches config oldIndex newIndex ++
    fuzzyMatches config (oldIndex.filter fun entry => !newIndex.contains entry.1)
      (newIndex.filter fun entry => !oldIndex.contains entry.1)

/-- The refactorings that lead from one model to another. -/
def detect (config : Config) (old new : CodeModel) : List Refactoring :=
  (matchOperations config old new).flatMap OperationMapping.refactorings

end Refactor.Diff
