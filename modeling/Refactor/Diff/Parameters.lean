import Refactor.Refactoring
import Refactor.Statement.Compare

/-!
# Comparing parameters

The parameters of two operations are compared place by place. Different names are a renaming,
equal names with different types a change of type; what the new operation has beyond the old
one's number was added. A parameter that is gone is no refactoring.

The same pair of names counts as a renaming only once. When a name is renamed in two ways, the
way that appears last is the one that statements are compared by.
-/

namespace Refactor.Diff

/-- What comparing the parameters of two operations gives. -/
structure ParameterMapping where
  renames : Renaming := {}
  refactorings : List Refactoring := []

/-- Whether the first parameters stand for the object that a method belongs to. -/
def sharesReceiver (old new : Operation) : Bool :=
  Language.ofPath? old.location.file == some .python &&
    (old.parameters.head?.map Parameter.name == some "self") &&
    (new.parameters.head?.map Parameter.name == some "self")

/-- The parameters at the same places. A shared receiver is left out. -/
def alignedParameters (old new : Operation) : List (Parameter × Parameter) :=
  (old.parameters.zip new.parameters).drop (if sharesReceiver old new then 1 else 0)

/-- The state of going through the places: the pairs of names seen, and what was found. -/
structure ParameterScan where
  seen : List (String × String) := []
  found : ParameterMapping := {}

/-- Looks at one place. -/
def ParameterScan.step (operation : Operation) (scan : ParameterScan)
    (place : Parameter × Parameter) : ParameterScan :=
  let (before, after) := place
  if before.name ≠ after.name then
    if scan.seen.contains (before.name, after.name) then scan
    else
      { seen := scan.seen ++ [(before.name, after.name)]
        found :=
          { renames := scan.found.renames.insert before.name after.name
            refactorings :=
              scan.found.refactorings ++ [.renameParameter before after operation] } }
  else if before.type != after.type then
    { scan with found.refactorings :=
        scan.found.refactorings ++ [.changeParameterType before after operation] }
  else scan

namespace ParameterMapping

/-- Compares the parameters of two operations. -/
def between (old new : Operation) : ParameterMapping :=
  let scan := (alignedParameters old new).foldl (ParameterScan.step new) {}
  let added := (new.parameters.drop old.parameters.length).map fun p =>
    Refactoring.addParameter p new
  { scan.found with refactorings := scan.found.refactorings ++ added }

/-- The name that a parameter has in the new operation. -/
def mappedName (m : ParameterMapping) (name : String) : String :=
  (m.renames.get? name).getD name

def isRenamed (m : ParameterMapping) (old new : String) : Bool :=
  m.renames.get? old == some new

end ParameterMapping

end Refactor.Diff
