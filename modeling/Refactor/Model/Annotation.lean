import Refactor.Location
import Refactor.Text.Trim

/-!
# Annotations

A decorator or annotation with its arguments, as pairs of a key and a text.
-/

namespace Refactor

/-- The part of a dotted name after the last dot. -/
def simpleName (name : String) : String :=
  String.ofList (Text.afterLast ['.'] name.toList)

/-- The part of a dotted name before the last dot. -/
def packageName? (name : String) : Option String :=
  (Text.cutLast? "." name).map Prod.fst

/-- Appends an element that the list does not hold yet. -/
def appendNew [BEq α] (items : List α) (item : α) : List α :=
  if items.contains item then items else items ++ [item]

/-- An annotation of a declaration. -/
structure Annotation where
  name : String
  location : Location
  values : List (String × String) := []
  deriving DecidableEq

namespace Annotation

/-- The first value given for a key. -/
def value? (a : Annotation) (key : String) : Option String :=
  (a.values.find? fun pair => pair.1 == key).map Prod.snd

/-- The name without the module it comes from. -/
def simpleName (a : Annotation) : String :=
  Refactor.simpleName a.name

/-- The annotation as it is written. A single unnamed argument stands without its key. -/
def display (a : Annotation) : String :=
  "@" ++ a.name ++
    match a.values with
    | [] => ""
    | [("value", value)] => "(" ++ value ++ ")"
    | values => "(" ++ Text.join ", " (values.map fun pair => pair.1 ++ " = " ++ pair.2) ++ ")"

end Annotation

end Refactor
