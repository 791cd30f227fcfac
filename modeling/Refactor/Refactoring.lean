import Refactor.Language
import Refactor.Model.Operation

/-!
# Refactorings

What a comparison of two models can find: a parameter renamed, added or given another type, and
an operation renamed. A summary says in texts and locations what a refactoring says in terms of
the two models, and is what reports are made of.
-/

namespace Refactor

/-- The kinds of refactorings. -/
inductive RefactoringKind
  | renameParameter
  | addParameter
  | changeParameterType
  | renameMethod
  deriving DecidableEq, Repr

namespace RefactoringKind

/-- All kinds, in the order in which reports list them. -/
def all : List RefactoringKind :=
  [renameParameter, addParameter, changeParameterType, renameMethod]

def displayName : RefactoringKind → String
  | renameParameter => "Rename Parameter"
  | addParameter => "Add Parameter"
  | changeParameterType => "Change Parameter Type"
  | renameMethod => "Rename Method"

end RefactoringKind

/-- A refactoring, with the elements of the two models that show it. For a change of parameters
the operation is the new one. -/
inductive Refactoring
  | renameParameter (before after : Parameter) (operation : Operation)
  | addParameter (added : Parameter) (operation : Operation)
  | changeParameterType (before after : Parameter) (operation : Operation)
  | renameMethod (before after : Operation)

/-- A refactoring in texts and locations. -/
structure Summary where
  kind : RefactoringKind
  name : String
  description : String
  language : String
  left : List Location
  right : List Location
  files : List String

namespace Refactoring

def kind : Refactoring → RefactoringKind
  | renameParameter .. => .renameParameter
  | addParameter .. => .addParameter
  | changeParameterType .. => .changeParameterType
  | renameMethod .. => .renameMethod

/-- The operation that decides on the language and the file. -/
def anchor : Refactoring → Operation
  | renameParameter _ _ operation => operation
  | addParameter _ operation => operation
  | changeParameterType _ _ operation => operation
  | renameMethod before _ => before

/-- How a description refers to an operation. -/
def ownerPhrase (o : Operation) : String :=
  (if o.className.isSome then "method '" else "function '") ++ o.qualifiedName ++ "'"

/-- The refactoring in a sentence. -/
def description : Refactoring → String
  | renameParameter before after operation =>
    "Parameter '" ++ before.name ++ "' renamed to '" ++ after.name ++ "' in " ++
      ownerPhrase operation
  | addParameter added operation =>
    "Parameter '" ++ added.name ++ "' of type '" ++ added.type.display ++ "' added to " ++
      ownerPhrase operation ++
      match added.defaultValue with
      | some value => " with default value '" ++ value ++ "'"
      | none => ""
  | changeParameterType before after operation =>
    "Parameter '" ++ before.name ++ "' type changed from '" ++ before.type.display ++ "' to '" ++
      after.type.display ++ "' in " ++ ownerPhrase operation
  | renameMethod before after =>
    (if before.className.isSome then "Method '" else "Function '") ++ before.qualifiedName ++
      "' renamed to '" ++ after.name ++ "'"

/-- The name of the language, told by the file. -/
def language (r : Refactoring) : String :=
  ((Language.ofPath? r.anchor.location.file).map Language.displayName).getD "Unknown"

/-- Where the refactoring shows in the old model. -/
def left : Refactoring → List Location
  | renameParameter before _ _ => [before.location]
  | addParameter _ operation => [operation.location]
  | changeParameterType before _ _ => [before.location]
  | renameMethod before _ => [before.location]

/-- Where the refactoring shows in the new model. -/
def right : Refactoring → List Location
  | renameParameter _ after _ => [after.location]
  | addParameter added operation => [operation.location, added.location]
  | changeParameterType _ after _ => [after.location]
  | renameMethod _ after => [after.location]

/-- The files that the refactoring involves. -/
def files (r : Refactoring) : List String :=
  let file := r.anchor.location.file
  match r with
  | renameMethod _ after => appendNew [file] after.location.file
  | _ => [file]

/-- The refactoring on one line. -/
def display (r : Refactoring) : String :=
  r.kind.displayName ++ " in " ++ r.language ++ ": " ++ r.description

def summary (r : Refactoring) : Summary :=
  { kind := r.kind
    name := r.kind.displayName
    description := r.description
    language := r.language
    left := r.left
    right := r.right
    files := r.files }

end Refactoring

/-- The summary on one line. -/
def Summary.display (s : Summary) : String :=
  s.name ++ " in " ++ s.language ++ ": " ++ s.description

end Refactor
