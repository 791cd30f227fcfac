import Refactor.Model.Annotation

/-!
# Imports

What a file takes from elsewhere, under which name, and in which way.
-/

namespace Refactor

/-- The ways to import. -/
inductive ImportKind
  | single
  | wildcard
  /-- The default export of a module, bound to a name. -/
  | defaultBinding
  /-- A whole module, bound to a name. -/
  | namespaceBinding
  | relative
  /-- A file included, or a module loaded for its effects. -/
  | direct
  deriving DecidableEq, Repr

structure Import where
  name : String
  kind : ImportKind
  location : Location
  boundName : Option String := none
  deriving DecidableEq

namespace Import

/-- The last part of the imported name. -/
def simpleName (i : Import) : String :=
  Refactor.simpleName i.name

/-- The imported name without its last part. -/
def packageName? (i : Import) : Option String :=
  Refactor.packageName? i.name

/-- The name under which the file knows what it imports. -/
def effectiveName (i : Import) : String :=
  i.boundName.getD i.simpleName

/-- The name given to a plain import, if any. -/
def aliasClause (i : Import) : String :=
  match i.boundName with
  | some name => " as " ++ name
  | none => ""

/-- The import as it is shown. -/
def display (i : Import) : String :=
  match i.kind with
  | .single | .relative => "import " ++ i.name ++ i.aliasClause
  | .wildcard => "import * from " ++ i.name ++ i.aliasClause
  | .defaultBinding => "import " ++ i.boundName.getD "default" ++ " from " ++ i.name
  | .namespaceBinding => "import * as " ++ i.boundName.getD i.simpleName ++ " from " ++ i.name
  | .direct => "#include <" ++ i.name ++ ">"

end Import

end Refactor
