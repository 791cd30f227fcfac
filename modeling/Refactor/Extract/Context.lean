import Refactor.Model.Class

/-!
# Open scopes

What an extraction knows about the place it has reached: the class whose body is open, the
scopes around it, the visibility that members currently have, the namespaces, and whether a
template declaration is open. Scopes and namespaces are listed innermost first.

At most one class is current. Entering a class hands out the one around it, and leaving hands
it back in.
-/

namespace Refactor

inductive Scope
  | classBody (name : String)
  | functionBody (name : String)
  deriving DecidableEq

/-- The scopes that are open at some place of a source. -/
structure Context where
  currentClass : Option Class := none
  scopes : List Scope := []
  visibility : Visibility := .publicAccess
  namespaces : List String := []
  inTemplate : Bool := false

namespace Context

/-- Makes a class current. The class around it is handed out. -/
def enterClass (ctx : Context) (c : Class) : Option Class × Context :=
  (ctx.currentClass,
    { ctx with currentClass := some c, scopes := .classBody c.name :: ctx.scopes })

/-- Makes the class around current again. The finished class is handed out. -/
def leaveClass (ctx : Context) (outer : Option Class) : Option Class × Context :=
  let scopes :=
    match ctx.scopes with
    | .classBody _ :: rest => rest
    | scopes => scopes
  (ctx.currentClass, { ctx with currentClass := outer, scopes := scopes })

def enterFunction (ctx : Context) (name : String) : Context :=
  { ctx with scopes := .functionBody name :: ctx.scopes }

def leaveFunction (ctx : Context) : Context :=
  match ctx.scopes with
  | .functionBody _ :: rest => { ctx with scopes := rest }
  | _ => ctx

def pushNamespace (ctx : Context) (name : String) : Context :=
  { ctx with namespaces := name :: ctx.namespaces }

/-- Closes the innermost namespace, which is handed out. -/
def popNamespace (ctx : Context) : Option String × Context :=
  (ctx.namespaces.head?, { ctx with namespaces := ctx.namespaces.tail })

def inClass (ctx : Context) : Bool :=
  ctx.currentClass.isSome

/-- Whether the innermost scope is a function body. -/
def inFunction (ctx : Context) : Bool :=
  match ctx.scopes with
  | .functionBody _ :: _ => true
  | _ => false

/-- Whether the innermost scope is a class body. -/
def inClassBody (ctx : Context) : Bool :=
  match ctx.scopes with
  | .classBody _ :: _ => true
  | _ => false

def className? (ctx : Context) : Option String :=
  ctx.currentClass.map Class.name

/-- The open namespaces, outermost first. -/
def namespacePath (ctx : Context) : String :=
  Text.join "::" ctx.namespaces.reverse

end Context

end Refactor
