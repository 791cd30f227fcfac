import Refactor.Model.Comment
import Refactor.Model.Parameter
import Refactor.Model.Visibility

/-!
# Operations

A function or method. One that belongs to a class carries the class's name. Two operations are
the same when name, class, parameters and location agree.
-/

namespace Refactor

structure Operation where
  name : String
  location : Location
  className : Option String := none
  returnType : Option TypeRef := none
  parameters : List Parameter := []
  body : Option String := none
  visibility : Visibility := .publicAccess
  annotations : List Annotation := []
  comments : List Comment := []
  isStatic : Bool := false
  isAbstract : Bool := false
  isFinal : Bool := false
  isConstructor : Bool := false
  isDestructor : Bool := false
  isSynchronized : Bool := false
  isNative : Bool := false
  isDefault : Bool := false
  isAsync : Bool := false
  isGenerator : Bool := false
  isVirtual : Bool := false
  isConst : Bool := false
  isInline : Bool := false
  isNoexcept : Bool := false
  isTemplate : Bool := false

namespace Operation

def same (a b : Operation) : Bool :=
  a.name == b.name && a.className == b.className && a.parameters == b.parameters &&
    a.location == b.location

instance : BEq Operation := ⟨same⟩

/-- The first parameter of the given name. -/
def parameter? (o : Operation) (name : String) : Option Parameter :=
  o.parameters.find? fun p => p.name == name

/-- Whether an annotation has this name, in full or without its module. -/
def hasAnnotation (o : Operation) (name : String) : Bool :=
  o.annotations.any fun a => a.name == name || a.simpleName == name

/-- Adds an annotation that is not there yet. -/
def addAnnotation (o : Operation) (a : Annotation) : Operation :=
  { o with annotations := appendNew o.annotations a }

/-- Adds a comment that is not there yet. -/
def addComment (o : Operation) (c : Comment) : Operation :=
  { o with comments := appendNew o.comments c }

def isInstanceMethod (o : Operation) : Bool :=
  !o.isStatic && o.className.isSome

def isClassMethod (o : Operation) : Bool :=
  o.isStatic && o.className.isSome

def isStandalone (o : Operation) : Bool :=
  o.className.isNone

/-- The name, preceded by that of the class. -/
def qualifiedName (o : Operation) : String :=
  match o.className with
  | some className => className ++ "." ++ o.name
  | none => o.name

/-- Whether both take parameters of the same types, one by one. -/
def sameParameterTypes (a b : Operation) : Bool :=
  TypeRef.sameAll (a.parameters.map Parameter.type) (b.parameters.map Parameter.type)

/-- The operation as it is declared. A constructor shows no result type. -/
def signature (o : Operation) : String :=
  String.join (o.annotations.map fun a => a.display ++ "\n") ++
    o.visibility.label ++ " " ++
    (if o.isStatic then "static " else "") ++
    (if o.isAbstract then "abstract " else "") ++
    (if o.isFinal then "final " else "") ++
    (if o.isVirtual then "virtual " else "") ++
    (if o.isInline then "inline " else "") ++
    (if o.isAsync then "async " else "") ++
    (match o.isConstructor, o.returnType with
      | false, some type => type.display ++ " "
      | _, _ => "") ++
    o.name ++ "(" ++ Text.join ", " (o.parameters.map Parameter.signature) ++ ")" ++
    (if o.isConst then " const" else "") ++
    (if o.isNoexcept then " noexcept" else "")

end Operation

end Refactor
