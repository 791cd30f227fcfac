import Refactor.Model.Attribute
import Refactor.Model.LocationIndex
import Refactor.Model.Operation

/-!
# Classes

A class with its members. A member added to a class takes the class's name, and equal members
are added once. Two classes are the same when package, name and location agree.
-/

namespace Refactor

structure Class where
  package : String
  name : String
  location : Location
  operations : List Operation := []
  attributes : List Attribute := []
  superclasses : List String := []
  interfaces : List String := []
  annotations : List Annotation := []
  comments : List Comment := []
  visibility : Visibility := .publicAccess
  isAbstract : Bool := false
  isInterface : Bool := false
  isFinal : Bool := false
  isStatic : Bool := false
  isEnum : Bool := false
  isRecord : Bool := false
  isInner : Bool := false
  isTemplate : Bool := false
  operationIndex : LocationIndex := {}
  attributeIndex : LocationIndex := {}

/-- Changes the first element that satisfies `p`; `none` when there is none. -/
def modifyFirst? (p : α → Bool) (f : α → α) : List α → Option (List α)
  | [] => none
  | a :: rest => if p a then some (f a :: rest) else (modifyFirst? p f rest).map (a :: ·)

namespace Class

def same (a b : Class) : Bool :=
  a.package == b.package && a.name == b.name && a.location == b.location

instance : BEq Class := ⟨same⟩

/-- The name, preceded by that of the package. -/
def qualifiedName (c : Class) : String :=
  if c.package = "" then c.name else c.package ++ "." ++ c.name

/-- Adds an operation, which takes the class's name. -/
def addOperation (c : Class) (o : Operation) : Class :=
  let (index, operations, _) := c.operationIndex.pushUnique Operation.location c.operations
    { o with className := some c.name }
  { c with operations := operations, operationIndex := index }

/-- Adds an attribute, which takes the class's name. -/
def addAttribute (c : Class) (a : Attribute) : Class :=
  let (index, attributes, _) := c.attributeIndex.pushUnique Attribute.location c.attributes
    { a with className := some c.name }
  { c with attributes := attributes, attributeIndex := index }

def addSuperclass (c : Class) (name : String) : Class :=
  { c with superclasses := appendNew c.superclasses name }

def addInterface (c : Class) (name : String) : Class :=
  { c with interfaces := appendNew c.interfaces name }

def addAnnotation (c : Class) (a : Annotation) : Class :=
  { c with annotations := appendNew c.annotations a }

def addComment (c : Class) (comment : Comment) : Class :=
  { c with comments := appendNew c.comments comment }

/-- The first operation of the given name. -/
def operation? (c : Class) (name : String) : Option Operation :=
  c.operations.find? fun o => o.name == name

/-- The first attribute of the given name. -/
def attribute? (c : Class) (name : String) : Option Attribute :=
  c.attributes.find? fun a => a.name == name

/-- Changes the first operation of the given name in place. -/
def modifyOperation? (c : Class) (name : String) (f : Operation → Operation) : Option Class :=
  (modifyFirst? (fun o => o.name == name) f c.operations).map fun operations =>
    { c with operations := operations }

/-- Changes the first attribute of the given name in place. -/
def modifyAttribute? (c : Class) (name : String) (f : Attribute → Attribute) : Option Class :=
  (modifyFirst? (fun a => a.name == name) f c.attributes).map fun attributes =>
    { c with attributes := attributes }

/-- Whether an annotation has exactly this name. -/
def hasAnnotation (c : Class) (name : String) : Bool :=
  c.annotations.any fun a => a.name == name

end Class

end Refactor
