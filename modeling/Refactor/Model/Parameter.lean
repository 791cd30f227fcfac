import Refactor.Model.TypeRef

/-!
# Parameters

A parameter of an operation. Two parameters are the same when name, type and location agree.
-/

namespace Refactor

/-- Whether a parameter brings data in, carries results out, or both. -/
inductive ParameterKind
  | input
  | output
  | inOut
  deriving DecidableEq, Repr

/-- The kind that a word names, in any case. -/
def ParameterKind.parse (word : String) : Except Error ParameterKind :=
  let word := Text.lowercase word
  if word = "in" then .ok input
  else if word = "out" then .ok output
  else if word = "inout" then .ok inOut
  else .error (.unknownParameterKind word)

/-- How an argument is bound: a copy, or a reference of one of two sorts. -/
inductive Binding
  | byValue
  | reference
  | rvalueReference
  deriving DecidableEq, Repr

structure Parameter where
  name : String
  type : TypeRef
  location : Location
  annotations : List Annotation := []
  kind : ParameterKind := .input
  defaultValue : Option String := none
  binding : Binding := .byValue
  isVarargs : Bool := false
  isFinal : Bool := false
  isKeywordOnly : Bool := false
  isConst : Bool := false
  isPointer : Bool := false
  isVolatile : Bool := false

namespace Parameter

/-- Marks the parameter as a reference, or takes that mark away. -/
def setReference (p : Parameter) (marked : Bool) : Parameter :=
  if marked then { p with binding := .reference }
  else if p.binding = .reference then { p with binding := .byValue }
  else p

/-- Marks the parameter as an rvalue reference, or takes that mark away. -/
def setRvalueReference (p : Parameter) (marked : Bool) : Parameter :=
  if marked then { p with binding := .rvalueReference }
  else if p.binding = .rvalueReference then { p with binding := .byValue }
  else p

def same (p q : Parameter) : Bool :=
  p.name == q.name && p.type == q.type && p.location == q.location

instance : BEq Parameter := ⟨same⟩

def hasDefault (p : Parameter) : Bool :=
  p.defaultValue.isSome

/-- The parameter as it is declared. -/
def signature (p : Parameter) : String :=
  String.join (p.annotations.map fun a => a.display ++ " ") ++
    (if p.isConst then "const " else "") ++
    (if p.isVolatile then "volatile " else "") ++
    (if p.isFinal then "final " else "") ++
    p.type.display ++
    (if p.isPointer then "*" else "") ++
    (match p.binding with
      | .byValue => ""
      | .reference => "&"
      | .rvalueReference => "&&") ++
    (if p.isVarargs && !p.type.isVarargs then "..." else "") ++
    " " ++ p.name ++
    (match p.defaultValue with
      | some value => " = " ++ value
      | none => "")

end Parameter

end Refactor
