import Refactor.Model.Comment
import Refactor.Model.TypeRef
import Refactor.Model.Visibility

/-!
# Attributes

A field of a class, or of the instances of a class. Two attributes are the same when all their
parts agree, the types as types.
-/

namespace Refactor

structure Attribute where
  name : String
  type : TypeRef
  location : Location
  className : Option String := none
  visibility : Visibility := .publicAccess
  isStatic : Bool := false
  isFinal : Bool := false
  isVolatile : Bool := false
  isTransient : Bool := false
  isConst : Bool := false
  isReadonly : Bool := false
  initialValue : Option String := none
  annotations : List Annotation := []
  comments : List Comment := []

namespace Attribute

def same (a b : Attribute) : Bool :=
  a.name == b.name && a.type == b.type && a.location == b.location &&
    a.className == b.className && a.visibility == b.visibility && a.isStatic == b.isStatic &&
    a.isFinal == b.isFinal && a.isVolatile == b.isVolatile && a.isTransient == b.isTransient &&
    a.isConst == b.isConst && a.isReadonly == b.isReadonly && a.initialValue == b.initialValue &&
    a.annotations == b.annotations && a.comments == b.comments

instance : BEq Attribute := ⟨same⟩

/-- Whether every instance of a class has its own. -/
def isInstanceAttribute (a : Attribute) : Bool :=
  !a.isStatic && a.className.isSome

end Attribute

end Refactor
