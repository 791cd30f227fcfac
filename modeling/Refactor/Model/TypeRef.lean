import Refactor.Model.Annotation
import Refactor.Text.Lowercase

/-!
# Types as they are mentioned

A mention of a type: its name, its arguments, array dimensions and a few marks. Two mentions
are the same type when name, arguments, dimensions and the variadic mark agree; annotations and
the container marks, which are derived from the name, do not count.
-/

namespace Refactor

/-- A mention of a type. -/
structure TypeRef where
  name : String
  arguments : List TypeRef := []
  annotations : List String := []
  dimensions : Nat := 0
  isCollection : Bool := false
  isMap : Bool := false
  isVarargs : Bool := false

namespace TypeRef

/-- A type that is just a name. -/
def named (name : String) : TypeRef :=
  { name := name }

def void : TypeRef :=
  named "void"

def array (element : String) (dimensions : Nat) : TypeRef :=
  { name := element, dimensions := dimensions }

def collection (name : String) (element : TypeRef) : TypeRef :=
  { name := name, arguments := [element], isCollection := true }

def map (name : String) (key value : TypeRef) : TypeRef :=
  { name := name, arguments := [key, value], isMap := true }

/-! ## Sameness -/

mutual

/-- Whether two mentions are of the same type. -/
def same : TypeRef → TypeRef → Bool
  | ⟨name, arguments, _, dimensions, _, _, variadic⟩,
    ⟨name', arguments', _, dimensions', _, _, variadic'⟩ =>
    name == name' && sameAll arguments arguments' && dimensions == dimensions' &&
      variadic == variadic'

/-- Whether two lists mention the same types in the same order. -/
def sameAll : List TypeRef → List TypeRef → Bool
  | [], [] => true
  | t :: ts, u :: us => same t u && sameAll ts us
  | _, _ => false

end

instance : BEq TypeRef := ⟨same⟩

mutual

theorem same_refl : ∀ t : TypeRef, same t t = true
  | ⟨_, arguments, _, _, _, _, _⟩ => by
    simp [same, sameAll_refl arguments]

theorem sameAll_refl : ∀ ts : List TypeRef, sameAll ts ts = true
  | [] => rfl
  | t :: ts => by simp [sameAll, same_refl t, sameAll_refl ts]

end

theorem name_eq_of_same {t u : TypeRef} (h : (t == u) = true) : t.name = u.name := by
  change same t u = true at h
  cases t
  cases u
  simp only [same, Bool.and_eq_true, beq_iff_eq] at h
  exact h.1.1.1

/-! ## Questions -/

def isArray (t : TypeRef) : Bool :=
  0 < t.dimensions

def isVoid (t : TypeRef) : Bool :=
  t.name == "void"

/-- The names of primitive types, in lower case. -/
def primitiveNames : List String :=
  ["byte", "short", "int", "long", "float", "double", "boolean", "char", "complex", "size_t",
    "wchar_t"]

/-- Whether the name is that of a primitive type, in any case. -/
def isPrimitive (t : TypeRef) : Bool :=
  primitiveNames.contains (Text.lowercase t.name)

/-- The package of a type that is not primitive. -/
def packageName? (t : TypeRef) : Option String :=
  if t.isPrimitive then none else Refactor.packageName? t.name

/-! ## Text -/

mutual

/-- The type as it is written. -/
def display : TypeRef → String
  | ⟨name, arguments, _, dimensions, _, _, variadic⟩ =>
    name ++
      (match displayAll arguments with
        | [] => ""
        | texts => "<" ++ Text.join ", " texts ++ ">") ++
      String.join (List.replicate dimensions "[]") ++ (if variadic then "..." else "")

def displayAll : List TypeRef → List String
  | [] => []
  | t :: ts => display t :: displayAll ts

end

end TypeRef

end Refactor
