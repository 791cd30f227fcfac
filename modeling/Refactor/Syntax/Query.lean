import Refactor.Syntax.Tree

/-!
# Questions to a syntax tree

Children by kind or field, and descendants in reading order. The nodes below a node are listed
by a worklist: the first node of the list is taken, and its children are put before the rest.
A node is taken at most once, so the number of nodes bounds the number of steps.

Barriers are kinds that a listing does not enter: a barrier below the starting node is left out
with everything below it.
-/

namespace Refactor.SyntaxTree

/-! ## Children -/

def namedChildren (t : SyntaxTree) (i : NodeId) : List NodeId :=
  (t.children i).filter t.isNamed

def firstNamedChild? (t : SyntaxTree) (i : NodeId) : Option NodeId :=
  (t.namedChildren i).head?

def childrenOfKind (t : SyntaxTree) (i : NodeId) (kind : String) : List NodeId :=
  (t.children i).filter fun child => t.kind child == kind

def childOfKind? (t : SyntaxTree) (i : NodeId) (kind : String) : Option NodeId :=
  (t.children i).find? fun child => t.kind child == kind

def childOfKinds? (t : SyntaxTree) (i : NodeId) (kinds : List String) : Option NodeId :=
  (t.children i).find? fun child => kinds.contains (t.kind child)

def hasChildOfKind (t : SyntaxTree) (i : NodeId) (kind : String) : Bool :=
  (t.childOfKind? i kind).isSome

/-- The text of the first child of a kind. -/
def childText? (t : SyntaxTree) (i : NodeId) (kind : String) : Option String :=
  (t.childOfKind? i kind).map t.text

def childrenInField (t : SyntaxTree) (i : NodeId) (field : String) : List NodeId :=
  (t.children i).filter fun child => t.field? child == some field

def childInField? (t : SyntaxTree) (i : NodeId) (field : String) : Option NodeId :=
  (t.children i).find? fun child => t.field? child == some field

/-- The text of the first child in a field. -/
def fieldText? (t : SyntaxTree) (i : NodeId) (field : String) : Option String :=
  (t.childInField? i field).map t.text

/-! ## Descendants -/

/-- The nodes that a worklist leads to, in the order in which they are taken. A node that
`enter` refuses is dropped with everything below it. -/
def taken (t : SyntaxTree) (enter : NodeId → Bool) : Nat → List NodeId → List NodeId
  | 0, _ => []
  | _ + 1, [] => []
  | steps + 1, i :: rest =>
    if enter i then i :: t.taken enter steps (t.children i ++ rest)
    else t.taken enter steps rest

/-- The node and everything below it, in reading order. -/
def below (t : SyntaxTree) (i : NodeId) : List NodeId :=
  t.taken (fun _ => true) t.size [i]

/-- The node and what is below it outside of barriers, in reading order. -/
def belowWithin (t : SyntaxTree) (i : NodeId) (barriers : List String) : List NodeId :=
  t.taken (fun j => j == i || !barriers.contains (t.kind j)) t.size [i]

def descendants (t : SyntaxTree) (i : NodeId) (kind : String) : List NodeId :=
  (t.below i).filter fun j => t.kind j == kind

def firstDescendant? (t : SyntaxTree) (i : NodeId) (kind : String) : Option NodeId :=
  (t.below i).find? fun j => t.kind j == kind

def descendantsWithin (t : SyntaxTree) (i : NodeId) (kind : String) (barriers : List String) :
    List NodeId :=
  (t.belowWithin i barriers).filter fun j => t.kind j == kind

/-! ## Ancestors -/

/-- Follows parents for at most so many steps. -/
def climb (t : SyntaxTree) : Nat → NodeId → List NodeId
  | 0, _ => []
  | steps + 1, i =>
    match t.parent? i with
    | some parent => parent :: t.climb steps parent
    | none => []

/-- The parent, its parent, and so on. -/
def ancestors (t : SyntaxTree) (i : NodeId) : List NodeId :=
  t.climb t.size i

end Refactor.SyntaxTree
