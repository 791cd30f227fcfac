import Refactor.Error
import Refactor.Text.Bytes

/-!
# Syntax trees

A syntax tree is a table of nodes over a source text. A node is known by its place in the
table; the root stands first, and a node's parent stands before it. Each node has a kind, the
range of bytes that it covers, perhaps a field under which its parent knows it, and the list
of its children in reading order. Nodes that stand for a keyword or a mark of punctuation are
not named.

A tree is grown node by node: `grow` refuses a range outside of the source and a parent that is
not in the table. A node without a parent is in the table but hangs nowhere, unless it is the
root.
-/

namespace Refactor

/-- The place of a node in its table. -/
abbrev NodeId := Nat

/-- A node of a syntax tree. -/
structure SyntaxNode where
  kind : String
  field : Option String
  named : Bool
  start : Nat
  stop : Nat
  parent : Option NodeId
  children : List NodeId := []

/-- A table of nodes over a source text. -/
structure SyntaxTree where
  source : String
  nodes : Array SyntaxNode := #[]

namespace SyntaxTree

/-! ## Growing -/

/-- The number of nodes. -/
def size (t : SyntaxTree) : Nat :=
  t.nodes.size

/-- The number of bytes of the source. -/
def sourceSize (t : SyntaxTree) : Nat :=
  Text.byteLength t.source.toList

/-- Enters a node as the last child of its parent. -/
def attach (t : SyntaxTree) (node : SyntaxNode) : SyntaxTree :=
  let nodes :=
    match node.parent with
    | some parent =>
      t.nodes.modify parent fun p => { p with children := p.children ++ [t.nodes.size] }
    | none => t.nodes
  { t with nodes := nodes.push node }

/-- Adds a node without children. Its range is checked before its parent. -/
def grow (t : SyntaxTree) (node : SyntaxNode) : Except Error SyntaxTree :=
  if node.start > node.stop ∨ node.stop > t.sourceSize then
    .error (.nodeRange node.start node.stop t.sourceSize)
  else
    match node.parent with
    | some parent =>
      if parent < t.size then .ok (t.attach { node with children := [] })
      else .error (.unknownParent parent)
    | none => .ok (t.attach { node with children := [] })

/-- Offers a node to the table: the table afterwards, and the place of the node or why it was
refused. -/
def offer (t : SyntaxTree) (node : SyntaxNode) : SyntaxTree × Except Error NodeId :=
  match t.grow node with
  | .ok grown => (grown, .ok t.size)
  | .error e => (t, .error e)

/-- Adds one node after the other, up to the first that is refused. -/
def growAll (t : SyntaxTree) (nodes : List SyntaxNode) : Except Error SyntaxTree :=
  nodes.foldlM grow t

/-- A grown tree, which needs a root. -/
def finish (t : SyntaxTree) : Except Error SyntaxTree :=
  if t.size = 0 then .error .noRoot else .ok t

/-! ## Nodes -/

/-- The first node. -/
def root : NodeId := 0

/-- The node at a place. -/
def node? (t : SyntaxTree) (i : NodeId) : Option SyntaxNode :=
  t.nodes[i]?

def kind (t : SyntaxTree) (i : NodeId) : String :=
  ((t.node? i).map SyntaxNode.kind).getD ""

def field? (t : SyntaxTree) (i : NodeId) : Option String :=
  (t.node? i).bind SyntaxNode.field

def isNamed (t : SyntaxTree) (i : NodeId) : Bool :=
  ((t.node? i).map SyntaxNode.named).getD false

def parent? (t : SyntaxTree) (i : NodeId) : Option NodeId :=
  (t.node? i).bind SyntaxNode.parent

def children (t : SyntaxTree) (i : NodeId) : List NodeId :=
  ((t.node? i).map SyntaxNode.children).getD []

/-- The bytes that a node covers. -/
def range (t : SyntaxTree) (i : NodeId) : Nat × Nat :=
  ((t.node? i).map fun n => (n.start, n.stop)).getD (0, 0)

/-- The text that a node covers; nothing when it starts or ends inside a character. -/
def text (t : SyntaxTree) (i : NodeId) : String :=
  String.ofList (Text.slice t.source.toList (t.range i).1 (t.range i).2)

/-- The point of a byte offset. -/
def pointAt (t : SyntaxTree) (offset : Nat) : Point :=
  let (row, column) := Text.pointAt t.source.toList offset
  ⟨row, column⟩

def startPoint (t : SyntaxTree) (i : NodeId) : Point :=
  t.pointAt (t.range i).1

def stopPoint (t : SyntaxTree) (i : NodeId) : Point :=
  t.pointAt (t.range i).2

end SyntaxTree

end Refactor
