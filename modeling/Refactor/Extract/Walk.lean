import Refactor.Extract.Context
import Refactor.Model.Linking
import Refactor.Syntax.Query

/-!
# Walking a syntax tree

The model of a file is read off its syntax tree by one walk, which all languages share. At each
node the language says what to do by a plan: which nodes to walk next, in which enclosure, and what
to do when they have been walked. An enclosure changes the context for what is done inside of it
and puts it back afterwards, also when something fails on the way.

- `Extraction`: actions on the context and the model, which may fail and keep the state reached.
- `Enclosure.around`: acting inside of an enclosure. A class body is finished and recorded.
- `walk`: the walk, to a depth that the number of nodes bounds.
-/

namespace Refactor.Extract

/-- The file that a model is read from. -/
structure File where
  path : String
  tree : SyntaxTree

/-- What an extraction has reached: the open scopes and the model so far. -/
structure State where
  context : Context := {}
  model : CodeModel := {}

/-- Actions that change the state and may fail. The state survives a failure. -/
abbrev Extraction (α : Type) : Type :=
  ExceptT Error (StateM State) α

/-! ## Actions -/

/-- The location of a node. It fails only for a file without a name. -/
def File.locate (f : File) (i : NodeId) (kind : ElementKind) : Except Error Location :=
  Location.new f.path (f.tree.startPoint i) (f.tree.stopPoint i) kind

/-- Collects the results of those elements that have one. -/
def collect (f : α → Except Error (Option β)) : List α → Except Error (List β)
  | [] => .ok []
  | a :: rest => do
    let found ← f a
    let others ← collect f rest
    return found.toList ++ others

def getContext : Extraction Context := do
  return (← get).context

def modifyContext (f : Context → Context) : Extraction Unit :=
  modify fun s => { s with context := f s.context }

def modifyModel (f : CodeModel → CodeModel) : Extraction Unit :=
  modify fun s => { s with model := f s.model }

/-- Changes the current class, if there is one. -/
def modifyClass (f : Class → Class) : Extraction Unit :=
  modifyContext fun ctx => { ctx with currentClass := ctx.currentClass.map f }

/-- Adds an operation to the current class, or to the model outside of classes. -/
def recordOperation (o : Operation) : Extraction Unit := do
  if (← getContext).inClass then modifyClass fun c => c.addOperation o
  else modifyModel fun m => m.addOperation o

def recordImport (f : File) (i : Import) : Extraction Unit :=
  modifyModel fun m => m.addImport f.path i

/-- The comment that a node is. -/
def commentAt (f : File) (i : NodeId) : Except Error Comment := do
  let text := f.tree.text i
  let kind := Comment.classify text
  let location ← f.locate i (if kind = .doc then .docComment else .comment)
  return { text := text, location := location, kind := kind }

/-- Records every comment below a node. -/
def recordComments (f : File) (i : NodeId) : Extraction Unit :=
  (f.tree.descendants i "comment").forM fun node => do
    let comment ← commentAt f node
    modifyModel fun m => m.addComment f.path comment

/-! ## Plans -/

/-- What the context looks like inside of something. -/
inductive Enclosure
  /-- As outside. -/
  | plain
  | functionBody (name : String)
  | namespaceBody (name : String)
  | templateBody
  /-- The body of a class. Its members start with a visibility of their own, and the finished
  class is recorded after a last touch. -/
  | classBody (opened : Class) (members : Visibility) (finish : Class → Class)

/-- What to do on reaching a node: nodes to walk, around what, and what is left to do when they have
been walked. -/
structure Plan where
  inside : List NodeId := []
  enclosure : Enclosure := .plain
  after : Extraction Unit := pure ()

/-- Nothing more to walk. -/
def Plan.stop : Plan := {}

namespace Enclosure

/-- The context inside. -/
def enter (e : Enclosure) (outer : Context) : Context :=
  match e with
  | plain => outer
  | functionBody name => outer.enterFunction name
  | namespaceBody name => outer.pushNamespace name
  | templateBody => { outer with inTemplate := true }
  | classBody opened members _ =>
    (({ outer with visibility := members, inTemplate := false } : Context).enterClass opened).2

/-- The context outside again, and the class that is finished. -/
def leave (e : Enclosure) (outer inner : Context) : Option Class × Context :=
  match e with
  | plain => (none, inner)
  | functionBody _ => (none, inner.leaveFunction)
  | namespaceBody _ => (none, inner.popNamespace.2)
  | templateBody => (none, { inner with inTemplate := outer.inTemplate })
  | classBody _ _ finish =>
    let (finished, ctx) := inner.leaveClass outer.currentClass
    (finished.map finish,
      { ctx with visibility := outer.visibility, inTemplate := outer.inTemplate })

/-- Acts inside of the enclosure. The context is put back in any case; a finished class is recorded
if all went well. -/
def around (e : Enclosure) (body : Extraction Unit) : Extraction Unit :=
  ExceptT.mk fun s =>
    let (result, inner) := body.run.run { s with context := e.enter s.context }
    let (finished, context) := e.leave s.context inner.context
    match result with
    | .ok _ =>
      let model :=
        match finished with
        | some c => inner.model.addClass c
        | none => inner.model
      (.ok (), { context := context, model := model })
    | .error error => (.error error, { inner with context := context })

end Enclosure

/-! ## The walk -/

/-- Follows a plan, given how to walk a node. -/
def Plan.follow (plan : Plan) (walkNode : NodeId → Extraction Unit) : Extraction Unit := do
  plan.enclosure.around (plan.inside.forM walkNode)
  plan.after

/-- Walks a node: asks for the plan and follows it, to at most the given depth. -/
def walk (visit : NodeId → Extraction Plan) : Nat → NodeId → Extraction Unit
  | 0, _ => pure ()
  | depth + 1, i => do
    let plan ← visit i
    plan.follow (walk visit depth)

/-- Follows a plan through a tree. A child stands behind its parent in the table, so no path through
the tree is longer than the table. -/
def follow (t : SyntaxTree) (visit : NodeId → Extraction Plan) (plan : Plan) : Extraction Unit :=
  plan.follow (walk visit t.size)

/-- The model that an extraction yields from scratch. -/
def modelOf (language : Language) (f : File) (extraction : Extraction Unit) :
    Except Error CodeModel :=
  let start := (CodeModel.new (some language)).addSource f.path f.tree.source
  let (result, final) := extraction.run.run { model := start }
  result.map fun _ => final.model

end Refactor.Extract
