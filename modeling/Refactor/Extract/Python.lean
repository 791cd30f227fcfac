import Refactor.Extract.Walk

/-!
# Models of Python files

Classes, functions with their decorators, parameters, class and instance attributes, imports
and documentation strings. Function bodies are not walked, so nothing nested in a function
enters the model; they are only searched for attributes assigned to `self`.
-/

namespace Refactor.Extract.Python

/-- The nodes that matter. -/
inductive Construct
  | wholeModule
  | classDefinition
  | functionDefinition
  | expressionStatement
  | importStatement
  | importFromStatement
  | other
  deriving DecidableEq, Repr

def Construct.ofKind (kind : String) : Construct :=
  if kind = "module" then wholeModule
  else if kind = "class_definition" then classDefinition
  else if kind = "function_definition" then functionDefinition
  else if kind = "expression_statement" then expressionStatement
  else if kind = "import_statement" then importStatement
  else if kind = "import_from_statement" then importFromStatement
  else other

/-- The module that a path names: `pkg/util.py` is `pkg.util`. -/
def moduleName (path : String) : String :=
  Path.withSeparator "." (Path.stem path)

/-! ## Types -/

/-- The node that an annotation wraps. -/
def unwrapType (t : SyntaxTree) (i : NodeId) : NodeId :=
  if t.kind i = "type" then (t.firstNamedChild? i).getD i else i

/-- The text of a type annotation, to a depth: a generic type is its base and its arguments in
brackets, each written the same way. -/
def typeText (t : SyntaxTree) : Nat → NodeId → String
  | 0, i => t.text (unwrapType t i)
  | depth + 1, i =>
    let target := unwrapType t i
    if t.kind target = "generic_type" then
      let base := ((t.firstNamedChild? target).map t.text).getD ""
      let arguments :=
        match t.childOfKind? target "type_parameter" with
        | some list => (t.namedChildren list).map (typeText t depth)
        | none => []
      base ++ "[" ++ Text.join ", " arguments ++ "]"
    else t.text target

def typeAt (t : SyntaxTree) (i : NodeId) : TypeRef :=
  .named (typeText t t.size i)

/-- The type in a field, or a type of the given name. -/
def typeInField (t : SyntaxTree) (i : NodeId) (field fallback : String) : TypeRef :=
  match t.childInField? i field with
  | some node => typeAt t node
  | none => .named fallback

/-! ## Decorators and documentation -/

/-- Removes one pair of parentheses around a text. -/
def stripParentheses (text : String) : String :=
  let inner :=
    match Text.stripLead? ['('] text.toList with
    | some rest => Text.stripTail? [')'] rest
    | none => none
  (inner.map String.ofList).getD text

/-- The annotation that a decorator is. A call gives the called name and one argument text. -/
def annotationAt (f : File) (i : NodeId) : Except Error (Option Annotation) := do
  let t := f.tree
  let some expression := t.firstNamedChild? i | return none
  let location ← f.locate i .annotationUse
  if t.kind expression = "call" then
    let some function := t.childInField? expression "function" | return none
    let values :=
      match t.childInField? expression "arguments" with
      | some arguments => [("value", stripParentheses (t.text arguments))]
      | none => []
    return some { name := t.text function, location := location, values := values }
  else
    return some { name := t.text expression, location := location }

/-- The decorators of a definition, which stand beside it in a common node. -/
def decorators (f : File) (definition : NodeId) : Except Error (List Annotation) :=
  match f.tree.parent? definition with
  | some parent =>
    if f.tree.kind parent = "decorated_definition" then
      collect (annotationAt f) (f.tree.childrenOfKind parent "decorator")
    else .ok []
  | none => .ok []

/-- The string that a body begins with. -/
def docstring (f : File) (body : NodeId) : Except Error (Option Comment) := do
  let t := f.tree
  let some first := t.firstNamedChild? body | return none
  if t.kind first ≠ "expression_statement" then return none
  let some string := t.firstNamedChild? first | return none
  if t.kind string ≠ "string" then return none
  let location ← f.locate string .docComment
  return some { text := t.text string, location := location, kind := .doc }

/-! ## Parameters -/

/-- The parts of a parameter. -/
structure ParameterParts where
  name : NodeId
  type : Option NodeId := none
  value : Option NodeId := none
  isVarargs : Bool := false

def isSplat (kind : String) : Bool :=
  kind == "list_splat_pattern" || kind == "dictionary_splat_pattern"

/-- The parts of a parameter node; nothing for a node that is no parameter or has no name. -/
def parameterParts? (t : SyntaxTree) (i : NodeId) : Option ParameterParts :=
  let kind := t.kind i
  if kind = "identifier" then some { name := i }
  else if kind = "typed_parameter" then
    (t.firstNamedChild? i).bind fun first =>
      let splat := isSplat (t.kind first)
      (if splat then t.childOfKind? first "identifier" else some first).map fun name =>
        { name := name, type := t.childInField? i "type", isVarargs := splat }
  else if kind = "default_parameter" then
    (t.childInField? i "name").map fun name => { name := name, value := t.childInField? i "value" }
  else if kind = "typed_default_parameter" then
    (t.childInField? i "name").map fun name =>
      { name := name, type := t.childInField? i "type", value := t.childInField? i "value" }
  else if isSplat kind then
    (t.childOfKind? i "identifier").map fun name => { name := name, isVarargs := true }
  else none

/-- The parameters of a list of nodes. A bare star makes those after it keyword-only. -/
def parametersFrom (f : File) : Bool → List NodeId → Except Error (List Parameter)
  | _, [] => .ok []
  | keywordOnly, i :: rest =>
    if f.tree.kind i = "keyword_separator" then parametersFrom f true rest
    else
      match parameterParts? f.tree i with
      | none => parametersFrom f keywordOnly rest
      | some parts => do
        let location ← f.locate i .parameterDeclaration
        let others ← parametersFrom f keywordOnly rest
        let parameter : Parameter :=
          { name := f.tree.text parts.name
            type := (parts.type.map (typeAt f.tree)).getD (.named "object")
            location := location
            defaultValue := parts.value.map f.tree.text
            isVarargs := parts.isVarargs
            isKeywordOnly := keywordOnly }
        return parameter :: others

/-- The parameters of a function. -/
def parametersOf (f : File) (function : NodeId) : Except Error (List Parameter) :=
  match f.tree.childInField? function "parameters" with
  | some list => parametersFrom f false (f.tree.namedChildren list)
  | none => .ok []

/-! ## Attributes -/

/-- The attribute that an assignment gives a value to. -/
def attributeAt (f : File) (assignment : NodeId) (name : String) : Except Error Attribute := do
  let location ← f.locate assignment .fieldDeclaration
  return {
    name := name
    type := typeInField f.tree assignment "type" "object"
    location := location
    initialValue := f.tree.fieldText? assignment "right"
    visibility := .ofUnderscores name }

/-- The name of the attribute of `self` that is assigned to. -/
def selfTarget? (t : SyntaxTree) (assignment : NodeId) : Option String :=
  (t.childInField? assignment "left").bind fun left =>
    if t.kind left = "attribute" ∧ t.fieldText? left "object" = some "self" then
      t.fieldText? left "attribute"
    else none

/-- Adds an attribute whose name the class does not know yet. -/
def addNewAttribute (c : Class) (a : Attribute) : Class :=
  if (c.attribute? a.name).isSome then c else c.addAttribute a

/-- Adds the attribute of `self` that an assignment gives a value to, if there is one and the class
does not know it yet. -/
def collectAttribute (f : File) (assignment : NodeId) : Extraction Unit :=
  (selfTarget? f.tree assignment).toList.forM fun name => do
    let assigned ← attributeAt f assignment name
    modifyClass fun c => addNewAttribute c assigned

/-- Adds the attributes of `self` that a body assigns to, functions and classes in it apart. -/
def collectAttributes (f : File) (body : NodeId) : Extraction Unit :=
  (f.tree.descendantsWithin body "assignment" ["function_definition", "class_definition"]).forM
    (collectAttribute f)

/-! ## Visiting -/

/-- A module: its name, its comments, then everything in it. -/
def visitModule (f : File) (i : NodeId) : Extraction Plan := do
  modifyModel fun m => m.setPackage f.path (moduleName f.path)
  recordComments f i
  return { inside := f.tree.children i }

/-- The base classes that a class names. -/
def superclasses (t : SyntaxTree) (i : NodeId) : List String :=
  match t.childInField? i "superclasses" with
  | some list =>
    ((t.namedChildren list).filter fun base => t.kind base != "keyword_argument").map t.text
  | none => []

/-- A class as it stands before its body is walked. -/
def classAt (f : File) (ctx : Context) (i name body : NodeId) : Except Error Class := do
  let t := f.tree
  let name := t.text name
  let location ← f.locate i .classDeclaration
  let annotations ← decorators f i
  let comment ← docstring f body
  let opened : Class :=
    { package := moduleName f.path
      name := name
      location := location
      visibility := .ofUnderscores name
      isInner := ctx.inClass }
  let opened := (superclasses t i).foldl Class.addSuperclass opened
  let opened :=
    { opened with isAbstract := opened.superclasses.any fun s => s == "ABC" || s == "abc.ABC" }
  let opened := annotations.foldl Class.addAnnotation opened
  return comment.toList.foldl Class.addComment opened

/-- A class with an abstract method is abstract. -/
def finishClass (c : Class) : Class :=
  { c with isAbstract := c.isAbstract || c.operations.any Operation.isAbstract }

/-- A class with a name and a body; its body is walked. -/
def visitClass (f : File) (i : NodeId) : Extraction Plan := do
  match f.tree.childInField? i "name", f.tree.childInField? i "body" with
  | some name, some body =>
    let opened ← classAt f (← getContext) i name body
    return {
      inside := f.tree.children body
      enclosure := .classBody opened .publicAccess finishClass }
  | _, _ => return .stop

/-- Notes what a decorator says about an operation. -/
def decorate (o : Operation) (a : Annotation) : Operation :=
  let o :=
    if a.simpleName = "staticmethod" then { o with isStatic := true }
    else if a.simpleName = "abstractmethod" then { o with isAbstract := true }
    else o
  o.addAnnotation a

/-- The operation that a function definition is. -/
def operationAt (f : File) (ctx : Context) (i nameNode : NodeId) : Except Error Operation := do
  let t := f.tree
  let name := t.text nameNode
  let location ← f.locate i .methodDeclaration
  let annotations ← decorators f i
  let parameters ← parametersOf f i
  let body := t.childInField? i "body"
  let comment ←
    match body with
    | some body => docstring f body
    | none => .ok none
  let operation : Operation :=
    { name := name
      location := location
      visibility := .ofUnderscores name
      isAsync := t.hasChildOfKind i "async"
      isConstructor := ctx.inClass && name == "__init__"
      parameters := parameters
      returnType := some (typeInField t i "return_type" "None")
      body := body.map t.text }
  let operation := annotations.foldl decorate operation
  return comment.toList.foldl Operation.addComment operation

/-- A function. Inside of a class its body may bring attributes of the instances. -/
def visitFunction (f : File) (i : NodeId) : Extraction Plan := do
  let some nameNode := f.tree.childInField? i "name" | return .stop
  let ctx ← getContext
  let operation ← operationAt f ctx i nameNode
  if ctx.inClass then
    if let some body := f.tree.childInField? i "body" then
      (Enclosure.functionBody (f.tree.text nameNode)).around (collectAttributes f body)
  recordOperation operation
  return .stop

/-- An assignment to a name directly in a class body is an attribute of the class. -/
def visitStatement (f : File) (i : NodeId) : Extraction Plan := do
  let t := f.tree
  if !(← getContext).inClassBody then return .stop
  let some assignment := t.childOfKind? i "assignment" | return .stop
  let some left := t.childInField? assignment "left" | return .stop
  if t.kind left ≠ "identifier" then return .stop
  let assigned ← attributeAt f assignment (t.text left)
  modifyClass fun c => c.addAttribute { assigned with isStatic := true }
  return .stop

/-! ## Imports -/

/-- The name under a module. A relative module that ends in a dot needs no other. -/
def underModule (moduleText name : String) : String :=
  if moduleText.toList.getLast? = some '.' then moduleText ++ name else moduleText ++ "." ++ name

/-- What an import clause names, and the name it gives. -/
def importedName (t : SyntaxTree) (i : NodeId) : String × Option String :=
  if t.kind i = "aliased_import" then ((t.fieldText? i "name").getD "", t.fieldText? i "alias")
  else (t.text i, none)

/-- The imports of a plain import statement. -/
def plainImports (f : File) (i : NodeId) : Except Error (List Import) :=
  (f.tree.childrenInField i "name").mapM fun clause => do
    let (name, bound) := importedName f.tree clause
    let location ← f.locate clause .importDeclaration
    return { name := name, kind := .single, location := location, boundName := bound }

/-- The imports from one module: everything first, then name by name. -/
def importsFrom (f : File) (i source : NodeId) : Except Error (List Import) := do
  let t := f.tree
  let kind := if t.kind source = "relative_import" then ImportKind.relative else .single
  let everything ←
    match t.childOfKind? i "wildcard_import" with
    | some star => do
      let location ← f.locate star .importDeclaration
      pure [{ name := underModule (t.text source) "*", kind := .wildcard, location := location }]
    | none => pure []
  let named ← (t.childrenInField i "name").mapM fun clause => do
    let (name, bound) := importedName t clause
    let location ← f.locate clause .importDeclaration
    return ({ name := underModule (t.text source) name, kind := kind, location := location,
              boundName := bound } : Import)
  return everything ++ named

/-- The imports of a statement of either form. -/
def importsAt (f : File) (i : NodeId) : Except Error (List Import) :=
  if f.tree.kind i = "import_statement" then plainImports f i
  else
    match f.tree.childInField? i "module_name" with
    | some source => importsFrom f i source
    | none => .ok []

def visitImport (f : File) (i : NodeId) : Extraction Plan := do
  let imports ← importsAt f i
  imports.forM (recordImport f)
  return .stop

/-- What to do on reaching a node. -/
def visit (f : File) (i : NodeId) : Extraction Plan :=
  match Construct.ofKind (f.tree.kind i) with
  | .wholeModule => visitModule f i
  | .classDefinition => visitClass f i
  | .functionDefinition => visitFunction f i
  | .expressionStatement => visitStatement f i
  | .importStatement | .importFromStatement => visitImport f i
  | .other => return { inside := f.tree.children i }

/-- The model of a file. The root is taken for a module whatever its kind. -/
def model (f : File) : Except Error CodeModel :=
  modelOf .python f do follow f.tree (visit f) (← visitModule f SyntaxTree.root)

end Refactor.Extract.Python
