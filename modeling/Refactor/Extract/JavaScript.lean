import Refactor.Extract.Walk

/-!
# Models of JavaScript files

Classes with their methods and fields, functions, function values that a variable is declared
with, and imports. Functions are not walked, so nothing nested in them enters the model.
Methods count inside of classes only, functions outside only.
-/

namespace Refactor.Extract.JavaScript

/-- The nodes that matter. -/
inductive Construct
  | program
  | classDeclaration
  | methodDefinition
  | functionDeclaration
  /-- An arrow function or function expression, which takes its name from a variable. -/
  | functionValue
  | fieldDefinition
  | importStatement
  | other
  deriving DecidableEq, Repr

def Construct.ofKind (kind : String) : Construct :=
  if kind = "program" then program
  else if kind = "class_declaration" then classDeclaration
  else if kind = "method_definition" then methodDefinition
  else if kind = "function_declaration" ∨ kind = "generator_function_declaration" then
    functionDeclaration
  else if kind = "arrow_function" ∨ kind = "function_expression" then functionValue
  else if kind = "field_definition" then fieldDefinition
  else if kind = "import_statement" then importStatement
  else other

/-- The module that a path names: the path without its extension. -/
def moduleName (path : String) : String :=
  Path.stem path

def anyType : TypeRef :=
  .named "any"

/-! ## Decorators -/

/-- Removes every parenthesis that opens or closes a text. -/
def stripParentheses (text : String) : String :=
  Text.trimEndBy (· == ')') (Text.trimStartBy (· == '(') text)

/-- The annotation that a decorator is. A call gives the called name and one argument text. -/
def annotationAt (f : File) (i : NodeId) : Except Error (Option Annotation) := do
  let t := f.tree
  let some expression := t.firstNamedChild? i | return none
  let location ← f.locate i .annotationUse
  let kind := t.kind expression
  if kind = "call_expression" ∨ kind = "decorator_call_expression" then
    let values :=
      match t.childInField? expression "arguments" with
      | some arguments => [("value", stripParentheses (t.text arguments))]
      | none => []
    return some
      { name := (t.fieldText? expression "function").getD "", location := location,
        values := values }
  else
    return some { name := t.text expression, location := location }

/-- The decorators that a declaration holds. -/
def decorators (f : File) (i : NodeId) : Except Error (List Annotation) :=
  collect (annotationAt f) (f.tree.childrenOfKind i "decorator")

/-! ## Parameters -/

/-- The name, default value and variadic mark of a parameter node. -/
def parameterParts? (t : SyntaxTree) (i : NodeId) : Option (String × Option String × Bool) :=
  let kind := t.kind i
  if kind = "identifier" ∨ kind = "object_pattern" ∨ kind = "array_pattern" then
    some (t.text i, none, false)
  else if kind = "rest_pattern" ∨ kind = "rest_parameter" then
    some ("..." ++ ((t.firstNamedChild? i).map t.text).getD "", none, true)
  else if kind = "assignment_pattern" then
    (t.fieldText? i "left").map fun name => (name, t.fieldText? i "right", false)
  else none

def parameterAt (f : File) (i : NodeId) : Except Error (Option Parameter) :=
  match parameterParts? f.tree i with
  | none => .ok none
  | some (name, value, isVarargs) => do
    let location ← f.locate i .parameterDeclaration
    return some
      { name := name, type := anyType, location := location, defaultValue := value,
        isVarargs := isVarargs }

/-- The parameters of a function; an arrow function may have a single one without a list. -/
def parametersOf (f : File) (function : NodeId) : Except Error (List Parameter) :=
  match f.tree.childInField? function "parameter" with
  | some single => do
    let location ← f.locate single .parameterDeclaration
    return [{ name := f.tree.text single, type := anyType, location := location }]
  | none =>
    match f.tree.childInField? function "parameters" with
    | some list => collect (parameterAt f) (f.tree.namedChildren list)
    | none => .ok []

/-! ## Visiting -/

/-- A program: its name, its comments, then everything in it. -/
def visitProgram (f : File) (i : NodeId) : Extraction Plan := do
  modifyModel fun m => m.setPackage f.path (moduleName f.path)
  recordComments f i
  return { inside := f.tree.children i }

/-- The class that a class extends. -/
def superclass? (t : SyntaxTree) (i : NodeId) : Option String :=
  ((t.childOfKind? i "class_heritage").bind t.firstNamedChild?).map t.text

/-- A class as it stands before its body is walked. -/
def classAt (f : File) (ctx : Context) (i name : NodeId) : Except Error Class := do
  let location ← f.locate i .classDeclaration
  let annotations ← decorators f i
  let opened : Class :=
    { package := moduleName f.path
      name := f.tree.text name
      location := location
      isInner := ctx.inClass }
  let opened := (superclass? f.tree i).toList.foldl Class.addSuperclass opened
  return annotations.foldl Class.addAnnotation opened

/-- A class with a name and a body; its body is walked. -/
def visitClass (f : File) (i : NodeId) : Extraction Plan := do
  match f.tree.childInField? i "name", f.tree.childInField? i "body" with
  | some name, some body =>
    let opened ← classAt f (← getContext) i name
    return { inside := f.tree.children body, enclosure := .classBody opened .publicAccess id }
  | _, _ => return .stop

/-- The name of a function: its own, or for a function value that of the variable declared
with it. -/
def operationName? (t : SyntaxTree) (i : NodeId) : Option String :=
  if Construct.ofKind (t.kind i) = .functionValue then
    (t.parent? i).bind fun declarator =>
      if t.kind declarator = "variable_declarator" then t.fieldText? declarator "name" else none
  else t.fieldText? i "name"

/-- The operation that a function is. -/
def operationAt (f : File) (ctx : Context) (i : NodeId) (name : String) :
    Except Error Operation := do
  let t := f.tree
  let location ← f.locate i .methodDeclaration
  let annotations ← decorators f i
  let parameters ← parametersOf f i
  let operation : Operation :=
    { name := name
      location := location
      visibility := .ofHashSign name
      isConstructor := ctx.inClass && name == "constructor"
      isStatic := t.hasChildOfKind i "static"
      isAsync := t.hasChildOfKind i "async"
      isGenerator := t.kind i == "generator_function_declaration" || t.hasChildOfKind i "*"
      parameters := parameters
      body := t.fieldText? i "body" }
  return annotations.foldl Operation.addAnnotation operation

/-- A function or method that has a name. -/
def visitFunction (f : File) (i : NodeId) : Extraction Plan := do
  let some name := operationName? f.tree i | return .stop
  let operation ← operationAt f (← getContext) i name
  recordOperation operation
  return .stop

/-- A field of the current class. -/
def visitField (f : File) (i : NodeId) : Extraction Plan := do
  let t := f.tree
  let some name := t.fieldText? i "property" | return .stop
  let location ← f.locate i .fieldDeclaration
  modifyClass fun c => c.addAttribute
    { name := name
      type := anyType
      location := location
      initialValue := t.fieldText? i "value"
      visibility := .ofHashSign name
      isStatic := t.hasChildOfKind i "static" }
  return .stop

/-! ## Imports -/

/-- The quotes around a module's name: the double quote, the apostrophe and the grave accent. -/
def isQuote (c : Char) : Bool :=
  c.toNat == 0x22 || c.toNat == 0x27 || c.toNat == 0x60

/-- Records one name imported from a module. -/
def recordSpecifier (f : File) (source : String) (i : NodeId) : Extraction Unit :=
  (f.tree.fieldText? i "name").toList.forM fun name => do
    let location ← f.locate i .importDeclaration
    recordImport f
      { name := source ++ "." ++ name, kind := .single, location := location,
        boundName := f.tree.fieldText? i "alias" }

/-- Records the imports of one part of an import clause. -/
def recordClause (f : File) (source : String) (location : Location) (i : NodeId) :
    Extraction Unit :=
  let t := f.tree
  let kind := t.kind i
  if kind = "identifier" then
    recordImport f { name := source, kind := .defaultBinding, location := location,
                     boundName := some (t.text i) }
  else if kind = "namespace_import" then
    recordImport f { name := source, kind := .namespaceBinding, location := location,
                     boundName := t.childText? i "identifier" }
  else if kind = "named_imports" then
    (t.childrenOfKind i "import_specifier").forM (recordSpecifier f source)
  else pure ()

/-- An import statement; one without a clause loads its module for the effects. -/
def visitImport (f : File) (i : NodeId) : Extraction Plan := do
  let t := f.tree
  let some source := t.childInField? i "source" | return .stop
  let name := Text.trimBy isQuote (t.text source)
  let location ← f.locate i .importDeclaration
  match t.childOfKind? i "import_clause" with
  | none => recordImport f { name := name, kind := .direct, location := location }
  | some clause => (t.namedChildren clause).forM (recordClause f name location)
  return .stop

/-- What to do on reaching a node. -/
def visit (f : File) (i : NodeId) : Extraction Plan := do
  match Construct.ofKind (f.tree.kind i) with
  | .program => visitProgram f i
  | .classDeclaration => visitClass f i
  | .methodDefinition =>
    if (← getContext).inClass then visitFunction f i else return .stop
  | .functionDeclaration | .functionValue =>
    if (← getContext).inClass then return .stop else visitFunction f i
  | .fieldDefinition => visitField f i
  | .importStatement => visitImport f i
  | .other => return { inside := f.tree.children i }

/-- The model of a file. The root is taken for a program whatever its kind. -/
def model (f : File) : Except Error CodeModel :=
  modelOf .javaScript f do follow f.tree (visit f) (← visitProgram f SyntaxTree.root)

end Refactor.Extract.JavaScript
