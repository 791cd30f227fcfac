import Refactor.Extract.TypeText
import Refactor.Extract.Walk

/-!
# Models of C++ files

Classes and structures, namespaces, templates, member functions declared or defined, fields,
static members initialised outside of their class, and includes. Inside of a class body the
visibility of members follows the access specifiers; outside, everything is public.

A function defined outside of its class stands among the free operations with the name of its
class, until linking moves it into its declaration.
-/

namespace Refactor.Extract.Cpp

/-- The nodes that matter. -/
inductive Construct
  | translationUnit
  | namespaceDefinition
  | classSpecifier
  | structSpecifier
  | functionDefinition
  | declaration
  | fieldDeclaration
  | accessSpecifier
  | includeDirective
  | templateDeclaration
  | other
  deriving DecidableEq, Repr

def Construct.ofKind (kind : String) : Construct :=
  if kind = "translation_unit" then translationUnit
  else if kind = "namespace_definition" then namespaceDefinition
  else if kind = "class_specifier" then classSpecifier
  else if kind = "struct_specifier" then structSpecifier
  else if kind = "function_definition" then functionDefinition
  else if kind = "declaration" then declaration
  else if kind = "field_declaration" then fieldDeclaration
  else if kind = "access_specifier" then accessSpecifier
  else if kind = "preproc_include" then includeDirective
  else if kind = "template_declaration" then templateDeclaration
  else other

/-- The module that a path names: `src/box.cpp` is `src::box`. -/
def modulePath (path : String) : String :=
  Path.withSeparator "::" (Path.stem path)

/-- The package of a class: the module and the open namespaces. -/
def packageName (f : File) (ctx : Context) : String :=
  if ctx.namespacePath = "" then modulePath f.path
  else modulePath f.path ++ "::" ++ ctx.namespacePath

/-! ## Pure virtual functions -/

/-- Passes over a word and the blanks after it, if the text starts with the word. -/
def skipWord (word : String) (cs : List Char) : List Char :=
  match Text.stripLead? word.toList cs with
  | some rest => rest.dropWhile Text.isBlank
  | none => cs

/-- Whether nothing follows but qualifiers and `= 0` at the very end. -/
def endsPure (cs : List Char) : Bool :=
  let rest :=
    skipWord "override" (skipWord "noexcept" (skipWord "const" (cs.dropWhile Text.isBlank)))
  match rest with
  | '=' :: rest =>
    match rest.dropWhile Text.isBlank with
    | '0' :: rest => skipWord ";" (rest.dropWhile Text.isBlank) = []
    | _ => false
  | _ => false

/-- Whether a declaration ends as those of pure virtual functions do, behind some closing
parenthesis. -/
def isPure : List Char → Bool
  | [] => false
  | c :: cs => (c == ')' && endsPure cs) || isPure cs

/-! ## Parameters -/

/-- Whether a node or something below it is of one of the kinds. -/
def holdsKind (t : SyntaxTree) (i : NodeId) (kinds : List String) : Bool :=
  kinds.any fun kind => (t.firstDescendant? i kind).isSome

/-- How a declarator binds its argument. -/
def bindingOf (t : SyntaxTree) (declarator : NodeId) : Binding :=
  let reference :=
    ["reference_declarator", "abstract_reference_declarator"].findSome?
      (t.firstDescendant? declarator)
  match reference with
  | none => .byValue
  | some node =>
    if ['&', '&'].isPrefixOf ((t.text node).toList.dropWhile Text.isBlank) then .rvalueReference
    else .reference

/-- Whether a node is a variadic parameter; nothing for a node that is no parameter. -/
def variadic? (kind : String) : Option Bool :=
  if kind = "parameter_declaration" ∨ kind = "optional_parameter_declaration" then some false
  else if kind = "variadic_parameter_declaration" then some true
  else none

/-- The parameter that a node declares. A lone `void` declares none. -/
def parameterAt (f : File) (i : NodeId) : Except Error (Option Parameter) :=
  let t := f.tree
  match variadic? (t.kind i), t.fieldText? i "type" with
  | some isVarargs, some typeText =>
    let declarator := t.childInField? i "declarator"
    if declarator.isNone ∧ typeText = "void" then .ok none
    else do
      let location ← f.locate i .parameterDeclaration
      let name := declarator.bind fun d => t.firstDescendant? d "identifier"
      let qualifiers := (t.childrenOfKind i "type_qualifier").map t.text
      return some {
        name := (name.map t.text).getD ""
        type := typeOfText typeText
        location := location
        defaultValue := t.fieldText? i "default_value"
        isVarargs := isVarargs
        isConst := qualifiers.contains "const"
        isVolatile := qualifiers.contains "volatile"
        isPointer :=
          (declarator.map fun d =>
            holdsKind t d ["pointer_declarator", "abstract_pointer_declarator"]).getD false
        binding := (declarator.map (bindingOf t)).getD .byValue }
  | _, _ => .ok none

/-- The parameters of a function declarator. -/
def parametersOf (f : File) (function : NodeId) : Except Error (List Parameter) :=
  match f.tree.childInField? function "parameters" with
  | some list => collect (parameterAt f) (f.tree.namedChildren list)
  | none => .ok []

/-! ## Operations -/

/-- Whether one of the nodes has the given kind and text. -/
def hasToken (t : SyntaxTree) (nodes : List NodeId) (kind text : String) : Bool :=
  nodes.any fun i => t.kind i == kind && t.text i == text

/-- The operation that a declarator declares within a node; nothing without a name. Modifiers
stand before the declarator in the node, qualifiers within the declarator. -/
def operationAt (f : File) (ctx : Context) (i function : NodeId) :
    Except Error (Option Operation) := do
  let t := f.tree
  let some nameNode := t.childInField? function "declarator" | return none
  let (owner, name) := splitQualified (t.text nameNode)
  if name = "" then return none
  let location ← f.locate i .methodDeclaration
  let parameters ← parametersOf f function
  let modifiers := (t.children i).takeWhile fun child => t.field? child != some "declarator"
  let qualifiers := t.children function
  return some {
    name := name
    location := location
    visibility := if ctx.inClass then ctx.visibility else .publicAccess
    className := if ctx.inClass then none else owner
    isConstructor := (ctx.className? <|> owner) == some name
    isDestructor := name.toList.head? == some '~'
    isTemplate := ctx.inTemplate
    returnType := (t.fieldText? i "type").map typeOfText
    isVirtual := modifiers.any fun child => t.text child == "virtual"
    isStatic := hasToken t modifiers "storage_class_specifier" "static"
    isInline := hasToken t modifiers "storage_class_specifier" "inline"
    isConst := hasToken t qualifiers "type_qualifier" "const"
    isNoexcept := qualifiers.any fun child => t.kind child == "noexcept"
    isFinal := hasToken t qualifiers "virtual_specifier" "final"
    isAbstract := isPure (t.text i).toList
    parameters := parameters }

/-! ## Fields -/

/-- The field that a declarator declares within a node. -/
def fieldAt (f : File) (ctx : Context) (i declarator : NodeId) :
    Except Error (Option Attribute) := do
  let t := f.tree
  let name := t.firstDescendant? declarator "field_identifier" <|>
    t.firstDescendant? declarator "identifier"
  match name, t.fieldText? i "type" with
  | some name, some typeText =>
    let location ← f.locate i .fieldDeclaration
    return some {
      name := t.text name
      type := typeOfText typeText
      location := location
      initialValue := t.fieldText? i "default_value"
      visibility := ctx.visibility
      isStatic := hasToken t (t.children i) "storage_class_specifier" "static"
      isConst := hasToken t (t.children i) "type_qualifier" "const"
      isVolatile := hasToken t (t.children i) "type_qualifier" "volatile" }
  | _, _ => return none

/-- The value that a declarator outside of the class gives to a static member. -/
def staticInitializer? (t : SyntaxTree) (i : NodeId) : Option StaticInitializer :=
  match t.childInField? i "declarator", t.fieldText? i "value" with
  | some target, some value =>
    if t.kind target = "qualified_identifier" then
      (Text.splitLast? [':', ':'] (t.text target).toList).map fun (scope, name) =>
        { className := String.ofList (lastScope scope)
          attributeName := String.ofList (Text.trimChars name)
          value := Text.trim (Text.trimEndBy (· == ';') value) }
    else none
  | _, _ => none

/-! ## Visiting -/

/-- A whole file: its name, its comments, then everything in it. -/
def visitUnit (f : File) (i : NodeId) : Extraction Plan := do
  modifyModel fun m => m.setPackage f.path (modulePath f.path)
  recordComments f i
  return { inside := f.tree.children i }

/-- A namespace with a body; one without a name leaves the namespaces as they are. -/
def visitNamespace (f : File) (i : NodeId) : Plan :=
  match f.tree.childInField? i "body" with
  | none => .stop
  | some body =>
    { inside := f.tree.children body
      enclosure :=
        match f.tree.fieldText? i "name" with
        | some name => .namespaceBody name
        | none => .plain }

/-- The base classes that a class names. -/
def superclasses (t : SyntaxTree) (i : NodeId) : List String :=
  match t.childOfKind? i "base_class_clause" with
  | some clause =>
    ((t.namedChildren clause).filter fun base =>
      ["type_identifier", "qualified_identifier", "template_type"].contains (t.kind base)).map
        t.text
  | none => []

/-- The visibility that members start with. -/
def initialVisibility (kind : String) : Visibility :=
  if kind = "struct_specifier" then .publicAccess else .privateAccess

/-- A class with a pure virtual function is abstract. -/
def finishClass (c : Class) : Class :=
  { c with isAbstract := c.operations.any Operation.isAbstract }

/-- A class with a name and a body; its body is walked. One without a body is only announced. -/
def visitClass (f : File) (i : NodeId) : Extraction Plan := do
  let t := f.tree
  match t.childInField? i "name", t.childInField? i "body" with
  | some name, some body =>
    let ctx ← getContext
    let location ← f.locate i .classDeclaration
    let opened : Class :=
      { package := packageName f ctx
        name := t.text name
        location := location
        isInner := ctx.inClass
        isTemplate := ctx.inTemplate
        visibility := if ctx.inClass then ctx.visibility else .publicAccess }
    let opened := (superclasses t i).foldl Class.addSuperclass opened
    return {
      inside := t.children body
      enclosure := .classBody opened (initialVisibility (t.kind i)) finishClass }
  | _, _ => return .stop

/-- Records the operation that a declarator declares within a node. -/
def recordDeclared (f : File) (i function : NodeId) : Extraction Unit := do
  let operation ← operationAt f (← getContext) i function
  operation.toList.forM recordOperation

/-- A function definition. -/
def visitFunction (f : File) (i : NodeId) : Extraction Plan := do
  let t := f.tree
  let function := (t.childInField? i "declarator").bind fun declarator =>
    t.firstDescendant? declarator "function_declarator"
  let some function := function | return .stop
  let operation ← operationAt f (← getContext) i function
  operation.toList.forM fun o => recordOperation { o with body := t.fieldText? i "body" }
  return .stop

/-- One declarator of a declaration: a prototype, or the value of a static member. -/
def visitDeclarator (f : File) (i declarator : NodeId) : Extraction Unit := do
  let t := f.tree
  if t.kind declarator = "init_declarator" then
    if !(← getContext).inClass then
      (staticInitializer? t declarator).toList.forM fun value =>
        modifyModel fun m => m.linkInitializer value
  else
    (t.firstDescendant? declarator "function_declarator").toList.forM (recordDeclared f i)

/-- A declaration: each of its declarators, then everything in it. -/
def visitDeclaration (f : File) (i : NodeId) : Extraction Plan := do
  (f.tree.childrenInField i "declarator").forM (visitDeclarator f i)
  return { inside := f.tree.children i }

/-- Records one declarator of a field declaration: a member function or a field. -/
def recordMember (f : File) (i declarator : NodeId) : Extraction Unit := do
  match f.tree.firstDescendant? declarator "function_declarator" with
  | some function => recordDeclared f i function
  | none =>
    let field ← fieldAt f (← getContext) i declarator
    field.toList.forM fun a => modifyClass fun c => c.addAttribute a

/-- The type of a field that is a class defined on the spot. -/
def fieldClass? (t : SyntaxTree) (i : NodeId) : Option NodeId :=
  (t.childInField? i "type").filter fun type =>
    t.kind type == "class_specifier" || t.kind type == "struct_specifier"

/-- Records what the declarators of a field declaration declare, inside of a class. -/
def recordMembers (f : File) (i : NodeId) : Extraction Unit := do
  if (← getContext).inClass then
    (f.tree.childrenInField i "declarator").forM (recordMember f i)

/-- A field declaration: a class defined as the field's type, then each of its declarators. -/
def visitField (f : File) (i : NodeId) : Plan :=
  { inside := (fieldClass? f.tree i).toList, after := recordMembers f i }

/-- An access specifier changes the visibility of the members after it. -/
def visitAccess (f : File) (i : NodeId) : Extraction Plan := do
  (Visibility.ofSpecifier? (f.tree.text i)).toList.forM fun visibility =>
    modifyContext fun ctx => { ctx with visibility := visibility }
  return .stop

/-- The file that a path node names. -/
def includedName (t : SyntaxTree) (path : NodeId) : String :=
  if t.kind path = "system_lib_string" then
    Text.trimEndBy (· == '>') (Text.trimStartBy (· == '<') (t.text path))
  else
    (t.childText? path "string_content").getD (Text.trimBy (· == '"') (t.text path))

def visitInclude (f : File) (i : NodeId) : Extraction Plan := do
  let some path := f.tree.childInField? i "path" | return .stop
  let location ← f.locate i .importDeclaration
  recordImport f { name := includedName f.tree path, kind := .direct, location := location }
  return .stop

/-- What to do on reaching a node. -/
def visit (f : File) (i : NodeId) : Extraction Plan :=
  match Construct.ofKind (f.tree.kind i) with
  | .translationUnit => visitUnit f i
  | .namespaceDefinition => return visitNamespace f i
  | .classSpecifier | .structSpecifier => visitClass f i
  | .functionDefinition => visitFunction f i
  | .declaration => visitDeclaration f i
  | .fieldDeclaration => return visitField f i
  | .accessSpecifier => visitAccess f i
  | .includeDirective => visitInclude f i
  | .templateDeclaration => return { inside := f.tree.children i, enclosure := .templateBody }
  | .other => return { inside := f.tree.children i }

/-- The model of a file, its definitions linked. The root is taken for a whole file
whatever its kind. -/
def model (f : File) : Except Error CodeModel :=
  (modelOf .cpp f do follow f.tree (visit f) (← visitUnit f SyntaxTree.root)).map CodeModel.link

end Refactor.Extract.Cpp
