import Refactor.Language
import Refactor.Model.Class
import Refactor.Model.Import
import Refactor.TextMap

/-!
# Code models

The model of one version of a code base: its classes, the operations that belong to no class,
and per file the comments, imports, package and source text. Models of single files are merged
into one. Merging only adds: equal classes and operations are kept once, comments and imports
of a file are strung together, and what is known of a file's package and source stays.

A value given to a class attribute outside of its class waits in `deferred` until the class is
known.
-/

namespace Refactor

/-- A value that a class attribute is given outside of its class. -/
structure StaticInitializer where
  className : String
  attributeName : String
  value : String
  deriving DecidableEq

/-- The model of one version of a code base. -/
structure CodeModel where
  language : Option Language := none
  classes : List Class := []
  /-- The operations that belong to no class, and definitions not yet linked to theirs. -/
  operations : List Operation := []
  comments : TextMap (List Comment) := {}
  imports : TextMap (List Import) := {}
  packages : TextMap String := {}
  sources : TextMap String := {}
  deferred : List StaticInitializer := []
  classIndex : LocationIndex := {}
  operationIndex : LocationIndex := {}

namespace CodeModel

/-- The model of nothing yet, in a language that may be open. -/
def new (language : Option Language) : CodeModel :=
  { language := language }

def isPython (m : CodeModel) : Bool :=
  m.language == some .python

/-! ## Adding -/

/-- Adds a class unless an equal one is found. -/
def addClass (m : CodeModel) (c : Class) : CodeModel :=
  let (index, classes, _) := m.classIndex.pushUnique Class.location m.classes c
  { m with classes := classes, classIndex := index }

/-- Adds an operation outside of classes unless an equal one is found. -/
def addOperation (m : CodeModel) (o : Operation) : CodeModel :=
  let (index, operations, _) := m.operationIndex.pushUnique Operation.location m.operations o
  { m with operations := operations, operationIndex := index }

def addImport (m : CodeModel) (path : String) (i : Import) : CodeModel :=
  { m with imports := m.imports.update path [] (· ++ [i]) }

def addComment (m : CodeModel) (path : String) (c : Comment) : CodeModel :=
  { m with comments := m.comments.update path [] (· ++ [c]) }

def setPackage (m : CodeModel) (path package : String) : CodeModel :=
  { m with packages := m.packages.insert path package }

def addSource (m : CodeModel) (path source : String) : CodeModel :=
  { m with sources := m.sources.insert path source }

def defer (m : CodeModel) (i : StaticInitializer) : CodeModel :=
  { m with deferred := m.deferred ++ [i] }

/-! ## Questions -/

/-- The first class of the given simple name. -/
def class? (m : CodeModel) (name : String) : Option Class :=
  m.classes.find? fun c => c.name == name

/-- Changes the first class of the given simple name, if the change itself finds its place. -/
def modifyClass? (m : CodeModel) (name : String) (f : Class → Option Class) : Option CodeModel :=
  (m.class? name).bind fun c =>
    (f c).bind fun changed =>
      (modifyFirst? (fun c => c.name == name) (fun _ => changed) m.classes).map fun classes =>
        { m with classes := classes }

/-- All operations: first those outside of classes, then class by class. -/
def allOperations (m : CodeModel) : List Operation :=
  m.operations ++ m.classes.flatMap Class.operations

def classesInFile (m : CodeModel) (path : String) : List Class :=
  m.classes.filter fun c => c.location.file == path

def classesByPackage (m : CodeModel) (package : String) : List Class :=
  m.classes.filter fun c => c.package == package

def operationsInFile (m : CodeModel) (path : String) : List Operation :=
  m.allOperations.filter fun o => o.location.file == path

def importsOf (m : CodeModel) (path : String) : List Import :=
  (m.imports.get? path).getD []

def commentsOf (m : CodeModel) (path : String) : List Comment :=
  (m.comments.get? path).getD []

/-- The number of classes in each file that has any. -/
def classesPerFile (m : CodeModel) : TextMap Nat :=
  m.classes.foldl (fun counts c => counts.update c.location.file 0 (· + 1)) {}

/-- A short account of the model. -/
def display (m : CodeModel) : String :=
  let language := (m.language.map Language.displayName).getD "unknown"
  "Code model (" ++ language ++ s!"): {m.classes.length} classes, " ++
    s!"{m.operations.length} standalone operations, {m.sources.size} files\n" ++
    String.join (m.classes.map fun c => "- " ++ c.qualifiedName ++ " (" ++ c.location.file ++ ")\n")

/-! ## Merging and clearing -/

/-- Adds all of another model. -/
def merge (m other : CodeModel) : CodeModel :=
  let m := { m with language := m.language <|> other.language }
  let m := other.classes.foldl addClass m
  let m := other.operations.foldl addOperation m
  { m with
    comments := other.comments.entries.foldl
      (fun all entry => all.update entry.1 [] (· ++ entry.2)) m.comments
    imports := other.imports.entries.foldl
      (fun all entry => all.update entry.1 [] (· ++ entry.2)) m.imports
    packages := other.packages.entries.foldl
      (fun all entry => all.insertIfNew entry.1 entry.2) m.packages
    sources := other.sources.entries.foldl
      (fun all entry => all.insertIfNew entry.1 entry.2) m.sources
    deferred := m.deferred ++ other.deferred }

/-- Forgets everything but the language. -/
def clear (m : CodeModel) : CodeModel :=
  { language := m.language, classIndex := m.classIndex, operationIndex := m.operationIndex }

end CodeModel

end Refactor
