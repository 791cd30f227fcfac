import Refactor.Path

/-!
# Languages

The languages whose syntax trees are understood, and how a file's path tells its language.
Extensions are compared exactly, in lower case only.
-/

namespace Refactor

/-- The languages that a model can be read from. -/
inductive Language
  | python
  | javaScript
  | cpp
  deriving DecidableEq, Repr

namespace Language

/-- The name shown to users. -/
def displayName : Language → String
  | python => "Python"
  | javaScript => "JavaScript"
  | cpp => "C++"

/-- The extensions of the language's files. -/
def extensions : Language → List String
  | python => ["py"]
  | javaScript => ["js", "mjs", "cjs"]
  | cpp => ["cpp", "cc", "cxx", "hpp", "hh", "h"]

def all : List Language :=
  [python, javaScript, cpp]

/-- The language that an extension belongs to. -/
def ofExtension? (extension : String) : Option Language :=
  all.find? fun language => language.extensions.contains extension

/-- The language of a file. -/
def ofPath? (path : String) : Option Language :=
  (Path.extension? path).bind ofExtension?

end Language

end Refactor
