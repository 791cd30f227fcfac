import Refactor.Extract.Cpp
import Refactor.Extract.JavaScript
import Refactor.Extract.Python

/-!
# The model of a file

Reading a file's model off its syntax tree, in the way of its language.
-/

namespace Refactor.Extract

/-- The model of a file in a language. -/
def fileModel (language : Language) (f : File) : Except Error CodeModel :=
  match language with
  | .python => Python.model f
  | .javaScript => JavaScript.model f
  | .cpp => Cpp.model f

end Refactor.Extract
