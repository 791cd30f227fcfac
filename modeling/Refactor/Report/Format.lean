import Refactor.Error
import Refactor.Text.Lowercase

/-!
# Report formats

The formats that reports come in and the names they go by.
-/

namespace Refactor.Report

inductive Format
  | plainText
  | markdown
  | html
  deriving DecidableEq, Repr

namespace Format

/-- The extension of files in the format. -/
def extension : Format → String
  | plainText => "txt"
  | markdown => "md"
  | html => "html"

/-- The names of the formats. -/
def names : List (String × Format) :=
  [("text", plainText), ("plain", plainText), ("txt", plainText), ("markdown", markdown),
    ("md", markdown), ("html", html)]

/-- The format of a name, in letters of any case. -/
def parse (name : String) : Except Error Format :=
  let name := Text.asciiLowercase name
  match names.lookup name with
  | some format => .ok format
  | none => .error (.unknownFormat name)

end Format

end Refactor.Report
