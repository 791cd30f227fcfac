import Refactor.Text.Trim

/-!
# File paths

Paths are texts whose parts are separated by slashes. Empty parts and single dots do not
count, so `a.py/` and `a.py/.` name the same file as `a.py`. The extension of a file is what
follows the last dot of its name, provided something comes before that dot.
-/

namespace Refactor.Path

/-- The parts of a path that count. -/
def parts (path : List Char) : List (List Char) :=
  (Text.fields '/' path).filter fun part => part ≠ [] ∧ part ≠ ['.']

/-- The last part, unless it leads to the parent directory. -/
def fileName? (path : List Char) : Option (List Char) :=
  match (parts path).getLast? with
  | some name => if name = ['.', '.'] then none else some name
  | none => none

/-- What follows the last dot of the file name, when something comes before it. -/
def extension? (path : String) : Option String :=
  match fileName? path.toList with
  | none => none
  | some name =>
    match Text.splitLast? ['.'] name with
    | some (_ :: _, extension) => some (String.ofList extension)
    | _ => none

/-- The path up to its last dot, when something comes before the dot and no slash after it. -/
def stem (path : String) : String :=
  match Text.splitLast? ['.'] path.toList with
  | some (before, extension) =>
    if before ≠ [] ∧ '/' ∉ extension then String.ofList before else path
  | none => path

/-- The path with every slash and backslash replaced by `sep`. -/
def withSeparator (sep : String) (path : String) : String :=
  String.ofList (path.toList.flatMap fun c => if c = '/' ∨ c = '\\' then sep.toList else [c])

/-- Whether the path starts at the root directory. -/
def isAbsolute (path : List Char) : Bool :=
  path.head? == some '/'

/-- The parts of a path put together again, with single slashes. -/
def ofParts (absolute : Bool) (names : List (List Char)) : String :=
  (if absolute then "/" else "") ++ Text.join "/" (names.map String.ofList)

/-- The path in its plainest form: no empty parts, no single dots, no slash at the end. -/
def normalize (path : String) : String :=
  ofParts (isAbsolute path.toList) (parts path.toList)

/-- A path taken from a directory; one that starts at the root stays as it is. -/
def inside (directory path : String) : String :=
  if isAbsolute path.toList then path else directory ++ "/" ++ path

end Refactor.Path
