import Refactor.Language
import Refactor.Text.Bytes
import Refactor.TextMap

/-!
# The sources of a directory

A directory is given by everything below it. Its sources are the regular files with a known
extension whose contents are well-formed texts. What has a name that starts with a dot is hidden,
with everything below it; links are not followed.
-/

namespace Refactor.Read

/-- What stands at a path. -/
inductive Content
  | file (bytes : List UInt8)
  | directory
  /-- Another path, taken from the directory that the link is in. -/
  | link (target : String)

/-- Something in a directory, by its path from there. -/
structure DirectoryEntry where
  path : String
  content : Content

namespace DirectoryEntry

/-- Whether some name on the path starts with a dot. -/
def isHidden (e : DirectoryEntry) : Bool :=
  (Path.parts e.path.toList).any fun name => name.head? == some '.'

/-- The path and the text of a source. -/
def source? (e : DirectoryEntry) : Option (String × String) :=
  match e.content with
  | .file bytes =>
    if e.isHidden || (Language.ofPath? e.path).isNone then none
    else (Text.decode? bytes).map fun text => (e.path, text)
  | _ => none

end DirectoryEntry

/-- The sources of a directory. -/
def directorySources (entries : List DirectoryEntry) : TextMap String :=
  TextMap.ofList (entries.filterMap DirectoryEntry.source?)

end Refactor.Read
