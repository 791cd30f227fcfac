import Refactor.Language
import Refactor.Text.Bytes
import Refactor.TextMap

/-!
# Commits

A commit as data: its hash, the hash of its tree, its parents, the files of the tree and its
message. The sources of a commit are its regular files with a known extension that are not
binary.
-/

namespace Refactor.Repository

/-- What kind of file a tree holds. -/
inductive EntryMode
  | blob
  | executable
  | link
  | submodule
  deriving DecidableEq, Repr

/-- A file of a tree. -/
structure TreeEntry where
  path : String
  mode : EntryMode
  bytes : List UInt8

/-- A commit. The first parent is the one it is compared with. -/
structure Commit where
  hash : String
  tree : String
  parents : List String
  files : List TreeEntry := []
  message : String := ""

/-- Whether two files cannot stand in one tree: they have one path, or one is where a directory of
the other is. -/
def TreeEntry.collides (a b : TreeEntry) : Bool :=
  let as := Path.parts a.path.toList
  let bs := Path.parts b.path.toList
  as.isPrefixOf bs || bs.isPrefixOf as

/-- The tree that files make up when they are put into it one after the other: a file takes the
place of what is in its way. -/
def treeOf (files : List TreeEntry) : List TreeEntry :=
  files.foldl (fun tree e => tree.filter (!e.collides ·) ++ [e]) []

/-- Files with a null byte near their start are taken for binary. -/
def isBinary (bytes : List UInt8) : Bool :=
  (bytes.take 8192).contains 0

/-- The path and the text of a source. Ill-formed parts of the text are replaced. -/
def TreeEntry.source? (e : TreeEntry) : Option (String × String) :=
  if (e.mode == .blob || e.mode == .executable) && (Language.ofPath? e.path).isSome &&
      !isBinary e.bytes then
    some (e.path, Text.decodeLossy e.bytes)
  else none

/-- The sources of a commit. -/
def Commit.sources (c : Commit) : TextMap String :=
  TextMap.ofList (c.files.filterMap TreeEntry.source?)

end Refactor.Repository
