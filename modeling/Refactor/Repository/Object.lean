import Refactor.Repository.Commit

/-!
# Objects

What a repository holds: commits, the trees of commits and of their directories, and what else
stands in a tree. A commit can stand for its tree; nothing else stands for an object of another
kind.

- `peel?`: the object of a wanted kind that an object is or stands for.
- `at?`: what stands at a path in the tree of an object.
-/

namespace Refactor.Repository

/-- The kinds of objects that can be asked for by name. -/
inductive ObjectKind
  | commit
  | tree
  | blob
  | tag
  deriving DecidableEq, Repr

/-- An object of a repository. -/
inductive Object
  | commit (commit : Commit)
  /-- A directory, by everything below it. -/
  | tree (files : List TreeEntry)
  /-- What a tree holds besides directories. -/
  | leaf

/-- What stands below a directory, by its path from there. -/
def TreeEntry.below? (directory : List (List Char)) (e : TreeEntry) : Option TreeEntry :=
  let names := Path.parts e.path.toList
  if directory.isPrefixOf names then
    some { e with path := Path.ofParts false (names.drop directory.length) }
  else none

namespace Object

/-- The object of a kind that an object is or stands for. -/
def peel? : ObjectKind → Object → Option Object
  | .commit, .commit c => some (.commit c)
  | .tree, .commit c => some (.tree c.files)
  | .tree, .tree files => some (.tree files)
  | _, _ => none

/-- What stands at a path in a tree; the empty path leads to the tree itself. Paths start at the
tree: not at a root, and not with a dot. -/
def inTree? (path : List Char) (files : List TreeEntry) : Option Object :=
  if path = [] then some (.tree files)
  else if Path.isAbsolute path || (Text.fields '/' path).head? == some ['.'] then none
  else
    match files.filterMap (TreeEntry.below? (Path.parts path)) with
    | [] => none
    | found => some (if found.any (·.path == "") then .leaf else .tree found)

/-- What stands at a path in the tree of an object. -/
def at? (path : List Char) (o : Object) : Option Object :=
  match o.peel? .tree with
  | some (.tree files) => inTree? path files
  | _ => none

end Object

end Refactor.Repository
