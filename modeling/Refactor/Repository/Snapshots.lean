import Refactor.TextMap

/-!
# Snapshots

The sources of a code base before and after a commit, and the paths where they differ.
-/

namespace Refactor.Repository

/-- The paths where two sets of sources differ, in order: added, deleted or changed. -/
def changedPaths (before after : TextMap String) : List String :=
  let changed := after.entries.filter fun (path, text) => before.get? path ≠ some text
  let deleted := before.entries.filter fun (path, _) => !after.contains path
  (TextMap.ofList (changed ++ deleted)).keys

/-- The sources around a commit. -/
structure Snapshots where
  commit : String
  /-- The first parent; a first commit has none. -/
  parent : Option String
  before : TextMap String
  after : TextMap String
  changed : List String

/-- The snapshots of two sets of sources. -/
def Snapshots.between (commit : String) (parent : Option String) (before after : TextMap String) :
    Snapshots :=
  { commit := commit
    parent := parent
    before := before
    after := after
    changed := changedPaths before after }

/-- Keeps only the paths listed as changed. -/
def Snapshots.retainChanged (s : Snapshots) : Snapshots :=
  { s with
    before := s.before.filter fun path _ => s.changed.contains path
    after := s.after.filter fun path _ => s.changed.contains path }

end Refactor.Repository
