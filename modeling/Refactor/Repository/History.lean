import Refactor.Repository.Commit
import Refactor.Repository.CommitHash
import Refactor.Repository.Revision
import Refactor.Repository.Snapshots

/-!
# Repositories

A repository as data: its commits, and the references that stand for some of them. Objects are
known by their hashes, or by a start of a hash that no other object shares.

- `resolve?`: the object that a revision names.
- `snapshots`: the sources before and after a commit.
- `history`: the commits from a revision on, along first parents.
-/

namespace Refactor

/-- A repository: its commits and the references that stand for some of them, by full names. -/
structure Repository where
  commits : List Repository.Commit
  references : List (String × String)

namespace Repository

/-! ## Objects -/

def commit? (r : Repository) (hash : String) : Option Commit :=
  r.commits.find? fun c => c.hash == hash

/-- The hash of the tree without files, which every repository knows. -/
def emptyTree : String := "4b825dc642cb6eb9a060e54bf8d69288fbee4904"

/-- The object of a hash. -/
def object? (r : Repository) (hash : String) : Option Object :=
  match r.commit? hash, r.commits.find? fun c => c.tree == hash with
  | some c, _ => some (.commit c)
  | none, some c => some (.tree c.files)
  | none, none => if hash = emptyTree then some (.tree []) else none

/-- All hashes of a repository. -/
def hashes (r : Repository) : List String :=
  (r.commits.flatMap fun c => [c.hash, c.tree]).eraseDups

/-- The only hash that starts with a text of at least four digits. -/
def hashOf? (r : Repository) (start : List Char) : Option String :=
  if start.length < 4 ∨ !start.all Text.isHexDigit then none
  else
    let start := start.map Char.toLower
    match r.hashes.filter fun hash => start.isPrefixOf hash.toList with
    | [hash] => some hash
    | _ => if start = emptyTree.toList then some emptyTree else none

/-- What a short name may leave out of the full name of a reference. -/
def referenceLeads : List String :=
  ["", "refs/", "refs/tags/", "refs/heads/", "refs/remotes/"]

/-- What stands before the full name of a reference of the first working tree. -/
def mainWorktree : String := "main-worktree/"

/-- The hash that a reference stands for. An at sign alone is the head. -/
def reference? (r : Repository) (name : String) : Option String :=
  let name := if name = "@" then "HEAD" else name
  referenceLeads.findSome? (fun lead => r.references.lookup (lead ++ name)) <|>
    (Text.stripLead? mainWorktree.toList name.toList).bind fun full =>
      r.references.lookup (String.ofList full)

/-- The object that a name stands for: a hash comes first, then a name with a hash in it, then a
reference. -/
def named? (r : Repository) (name : List Char) : Option Object := do
  let hash ← r.hashOf? name <|> (distanceHash? name <|> markedHash? name).bind r.hashOf? <|>
    r.reference? (String.ofList name)
  r.object? hash

/-- The ancestor so many first parents back. -/
def ancestor? (r : Repository) : Nat → Commit → Option Commit
  | 0, c => some c
  | count + 1, c => do
    let parent ← c.parents.head?
    r.ancestor? count (← r.commit? parent)

/-- The commits that lead to given ones, the nearest first: as many generations as asked for. -/
def generations (r : Repository) : Nat → List String → List String → List Commit
  | 0, _, _ => []
  | count + 1, seen, hashes =>
    let commits := (hashes.eraseDups.filter (!seen.contains ·)).filterMap r.commit?
    commits ++ r.generations count (seen ++ hashes) (commits.flatMap Commit.parents)

/-- The nearest commit, of given ones and those that lead to them, whose message passes a test. -/
def search? (r : Repository) (test : MessageTest) (hashes : List String) : Option Object :=
  ((r.generations r.commits.length [] hashes).find? fun c => test.passes c.message).map .commit

/-- The object that a step leads to. Only commits have parents. -/
def follow? (r : Repository) : Object → Step → Option Object
  | o, .stay => some o
  | .commit c, .ancestor count => (r.ancestor? count c).map .commit
  | .commit c, .parent number => do
    let parent ← c.parents[number - 1]?
    return .commit (← r.commit? parent)
  | .commit c, .message test => r.search? test [c.hash]
  | o, .peel kind => o.peel? kind
  | o, .path path => o.at? path
  | _, _ => none

/-- The object that a revision starts from. -/
def start? (r : Repository) : Start → Option Object
  | .name name => r.named? name
  | .message test => r.search? test (r.references.map Prod.snd)

/-- The object that a revision names. -/
def resolve? (r : Repository) (revision : String) : Option Object := do
  let parsed ← Revision.parse? revision
  let o ← r.start? parsed.start
  parsed.steps.foldlM r.follow? o

/-! ## Commits -/

/-- A failure of the repository, in words. -/
def failure (text : String) : Error :=
  .reported .repository text

/-- The commit of a hash. -/
def findCommit (r : Repository) (hash : String) : Except Error Commit :=
  match r.commit? hash with
  | some c => .ok c
  | none => .error (failure (hash ++ " is not a commit"))

/-- The sources before a commit: those of its first parent, if it has one. -/
def parentSources (r : Repository) (c : Commit) : Except Error (TextMap String) :=
  match c.parents.head? with
  | some parent => (r.findCommit parent).map Commit.sources
  | none => .ok {}

/-- The sources before and after a commit. -/
def snapshots (r : Repository) (hash : String) (changedOnly : Bool) : Except Error Snapshots := do
  validateHash hash
  let some object := r.hashOf? hash.toList | throw (.unresolvedHash hash)
  let commit ← r.findCommit object
  let before ← r.parentSources commit
  let found := Snapshots.between commit.hash commit.parents.head? before commit.sources
  return if changedOnly then found.retainChanged else found

/-- At most so many commits along first parents. -/
def historyFrom (r : Repository) : Nat → Option String → Except Error (List String)
  | 0, _ => .ok []
  | _ + 1, none => .ok []
  | limit + 1, some hash => do
    let commit ← r.findCommit hash
    let rest ← r.historyFrom limit commit.parents.head?
    return commit.hash :: rest

/-- At most so many commits from a revision on, along first parents. What the revision names has to
be a commit as soon as one is asked for. -/
def history (r : Repository) (revision : String) (limit : Nat) : Except Error (List String) :=
  match r.resolve? revision with
  | some (.commit c) => r.historyFrom limit (some c.hash)
  | some _ => if limit = 0 then .ok [] else .error (failure (revision ++ " is not a commit"))
  | none => .error (failure ("Failed to resolve " ++ revision))

end Repository

end Refactor
