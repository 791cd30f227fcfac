import Refactor.Text.Hex
import Refactor.World

/-!
# Inventories

A world written down line by line. A line is a record: words divided by single blanks, of which
the first says what the record is about. Texts and contents stand in hexadecimal, and a dash
stands for what is absent.

- `directory path`, `file path bytes`, `link path target`: what is in the file system.
- `repository path` opens a repository; `reference name hash`, `commit hash tree parents…` and
  `message text` belong to the one opened last, the message to its last commit.
- `blob`, `executable`, `link-blob` and `submodule`, each with a path and bytes, belong to the
  commit before them.
- `source language text` opens a syntax tree, with the language's first extension for the language;
  `node parent kind field named start stop` adds a node to it.
- `messages text`: directives on which messages are told.

The syntax trees make the parser of the world: a source without a tree is refused.
-/

namespace Refactor

/-- What the records of an inventory say. What was opened last stands first. -/
structure Inventory where
  entries : List Read.DirectoryEntry := []
  repositories : List (String × Repository) := []
  trees : List (Language × String × List SyntaxNode) := []
  messages : Option String := none

namespace Inventory

/-! ## Words -/

def bytes? (word : String) : Option (List UInt8) :=
  Text.bytesOfHex? word.toList

def text? (word : String) : Option String :=
  (bytes? word).bind Text.decode?

/-- What may be absent. -/
def optional? {α : Type} (read? : String → Option α) (word : String) : Option (Option α) :=
  if word = "-" then some none else (read? word).map some

/-! ## Records -/

/-- Adds something to the file system. -/
def addEntry (i : Inventory) (path : String) (content : Read.Content) : Option Inventory := do
  return { i with entries := ⟨Path.normalize (← text? path), content⟩ :: i.entries }

/-- Changes the repository opened last. -/
def onRepository (i : Inventory) (change : Repository → Option Repository) : Option Inventory :=
  match i.repositories with
  | [] => none
  | (path, r) :: rest => (change r).map fun r => { i with repositories := (path, r) :: rest }

/-- Changes the last commit of the repository opened last. -/
def onCommit (i : Inventory) (change : Repository.Commit → Option Repository.Commit) :
    Option Inventory :=
  i.onRepository fun r =>
    match r.commits with
    | [] => none
    | c :: rest => (change c).map fun c => { r with commits := c :: rest }

/-- Adds a file to the last commit of the repository opened last. -/
def addBlob (i : Inventory) (mode : Repository.EntryMode) (path bytes : String) :
    Option Inventory :=
  i.onCommit fun c => do
    return { c with files := c.files ++ [⟨← text? path, mode, ← bytes? bytes⟩] }

/-- Adds a node to the syntax tree opened last. -/
def addNode (i : Inventory) (node : SyntaxNode) : Option Inventory :=
  match i.trees with
  | [] => none
  | (language, source, nodes) :: rest =>
    some { i with trees := (language, source, nodes ++ [node]) :: rest }

/-- Takes in a record, unless it is ill-formed. -/
def record (i : Inventory) : List String → Option Inventory
  | ["directory", path] => i.addEntry path .directory
  | ["file", path, bytes] => do i.addEntry path (.file (← bytes? bytes))
  | ["link", path, target] => do i.addEntry path (.link (← text? target))
  | ["repository", path] => do
    let path := Path.normalize (← text? path)
    return { i with repositories := (path, ⟨[], []⟩) :: i.repositories }
  | ["reference", name, hash] =>
    i.onRepository fun r => do
      return { r with references := r.references ++ [(← text? name, hash)] }
  | "commit" :: hash :: tree :: parents =>
    i.onRepository fun r => some { r with commits := { hash, tree, parents } :: r.commits }
  | ["message", text] => i.onCommit fun c => do return { c with message := ← text? text }
  | ["blob", path, bytes] => i.addBlob .blob path bytes
  | ["executable", path, bytes] => i.addBlob .executable path bytes
  | ["link-blob", path, bytes] => i.addBlob .link path bytes
  | ["submodule", path, bytes] => i.addBlob .submodule path bytes
  | ["source", language, source] => do
    let language ← Language.ofExtension? language
    return { i with trees := (language, ← text? source, []) :: i.trees }
  | ["node", parent, kind, field, named, start, stop] => do
    i.addNode {
      kind := ← text? kind
      field := ← optional? text? field
      named := named = "1"
      start := ← start.toNat?
      stop := ← stop.toNat?
      parent := ← optional? String.toNat? parent }
  | ["messages", text] => do return { i with messages := some (← text? text) }
  | [""] => some i
  | _ => none

/-- Takes in all records, unless one is ill-formed. -/
def ofLines? (lines : List String) : Option Inventory :=
  lines.foldlM (fun i line => i.record (line.splitOn " ")) {}

/-! ## The world -/

/-- Looks up the tree of a source. -/
def parse (i : Inventory) : Read.Parser := fun language source =>
  match i.trees.find? fun (l, text, _) => l == language && text == source with
  | some (_, _, nodes) => do (← SyntaxTree.growAll { source } nodes).finish
  | none => .error (.reported .grammar "no tree")

/-- The world of an inventory, in a given environment. -/
def world (i : Inventory) (environment : List (String × String)) : World :=
  { entries := i.entries, repositories := i.repositories, environment
    messages := i.messages, parse := i.parse }

end Inventory

end Refactor
