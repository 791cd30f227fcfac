import Refactor.Read.Directory
import Refactor.Read.Reader
import Refactor.Repository.History
import Refactor.World.Place

/-!
# The world of the program

What a run of the program may look at, as data: the files, the repositories, the environment, and
how sources become syntax trees. A path is walked from directory to directory, so a part that
leads up needs a directory to lead up from. Links are followed on the way.

- `place?`: where a path leads.
- `isDirectory`, `isThere`: what is there.
- `missingDirectories?`, `writable?`, `install`: what can be made and written.
- `repository`: what a path opens.
-/

namespace Refactor

/-- What the program may look at. -/
structure World where
  /-- What is in the file system, by the paths of places. -/
  entries : List Read.DirectoryEntry := []
  /-- The working directory. -/
  here : Place := ⟨false, []⟩
  repositories : List (String × Repository) := []
  environment : List (String × String) := []
  /-- Directives on which messages are told. -/
  messages : Option String := none
  parse : Read.Parser

namespace World

/-! ## Files -/

/-- What a repository keeps for itself in its directory. A reference is a file with a hash. -/
def upkeep (root : String) (r : Repository) : List Read.DirectoryEntry :=
  (["", "/objects", "/refs", "/refs/heads"].map fun path =>
      ⟨root ++ "/.git" ++ path, .directory⟩) ++
    r.references.map fun (name, hash) =>
      ⟨root ++ "/.git/" ++ name, .file (hash ++ "\n").toUTF8.data.toList⟩

/-- Everything in the file system. -/
def everything (w : World) : List Read.DirectoryEntry :=
  w.entries ++ w.repositories.flatMap fun (root, r) => upkeep root r

/-- What stands at a place. -/
def content? (w : World) (p : Place) : Option Read.Content :=
  (w.everything.find? fun e => e.path == p.path).map Read.DirectoryEntry.content

/-- What follows a directory's path in the path of something below it. The working directory has
an empty path. -/
def relative? (directory path : String) : Option String :=
  if directory = "" then if Path.isAbsolute path.toList then none else some path
  else
    let lead := if directory = "/" then "/" else directory ++ "/"
    (Text.stripLead? lead.toList path.toList).map String.ofList

/-- Everything below a directory. -/
def below (w : World) (directory : Place) : List Read.DirectoryEntry :=
  w.everything.filterMap fun e =>
    (relative? directory.path e.path).map fun path => { e with path := path }

/-- Whether a place is a directory: it is said to be one, or something is below it. -/
def hasDirectory (w : World) (p : Place) : Bool :=
  p.isAbove ||
    match w.content? p with
    | some .directory => true
    | some _ => false
    | none => !(w.below p).isEmpty

/-- How many parts a walk may have, those of links included. A path has fewer bytes than that. -/
def walkLimit : Nat := 4096

/-- How many bytes a name may have. -/
def nameLimit : Nat := 255

/-- Where parts of a path lead from a place, in so many steps at most. Every part but the last has
to lead to a directory. -/
def walk? (w : World) : Nat → Place → List (List Char) → Option Place
  | _, p, [] => some p
  | 0, _, _ :: _ => none
  | steps + 1, p, name :: rest =>
    if !w.hasDirectory p || nameLimit < Text.byteLength name then none
    else
      match w.content? (p.enter name) with
      | some (.link target) =>
        let start := if Path.isAbsolute target.toList then Place.root else p
        w.walk? steps start (Path.parts target.toList ++ rest)
      | _ => w.walk? steps (p.enter name) rest

/-- Where a path starts. -/
def startOf (w : World) (path : String) : Place :=
  if Path.isAbsolute path.toList then Place.root else w.here

/-- Where a path leads. -/
def place? (w : World) (path : String) : Option Place :=
  if walkLimit ≤ Text.byteLength path.toList then none
  else w.walk? walkLimit (w.startOf path) (Path.parts path.toList)

def isDirectory (w : World) (path : String) : Bool :=
  (w.place? path).any w.hasDirectory

def isThere (w : World) (path : String) : Bool :=
  (w.place? path).any fun p => w.hasDirectory p || (w.content? p).isSome

/-- The sources in a directory. -/
def sourcesIn (w : World) (path : String) : Read.SourceFiles :=
  Read.directorySources (((w.place? path).map w.below).getD [])

/-- The bytes of a file. -/
def fileBytes? (w : World) (path : String) : Option (List UInt8) :=
  match (w.place? path).bind w.content? with
  | some (.file bytes) => some bytes
  | _ => none

/-! ## Making directories and writing -/

/-- The world with something put into the file system, in the place of what was there. -/
def put (w : World) (e : Read.DirectoryEntry) : World :=
  { w with entries := e :: w.entries.filter (·.path != e.path) }

/-- The world after several things were put into it, one after the other. -/
def putAll (w : World) (entries : List Read.DirectoryEntry) : World :=
  entries.foldl put w

/-- The path without its last part; nothing for the root. -/
def parent? (path : String) : Option String :=
  match Path.parts path.toList with
  | [] => none
  | names => some (Path.ofParts (Path.isAbsolute path.toList) names.dropLast)

/-- The paths that lead to a path, each a part longer than the one before, the path itself
included. -/
def stages (path : String) : List String :=
  let names := Path.parts path.toList
  (List.range names.length).map fun n =>
    Path.ofParts (Path.isAbsolute path.toList) (names.take (n + 1))

/-- The directories to make so that a path leads to a directory, unless something else is in the
way. -/
def missingDirectories? (w : World) (path : String) : Option (List Read.DirectoryEntry) :=
  (stages path).foldlM (fun made stage =>
    let w := w.putAll made
    if w.isDirectory stage then some made
    else
      match w.place? stage with
      | some p => if (w.content? p).isSome then none else some (made ++ [⟨p.path, .directory⟩])
      | none => none) []

/-- Whether the form of a path tells that it names a directory. -/
def endsAsDirectory (path : String) : Bool :=
  match (Text.fields '/' path.toList).getLast? with
  | some name => name == [] || name == ['.'] || name == Place.upward
  | none => false

/-- Where a path leads, if a file can be written there. -/
def writable? (w : World) (path : String) : Option Place :=
  if endsAsDirectory path then none
  else (w.place? path).filter fun p => !w.hasDirectory p

/-- The world with something put at a path, in directories that are made where they are missing.
What cannot be put there is left out. -/
def install (w : World) (path : String) (content : Read.Content) : World :=
  let directory := match content with
    | .directory => path
    | _ => (parent? path).getD ""
  match w.missingDirectories? directory with
  | none => w
  | some made =>
    let w := w.putAll made
    match content, (Path.parts path.toList).getLast? with
    | .directory, _ | _, none => w
    | .file bytes, _ => ((w.writable? path).map fun p => w.put ⟨p.path, .file bytes⟩).getD w
    | .link target, some name =>
      match w.place? directory with
      | some p => w.put ⟨(p.enter name).path, .link target⟩
      | none => w

/-! ## Repositories -/

/-- The repository at a path: the path leads to its directory, or to what it keeps there for
itself. -/
def repository (w : World) (path : String) : Except Error Repository :=
  let found := (w.place? path).bind fun p =>
    w.repositories.find? fun (root, _) => root == p.path || root ++ "/.git" == p.path
  match found with
  | some (_, r) => .ok r
  | none => .error (Repository.failure ("Failed to open repository at " ++ path))

/-- What an environment variable is set to. -/
def environmentValue? (w : World) (name : String) : Option String :=
  w.environment.lookup name

end World

end Refactor
