import Refactor.CommandLine.Options
import Refactor.Diff.Models
import Refactor.Program.Notices
import Refactor.Report.Render
import Refactor.World

/-!
# The program

A run of the program as a function: given the world that it may look at, it says what it prints,
what it writes and how it ends.

- `check`: what a command line asks for is checked before anything is read.
- `sections`: the comparison of two directories, of a commit, or of the commits of a history.
- `run`: the whole run.
-/

namespace Refactor

namespace Program

open CommandLine

/-! ## Checks -/

def requireDirectory (w : World) (path : String) : Except Error Unit :=
  if w.isDirectory path then .ok () else .error (.missingDirectory path)

/-- Checks where the two versions come from. -/
def checkSource (w : World) : Source → Except Error Unit
  | .directories before after => do
    requireDirectory w before
    requireDirectory w after
  | .commit repo hash _ => do
    Repository.validateHash hash
    requireDirectory w repo
  | .history repo revision _ _ => do
    if Text.trim revision = "" then throw .emptyRevision
    requireDirectory w repo

/-- The directories to make for the report: none if it has one. -/
def checkOutput (w : World) (output : Option String) :
    Except Error (List Read.DirectoryEntry) :=
  match output.bind World.parent? with
  | none => .ok []
  | some directory =>
    if directory = "" || w.isThere directory then .ok []
    else
      match w.missingDirectories? directory with
      | some made => .ok made
      | none => .error (.reported .io ("Failed to create output directory " ++ directory))

/-- Checks what a command line asks for, and says which directories have to be made for the
report. -/
def check (w : World) (o : Options) : Except Error (List Read.DirectoryEntry) := do
  o.diff.validate
  checkSource w o.source
  checkOutput w o.output

/-! ## Running -/

/-- The refactorings between two sets of sources. -/
def compare (w : World) (config : Diff.Config) (before after : Read.SourceFiles) : List Summary :=
  let old := Read.read w.parse {} before
  let new := Read.read w.parse old.cache after
  (Diff.detect config old.model new.model).map Refactoring.summary

/-- The section of a commit. -/
def commitSection (w : World) (config : Diff.Config) (r : Repository) (changedOnly titled : Bool)
    (hash : String) : Except Error Report.Section := do
  let found ← r.snapshots hash changedOnly
  return {
    title := if titled then some ("Commit " ++ String.ofList (found.commit.toList.take 7)) else none
    refactorings := compare w config found.before found.after }

/-- The sections of the report. -/
def sections (w : World) (config : Diff.Config) : Source → Except Error (List Report.Section)
  | .directories before after =>
    .ok [{ refactorings := compare w config (w.sourcesIn before) (w.sourcesIn after) }]
  | .commit repo hash changedOnly => do
    let r ← w.repository repo
    return [← commitSection w config r changedOnly false hash]
  | .history repo revision limit changedOnly => do
    let r ← w.repository repo
    let hashes ← r.history revision limit
    hashes.mapM (commitSection w config r changedOnly true)

/-- How a run ends. -/
structure Outcome where
  exitCode : Nat := 0
  /-- What is printed. -/
  printed : String := ""
  /-- The notices told. -/
  notices : List Messages.Notice := []
  /-- What is put into the file system, in this order. -/
  written : List Read.DirectoryEntry := []

/-- What the notices look like when they are told. -/
def Outcome.log (o : Outcome) : String :=
  String.join (o.notices.map Messages.Notice.display)

/-- A run that fails with an error. -/
def failing (text : String) : Outcome :=
  { exitCode := 1, notices := [⟨.error, programName, text⟩] }

/-- How a run ends that has made directories and has a report, or none. -/
def deliver (w : World) (o : Options) : Except Error (List Report.Section) → Outcome
  | .error e => failing ("Application error: " ++ e.message)
  | .ok sections =>
    let report := Report.render o.format o.report sections
    match o.output with
    | none => { printed := report.content }
    | some path =>
      match w.writable? path with
      | some p =>
        { written := [⟨p.path, .file report.content.toUTF8.data.toList⟩]
          notices := [reportNotice path report] }
      | none => failing ("Application error: Failed to write report to " ++ path)

/-- A run with given settings, with all its notices. -/
def perform (w : World) (o : Options) : Outcome :=
  match check w o with
  | .error e => failing ("Invalid arguments: " ++ e.message)
  | .ok made =>
    let w := w.putAll made
    let outcome := deliver w o (sections w o.diff o.source)
    { outcome with
      written := made ++ outcome.written
      notices := settingsNotices o ++ sourceNotices w o.source ++ outcome.notices }

/-- The level up to which notices are told when nothing else is said. -/
def standardLevel (o : Options) : Messages.Level :=
  if o.verbose then .info else .warn

/-- A run with given settings. -/
def runWith (w : World) (o : Options) : Outcome :=
  let outcome := perform w o
  { outcome with notices := Messages.told (standardLevel o) w.messages outcome.notices }

/-- The name and the version of the program. -/
def versionLine : String := programName ++ " 0.1.0\n"

/-- The environment variable that stands in for an absent number of threads. -/
def threadsVariable : String := "POLYREF_THREADS"

/-- A run of the program. -/
def run (w : World) (args : List String) : Outcome :=
  match parse (w.environmentValue? threadsVariable) args with
  | .ok o => runWith w o
  | .error .help => {}
  | .error .version => { printed := versionLine }
  | .error .usage => { exitCode := 2 }

end Program

end Refactor
