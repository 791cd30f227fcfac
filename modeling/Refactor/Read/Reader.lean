import Refactor.Extract.Model
import Refactor.Read.ParserCache
import Refactor.Read.Progress

/-!
# Reading a code base

The model of a set of files is the merged model of each of them. Files are read in the order of
their paths; those in no known language are skipped, and one that fails does not keep the others
from being read. The language of the whole is the one that most files are in.

How a source becomes a syntax tree is not decided here: a `Parser` is given.
-/

namespace Refactor.Read

/-- The sources of files by path. -/
abbrev SourceFiles := TextMap String

/-- What gives the syntax tree of a source. -/
abbrev Parser := Language → String → Except Error SyntaxTree

/-- What became of a file. -/
inductive FileResult
  | built (language : Language) (model : CodeModel)
  | skipped (path : String)
  | failed (path : String) (error : Error)

namespace FileResult

def language? : FileResult → Option Language
  | built language _ => some language
  | _ => none

def model? : FileResult → Option CodeModel
  | built _ model => some model
  | _ => none

def skipped? : FileResult → Option String
  | skipped path => some path
  | _ => none

def failed? : FileResult → Option (String × Error)
  | failed path error => some (path, error)
  | _ => none

/-- Counts the file. No time is measured here. -/
def record (progress : Progress) : FileResult → Progress
  | built _ _ => progress.recordProcessed 0
  | skipped _ => progress.recordSkipped
  | failed _ _ => (progress.recordProcessed 0).recordFailed

end FileResult

/-- Reads one file. -/
def readFile (parse : Parser) (path source : String) : FileResult :=
  match Language.ofPath? path with
  | none => .skipped path
  | some language =>
    match parse language source with
    | .error e => .failed path e
    | .ok tree =>
      match Extract.fileModel language { path := path, tree := tree } with
      | .ok model => .built language model
      | .error e => .failed path e

/-- Asks for the parser of a file's language, if it has one. -/
def requestFor (cache : ParserCache) (path : String) : ParserCache :=
  match Language.ofPath? path with
  | some language => (cache.request language).2
  | none => cache

/-! ## Languages -/

/-- Counts a language once more. One that is not counted yet comes last. -/
def countOnce (language : Language) : List (Language × Nat) → List (Language × Nat)
  | [] => [(language, 1)]
  | (other, n) :: rest =>
    if other = language then (other, n + 1) :: rest else (other, n) :: countOnce language rest

/-- How often each language stands in a list, in the order in which they come up. -/
def tally (languages : List Language) : List (Language × Nat) :=
  languages.foldl (fun counts language => countOnce language counts) []

/-- The entry, unless the best one so far has a greater count. -/
def orGreater (best : Option (Language × Nat)) (entry : Language × Nat) : Language × Nat :=
  match best with
  | none => entry
  | some other => if entry.2 < other.2 then other else entry

/-- An entry with the greatest count; of several, the one that comes last. -/
def lastGreatest? (counts : List (Language × Nat)) : Option (Language × Nat) :=
  counts.foldl (fun best entry => some (orGreater best entry)) none

/-- The language that stands most often in a list; of several, the one that comes first. -/
def dominant? (languages : List Language) : Option Language :=
  (lastGreatest? (tally languages).reverse).map Prod.fst

/-! ## Reading -/

/-- What reading a set of files gives. -/
structure Reading where
  model : CodeModel
  skipped : List String
  failed : List (String × Error)
  progress : Progress
  cache : ParserCache

/-- The model that the results make up. -/
def combine (results : List FileResult) : CodeModel :=
  let merged := (results.filterMap FileResult.model?).foldl CodeModel.merge {}
  CodeModel.link { merged with language := dominant? (results.filterMap FileResult.language?) }

/-- Reads a set of files, with the parsers that a cache holds. -/
def read (parse : Parser) (cache : ParserCache) (files : SourceFiles) : Reading :=
  let results := files.entries.map fun (path, source) => readFile parse path source
  { model := combine results
    skipped := results.filterMap FileResult.skipped?
    failed := results.filterMap FileResult.failed?
    progress := results.foldl FileResult.record {}
    cache := files.keys.foldl requestFor cache }

end Refactor.Read
