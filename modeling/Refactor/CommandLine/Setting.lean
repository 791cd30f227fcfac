import Refactor.Number.Binary64
import Refactor.Report.Format

/-!
# Settings of the command line

The options that the command line knows: their names, which of them take a value, and which
values they take. Options that apply to every command may also stand in front of the command.
-/

namespace Refactor.CommandLine

/-- What an option sets or asks for. -/
inductive Setting
  | format
  | output
  | threshold
  | distance
  | threads
  | sequential
  | noLocations
  | noSummary
  | verbose
  | help
  | version
  | before
  | after
  | repo
  | changedOnly
  | revision
  | limit
  deriving DecidableEq, Repr

/-- The commands. -/
inductive CommandName
  | dirs
  | commit
  | history
  deriving DecidableEq, Repr

def CommandName.ofText? (text : String) : Option CommandName :=
  if text = "dirs" then some dirs
  else if text = "commit" then some commit
  else if text = "history" then some history
  else none

/-! ## Values -/

/-- The number that digits denote, with a plus sign in front or not. -/
def readNat? (text : String) : Option Nat :=
  let digits :=
    match text.toList with
    | '+' :: rest => rest
    | cs => cs
  if digits = [] ∨ !digits.all Text.isAsciiDigit then none
  else some (digits.foldl (fun n c => n * 10 + (c.toNat - 48)) 0)

/-- The number that a text denotes, if it lies within bounds. -/
def readWithin? (low high : Nat) (text : String) : Option Nat :=
  (readNat? text).filter fun n => low ≤ n && n ≤ high

/-- The format that a name on the command line denotes. There it has one name only. -/
def readFormat? (text : String) : Option Report.Format :=
  [("text", Report.Format.plainText), ("markdown", .markdown), ("html", .html)].lookup text

/-- The greatest number of threads. -/
def maxThreads : Nat := 256

/-- The greatest number of commits to look at. -/
def maxLimit : Nat := Nat.pow 2 32 - 1

/-- The greatest edit distance. -/
def maxDistance : Nat := Nat.pow 2 64 - 1

namespace Setting

/-- The name behind two dashes. -/
def long : Setting → String
  | format => "format"
  | output => "output"
  | threshold => "similarity-threshold"
  | distance => "max-edit-distance"
  | threads => "threads"
  | sequential => "sequential"
  | noLocations => "no-locations"
  | noSummary => "no-summary"
  | verbose => "verbose"
  | help => "help"
  | version => "version"
  | before => "before"
  | after => "after"
  | repo => "repo"
  | changedOnly => "changed-only"
  | revision => "rev"
  | limit => "limit"

/-- The letter behind one dash. -/
def short? : Setting → Option Char
  | format => some 'f'
  | output => some 'o'
  | threads => some 'j'
  | verbose => some 'v'
  | help => some 'h'
  | version => some 'V'
  | repo => some 'r'
  | limit => some 'n'
  | _ => none

def takesValue : Setting → Bool
  | sequential | noLocations | noSummary | verbose | help | version | changedOnly => false
  | _ => true

/-- Whether a text is a value that the setting takes. -/
def accepts (setting : Setting) (value : String) : Bool :=
  match setting with
  | format => (readFormat? value).isSome
  | output | before | after | repo => value ≠ ""
  | threshold => (Binary64.parse? value).isSome
  | distance => (readWithin? 0 maxDistance value).isSome
  | threads => (readWithin? 1 maxThreads value).isSome
  | limit => (readWithin? 1 maxLimit value).isSome
  | _ => true

/-- The settings that apply to every command. -/
def everywhere : List Setting :=
  [format, output, threshold, distance, threads, sequential, noLocations, noSummary, verbose, help]

/-- The settings that may stand in front of the command, or behind it. -/
def available : Option CommandName → List Setting
  | none => everywhere ++ [version]
  | some .dirs => everywhere ++ [before, after]
  | some .commit => everywhere ++ [repo, changedOnly]
  | some .history => everywhere ++ [revision, limit, repo, changedOnly]

def ofLong? (command : Option CommandName) (name : String) : Option Setting :=
  (available command).find? fun s => s.long == name

def ofShort? (command : Option CommandName) (letter : Char) : Option Setting :=
  (available command).find? fun s => s.short? == some letter

end Setting

end Refactor.CommandLine
