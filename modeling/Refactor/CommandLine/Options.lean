import Refactor.CommandLine.Grammar
import Refactor.Diff.Config
import Refactor.Report.Section

/-!
# What the command line asks for

The settings of a run: what to compare, how, and how to report it. What stands behind the command
counts before what stands in front of it, and that before the environment.
-/

namespace Refactor.CommandLine

/-- Where the two versions come from. -/
inductive Source
  | directories (before after : String)
  | commit (repo hash : String) (changedOnly : Bool)
  | history (repo revision : String) (limit : Nat) (changedOnly : Bool)

/-- The settings of a run. -/
structure Options where
  source : Source
  diff : Diff.Config := {}
  /-- The number of threads to read files with; it never changes what is found. -/
  threads : Option Nat := none
  parallel : Bool := true
  format : Report.Format := .plainText
  report : Report.Settings := {}
  output : Option String := none
  verbose : Bool := false

namespace Invocation

/-- The value of a setting. -/
def value? (i : Invocation) (setting : Setting) : Option String :=
  i.inner.given.lookup setting <|> i.outer.given.lookup setting

def has (i : Invocation) (setting : Setting) : Bool :=
  (i.value? setting).isSome

/-- What the command compares. -/
def source (i : Invocation) : Source :=
  let text (setting : Setting) (default : String) := (i.value? setting).getD default
  match i.command with
  | .dirs => .directories (text .before "") (text .after "")
  | .commit => .commit (text .repo ".") (i.inner.positional.getD "") (i.has .changedOnly)
  | .history =>
    .history (text .repo ".") (text .revision "HEAD")
      (((i.value? .limit).bind (readWithin? 1 maxLimit)).getD 10) (i.has .changedOnly)

/-- The settings of the run. -/
def options (threads : Option String) (i : Invocation) : Options :=
  let standard : Diff.Config := {}
  { source := i.source
    diff :=
      { threshold := ((i.value? .threshold).bind Binary64.parse?).getD standard.threshold
        maxDistance :=
          ((i.value? .distance).bind (readWithin? 0 maxDistance)).getD standard.maxDistance }
    threads := (i.value? .threads <|> threads).bind (readWithin? 1 maxThreads)
    parallel := !i.has .sequential
    format := ((i.value? .format).bind readFormat?).getD .plainText
    report := { showLocations := !i.has .noLocations, showSummary := !i.has .noSummary }
    output := i.value? .output
    verbose := i.has .verbose }

end Invocation

/-- The settings that a command line asks for, or why there are none. -/
def parse (threads : Option String) (args : List String) : Except Stop Options :=
  (read threads args).map (Invocation.options threads)

end Refactor.CommandLine
