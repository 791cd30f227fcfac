import Refactor.CommandLine.Setting

/-!
# Reading the command line

Arguments are read from left to right, first in front of the command and then behind it. A value
may stand in an argument of its own or be attached to its option. An attached value is checked at
once; one that stands by itself is checked when the next argument is dealt with, so that asking
for help behind a command is answered whatever stands in front of the command.

An option stands at most once in front of the command and once behind it. An option that waits
for its value takes no argument that looks like an option.
-/

namespace Refactor.CommandLine

/-- Why no command is run. -/
inductive Stop
  | help
  | version
  /-- The arguments make no sense. -/
  | usage
  deriving DecidableEq, Repr

/-- What was read on one side of the command. -/
structure Reading where
  given : List (Setting × String) := []
  /-- An option with a value that is still to be checked. -/
  pending : Option (Setting × String) := none
  /-- An option that waits for its value. -/
  awaiting : Option Setting := none
  /-- Whether options have ended. -/
  ended : Bool := false
  positional : Option String := none

namespace Reading

def has (r : Reading) (setting : Setting) : Bool :=
  (r.given.lookup setting).isSome

/-- Takes an option with its value, unless it stands there already or does not take it. -/
def give (r : Reading) (setting : Setting) (value : String) : Except Stop Reading :=
  if r.has setting || !setting.accepts value then .error .usage
  else .ok { r with given := r.given ++ [(setting, value)] }

/-- Deals with the option whose value is still to be checked. -/
def settle (r : Reading) : Except Stop Reading :=
  match r.pending with
  | some (setting, value) => { r with pending := none }.give setting value
  | none => if r.awaiting.isSome then .error .usage else .ok r

/-- Takes an option without a value. -/
def giveFlag (r : Reading) (setting : Setting) : Except Stop Reading := do
  let r ← r.settle
  match setting with
  | .help => throw .help
  | .version => throw .version
  | _ => r.give setting ""

/-- Takes an option with the value attached to it. -/
def giveAttached (r : Reading) (setting : Setting) (value : String) : Except Stop Reading := do
  let r ← r.settle
  r.give setting value

/-- Takes an option whose value is the next argument. -/
def await (r : Reading) (setting : Setting) : Except Stop Reading := do
  let r ← r.settle
  return { r with awaiting := some setting }

/-- Takes an option with a long name, as it stands behind two dashes. -/
def long (command : Option CommandName) (r : Reading) (text : List Char) : Except Stop Reading :=
  let (name, rest) := text.span (· ≠ '=')
  match Setting.ofLong? command (String.ofList name) with
  | none => .error .usage
  | some setting =>
    match setting.takesValue, rest with
    | true, _ :: value => r.giveAttached setting (String.ofList value)
    | true, [] => r.await setting
    | false, [] => r.giveFlag setting
    | false, _ :: _ => .error .usage

/-- Takes options by their letters, as they stand behind one dash. The rest behind an option that
takes a value is its value, with an equals sign in front or not. -/
def short (command : Option CommandName) (r : Reading) : List Char → Except Stop Reading
  | [] => .ok r
  | letter :: rest =>
    match Setting.ofShort? command letter with
    | none => .error .usage
    | some setting =>
      if setting.takesValue then
        match rest with
        | [] => r.await setting
        | '=' :: value => r.giveAttached setting (String.ofList value)
        | value => r.giveAttached setting (String.ofList value)
      else do
        let r ← r.giveFlag setting
        short command r rest

/-- Takes an argument that is no option. Only `commit` has one. -/
def place (command : Option CommandName) (r : Reading) (text : String) : Except Stop Reading := do
  if command ≠ some .commit ∨ r.positional.isSome then throw .usage
  let r ← r.settle
  return { r with positional := some text }

/-- Takes one argument. -/
def take (command : Option CommandName) (r : Reading) (text : String) : Except Stop Reading :=
  match r.ended, r.awaiting, text.toList with
  | true, _, _ => r.place command text
  | false, none, ['-', '-'] => .ok { r with ended := true }
  | false, none, '-' :: '-' :: name => r.long command name
  | false, none, '-' :: letter :: letters => r.short command (letter :: letters)
  | false, none, _ => r.place command text
  | false, some _, '-' :: _ :: _ => .error .usage
  | false, some setting, _ =>
    .ok { r with pending := some (setting, text), awaiting := none }

/-- Deals with what is left at the end. A number of threads from the environment stands in for
the option that is not there. -/
def finish (r : Reading) (threads : Option String) : Except Stop Reading := do
  let r ← r.settle
  match threads with
  | some value => if r.has .threads || Setting.threads.accepts value then return r else throw .usage
  | none => return r

end Reading

/-! ## The whole command line -/

/-- The command line as it stands: what was read in front of the command, the command, and what
was read behind it. -/
structure Invocation where
  outer : Reading
  command : CommandName
  inner : Reading

/-- Whether everything that a command needs is there. -/
def isComplete (command : CommandName) (r : Reading) : Bool :=
  match command with
  | .dirs => r.has .before && r.has .after
  | .commit => r.positional.isSome
  | .history => true

/-- Reads what stands behind the command. -/
def readInner (threads : Option String) (command : CommandName) (args : List String) :
    Except Stop Reading := do
  let r ← args.foldlM (Reading.take (some command)) {}
  let r ← r.finish threads
  if isComplete command r then return r else throw .usage

/-- The answer to asking for help on a command: at most one name, which has to be known. -/
def helpOn : List String → Stop
  | [] => .help
  | [name] => if name = "help" ∨ (CommandName.ofText? name).isSome then .help else .usage
  | _ => .usage

/-- Reads the arguments from the front on. -/
def readOuter (threads : Option String) (r : Reading) : List String → Except Stop Invocation
  | [] => .error .usage
  | text :: rest => do
    if !r.ended && r.awaiting.isNone then
      if text = "help" then throw (helpOn rest)
      if let some command := CommandName.ofText? text then
        let inner ← readInner threads command rest
        let outer ← r.finish threads
        return ⟨outer, command, inner⟩
    let r ← r.take none text
    readOuter threads r rest

/-- Reads a command line, with the number of threads that the environment asks for. -/
def read (threads : Option String) (args : List String) : Except Stop Invocation :=
  readOuter threads {} args

end Refactor.CommandLine
