import Refactor.Number.Binary64
import Refactor.Pattern.Reader
import Refactor.Text.Lowercase

/-!
# Which messages are told, and how

A notice is a message with a level, from a part of a program. Directives say which notices are told.
They are divided by commas. A directive is a level, up to which notices are told (none are with
`off`), the name of a part of a program, or both (`program=off`). Behind the name
may stand, in brackets, a span and in braces a field: the directive is then about messages inside
that span, or with that field. A part stands for every part whose name starts with it. Of several
directives the one with the longest name counts, of these one with a field, of these the last.

- `Directive.ofText?`: reads one directive.
- `told`: those of some notices that are told.
- `shown`: a message as it is told, without signs that a terminal would obey.
-/

namespace Refactor.Messages

/-! ## Levels and notices -/

/-- The levels, from the one that tells nothing on. -/
inductive Level
  | off
  | error
  | warn
  | info
  | debug
  | trace
  deriving DecidableEq, Repr

namespace Level

def all : List Level :=
  [off, error, warn, info, debug, trace]

def name : Level → String
  | off => "off"
  | error => "error"
  | warn => "warn"
  | info => "info"
  | debug => "debug"
  | trace => "trace"

/-- How much a level tells. -/
def rank (level : Level) : Nat :=
  all.idxOf level

/-- Whether notices of a level are told up to a limit. -/
def isTold (limit level : Level) : Bool :=
  level.rank ≤ limit.rank

/-- A level by its name, in letters of any case, or by its number. -/
def ofText? (text : List Char) : Option Level :=
  let digits := (Text.stripLead? ['+'] text).getD text
  if digits ≠ [] ∧ digits.all Text.isAsciiDigit then
    all[digits.foldl (fun n c => n * 10 + (c.toNat - 48)) 0]?
  else all.find? fun level => level.name == Text.asciiLowercase (String.ofList text)

/-- The mark before notices of a level. -/
def mark : Level → String
  | off => "  OFF"
  | error => "ERROR"
  | warn => " WARN"
  | info => " INFO"
  | debug => "DEBUG"
  | trace => "TRACE"

end Level

/-- A message from a part of a program. -/
structure Notice where
  level : Level
  part : String
  text : String
  deriving DecidableEq, Repr

/-! ## Directives -/

/-- A field that a directive asks for. -/
structure Field where
  name : List Char
  /-- Whether the field has to have a certain value. -/
  hasValue : Bool
  deriving DecidableEq, Repr

/-- A directive: whom it is about, and how much is told there. -/
structure Directive where
  part : Option (List Char) := none
  inSpan : Bool := false
  field : Option Field := none
  level : Level := .trace
  deriving DecidableEq, Repr

/-- Whether a text can be the value of a field: a number, or a pattern that does not look for
words. -/
def isFieldValue (text : List Char) : Bool :=
  (Binary64.parse? (String.ofList text)).isSome ||
    ((Pattern.ofText? text).any fun p => !p.asksForWords)

/-- A field: a name, and behind an equals sign a value. -/
def Field.ofText? (text : List Char) : Option Field :=
  match Text.fields '=' text with
  | [name] => if name = [] then none else some ⟨name, false⟩
  | name :: value :: _ => if isFieldValue value then some ⟨name, true⟩ else none
  | [] => none

/-- What a directive may start with, a bracket apart. -/
def canStart (c : Char) : Bool :=
  c == '-' || c == ':' || c == '_' || Text.isAlphanumeric c

/-- A directive that is being read. The signs that divide it are looked for in the text without the
blanks around it, but the parts between them are then taken from the whole text. -/
structure Draft where
  whole : List Char
  directive : Directive := {}

namespace Draft

/-- The text between the blanks. -/
def inner (d : Draft) : List Char :=
  Text.trimChars d.whole

/-- How many bytes stand before a rest of the inner text. -/
def offset (d : Draft) (rest : List Char) : Nat :=
  Text.byteLength d.inner - Text.byteLength rest

/-- The part between two rests of the inner text. -/
def between (d : Draft) (rest after : List Char) : List Char :=
  Text.slice d.whole (d.offset rest) (d.offset after)

/-- The part behind the inner text's start up to the end of the whole text. -/
def upToEnd (d : Draft) (rest : List Char) : List Char :=
  Text.slice d.whole (d.offset rest) (Text.byteLength d.whole)

/-- Reads the level. Without one everything is told. -/
def readLevel? (d : Draft) (rest : List Char) : Option Directive :=
  match d.upToEnd rest with
  | [] => some d.directive
  | text => (Level.ofText? text).map fun level => { d.directive with level }

/-- Reads what follows the brackets. -/
def readRest? (d : Draft) : List Char → Option Directive
  | [] => some d.directive
  | '=' :: rest => d.readLevel? rest
  | _ => none

/-- Reads what follows an opening bracket. -/
def readSpan? (d : Draft) (rest : List Char) : Option Directive :=
  match rest.dropWhile fun c => c ≠ ']' ∧ c ≠ '\x7b' with
  | [] => none
  | ']' :: after => { d with directive.inSpan := true }.readRest? after
  | sign :: fieldRest =>
    match fieldRest.dropWhile (· ≠ '\x7d') with
    | '\x7d' :: ']' :: after => do
      let field ← Field.ofText? (d.between fieldRest ('\x7d' :: ']' :: after))
      let inSpan := d.between rest (sign :: fieldRest) ≠ []
      { d with directive.inSpan := inSpan, directive.field := field }.readRest? after
    | _ => none

end Draft

/-- Reads a directive. A part without a level tells everything. -/
def Directive.ofText? (whole : List Char) : Option Directive :=
  let d : Draft := { whole }
  match d.inner with
  | [] => none
  | '[' :: rest => d.readSpan? rest
  | c :: cs =>
    if !canStart c then none
    else
      match (c :: cs).dropWhile fun c => c ≠ '=' ∧ c ≠ '[' with
      | [] => some ((Level.ofText? whole).elim { part := some whole } fun level => { level })
      | sign :: rest =>
        let part := d.between (c :: cs) (sign :: rest)
        let d := { d with directive.part := some part }
        if sign = '=' then d.readLevel? rest else d.readSpan? rest

/-! ## What is told -/

/-- Whether a directive is about all messages of a part that have a text and no other field,
wherever they are told. -/
def Directive.covers (part : List Char) (d : Directive) : Bool :=
  !d.inSpan && (d.part.all fun lead => lead.isPrefixOf part) &&
    d.field.all fun field => !field.hasValue && field.name == "message".toList

/-- How closely a directive says what it is about. -/
def Directive.weight (d : Directive) : Nat × Nat :=
  (d.part.elim 0 fun part => Text.byteLength part + 1, if d.field.isSome then 1 else 0)

/-- Whether the first directive gives way to the second. -/
def lighter (a b : Directive) : Bool :=
  a.weight.1 < b.weight.1 || (a.weight.1 == b.weight.1 && a.weight.2 < b.weight.2)

/-- The directive that counts for a part. -/
def governing? (part : List Char) (directives : List Directive) : Option Directive :=
  (directives.filter (·.covers part)).foldl
    (fun best d => if best.any fun b => lighter d b then best else some d) none

/-- Whether directives tell a notice. They tell none that they do not cover. -/
def tells (directives : List Directive) (n : Notice) : Bool :=
  (governing? n.part.toList directives).any fun d => d.level.isTold n.level

/-- Reads directives, of which each has to be readable. -/
def directives? (text : String) : Option (List Directive) :=
  ((Text.fields ',' text.toList).filter (· ≠ [])).mapM Directive.ofText?

/-- Those of some notices that are told. When nothing, or something that cannot be read, is said
about messages, these are the notices up to a standard level. -/
def told (standard : Level) (text : Option String) (notices : List Notice) : List Notice :=
  notices.filter (tells ((text.bind directives?).getD [{ level := standard }]))

/-- How a character of a message is told: those that a terminal would obey are spelled out. -/
def shownChar (c : Char) : List Char :=
  let n := c.toNat
  let digits := Nat.toDigits 16 n
  if 0x80 ≤ n ∧ n ≤ 0x9F then ['\\', 'u', '\x7b'] ++ digits ++ ['\x7d']
  else if [0x07, 0x08, 0x0C].contains n then ['\\', 'x', '0'] ++ digits
  else if [0x1B, 0x7F].contains n then ['\\', 'x'] ++ digits
  else [c]

/-- A message as it is told. -/
def shown (text : String) : String :=
  String.ofList (text.toList.flatMap shownChar)

/-- What telling a notice writes: a line, or several if the message has several. -/
def Notice.display (n : Notice) : String :=
  n.level.mark ++ " " ++ shown n.text ++ "\n"

end Refactor.Messages
