import Refactor.Pattern.Basic
import Refactor.Text.Bytes
import Refactor.Text.Hex

/-!
# Reading patterns

The written form of patterns. A text that is not well formed has no pattern.

- Sets stand in brackets, with ranges, sets inside, names between colons, and the operators `&&`,
  `--` and `~~`.
- A backslash takes the meaning from a sign, or gives one to a letter.
- Groups stand in parentheses. `(?i)` and the like change how the rest of a group is read.
- `*`, `+`, `?` and counts in braces repeat what stands before them.

A pattern may be nested at most 250 deep and take up at most ten mebibytes once repetitions are
written out.
-/

namespace Refactor.Pattern

/-- How a text is read. -/
structure Flags where
  ignoresCase : Bool := false
  multiLine : Bool := false
  dotAll : Bool := false
  /-- Whether sets reach beyond ASCII. -/
  unicode : Bool := true
  /-- Whether blanks and comments are left out. -/
  spaced : Bool := false
  /-- Whether carriage returns end lines, too. -/
  returns : Bool := false
  deriving DecidableEq, Repr

namespace Flags

/-- The letters of the flags. The letter `U` only says which match is taken first. -/
def letters : List Char := ['i', 'm', 's', 'U', 'u', 'x', 'R']

/-- The flags with one of them set. -/
def set (f : Flags) (letter : Char) (on : Bool) : Flags :=
  match letter with
  | 'i' => { f with ignoresCase := on }
  | 'm' => { f with multiLine := on }
  | 's' => { f with dotAll := on }
  | 'u' => { f with unicode := on }
  | 'x' => { f with spaced := on }
  | 'R' => { f with returns := on }
  | _ => f

end Flags

/-! ## Blanks and numbers -/

/-- Leaves out blanks, and comments up to the end of the line. -/
def dropSpaced : Bool → List Char → List Char
  | _, [] => []
  | false, c :: cs =>
    if Text.isBlank c then dropSpaced false cs
    else if c = '#' then dropSpaced true cs
    else c :: cs
  | true, c :: cs => dropSpaced (c ≠ '\n') cs

/-- The rest of a text from the next sign on. -/
def onward (f : Flags) (cs : List Char) : List Char :=
  if f.spaced then dropSpaced false cs else cs

/-- The value of digits in a base. -/
def valueOf (base : Nat) (digits : List Char) : Nat :=
  digits.foldl (fun n c => n * base + (Text.hexValue? c).getD 0) 0

/-- A count, with blanks around it. Counts have at most 32 bits. -/
def readCount? (cs : List Char) : Option (Nat × List Char) :=
  let (digits, rest) := (cs.dropWhile Text.isBlank).span Text.isAsciiDigit
  let count := valueOf 10 digits
  if digits = [] ∨ 0xFFFFFFFF < count then none else some (count, rest.dropWhile Text.isBlank)

/-! ## Escapes -/

/-- What an escape stands for. -/
inductive Escaped
  | char (c : Char)
  | set (set : CharSet)
  | look (condition : Look)

/-- The character of a code point, unless it is a surrogate or out of range. -/
def charOf? (n : Nat) : Option Char :=
  if n < 0xD800 ∨ (0xDFFF < n ∧ n < 0x110000) then some (Char.ofNat n) else none

/-- So many hexadecimal digits. -/
def readDigits? (f : Flags) : Nat → List Char → Option (List Char × List Char)
  | 0, cs => some ([], cs)
  | count + 1, cs =>
    match onward f cs with
    | c :: rest =>
      if Text.isHexDigit c then
        (readDigits? f count rest).map fun (digits, rest) => (c :: digits, rest)
      else none
    | [] => none

/-- What stands up to a closing brace, and the rest. -/
def readBraced? (f : Flags) (cs : List Char) : Option (List Char × List Char) :=
  match cs.span (· ≠ '\x7d') with
  | (inside, _ :: rest) =>
    some (if f.spaced then inside.filter (!Text.isBlank ·) else inside, rest)
  | (_, []) => none

/-- A code point in hexadecimal digits: so many, or any number of them in braces. -/
def readCodePoint? (f : Flags) (count : Nat) (cs : List Char) : Option (Char × List Char) :=
  match onward f cs with
  | '\x7b' :: cs => do
    let (digits, rest) ← readBraced? f cs
    if digits = [] ∨ !digits.all Text.isHexDigit then none
    return (← charOf? (valueOf 16 digits), rest)
  | cs => do
    let (digits, rest) ← readDigits? f count cs
    return (← charOf? (valueOf 16 digits), rest)

/-- The set of a property as it stands in braces. -/
def propertySet? (name : List Char) : Option CharSet :=
  match Text.splitFirst? ['!', '='] name, Text.splitFirst? [':'] name,
      Text.splitFirst? ['='] name with
  | some (name, value), _, _ => (CharSet.propertyValue? name value).map .complement
  | none, some (name, value), _ => CharSet.propertyValue? name value
  | none, none, some (name, value) => CharSet.propertyValue? name value
  | none, none, none => CharSet.property? name

/-- A property: one letter, or a name in braces. Only sets beyond ASCII have properties. -/
def readProperty? (f : Flags) (negated : Bool) (cs : List Char) :
    Option (Escaped × List Char) := do
  if !f.unicode then none
  let (name, rest) ← match onward f cs with
    | '\x7b' :: cs => readBraced? f cs
    | c :: cs => if c = '\\' then none else some ([c], cs)
    | [] => none
  let set ← propertySet? name
  let set := if f.ignoresCase then CharSet.anyCase set else set
  return (.set (set.negatedIf negated), rest)

/-- The sets that have letters. Capital letters stand for the complements. -/
def letterSet? (f : Flags) (c : Char) : Option CharSet :=
  let pick (set : CharSet) (name : String) :=
    if f.unicode then some set else CharSet.asciiClass? name
  match c with
  | 'd' => pick .digit "digit"
  | 's' => pick .blank "space"
  | 'w' => pick .word "word"
  | 'D' => (pick .digit "digit").map .complement
  | 'S' => (pick .blank "space").map .complement
  | 'W' => (pick .word "word").map .complement
  | _ => none

/-- The characters that have letters. -/
def letterChars : List (Char × Nat) :=
  [('a', 0x07), ('f', 0x0C), ('t', 0x09), ('n', 0x0A), ('r', 0x0D), ('v', 0x0B)]

/-- The conditions that have letters. -/
def letterLooks : List (Char × Look) :=
  [('A', .textStart), ('z', .textEnd), ('b', .wordEdge), ('B', .noWordEdge), ('<', .wordStart),
   ('>', .wordEnd)]

/-- The conditions that have names. -/
def namedLooks : List (String × Look) :=
  [("start", .wordStart), ("end", .wordEnd), ("start-half", .wordStartHalf),
   ("end-half", .wordEndHalf)]

/-- A name in braces behind the letter for word edges. Braces with anything else in them are none
of its business, so that they can be a count. -/
def readEdge? (f : Flags) (cs : List Char) : Option (Look × List Char) :=
  let isNamePart (c : Char) := Text.isAsciiLetter c || c == '-'
  match cs with
  | '\x7b' :: inside =>
    let (name, rest) := (onward f inside).span isNamePart
    if name = [] then if (onward f inside).isEmpty then none else some (.wordEdge, cs)
    else
      match onward f rest with
      | '\x7d' :: rest => (namedLooks.lookup (String.ofList name)).map fun l => (l, rest)
      | _ => none
  | _ => some (.wordEdge, cs)

/-- What an escape stands for, given what follows its backslash. -/
def readEscape? (f : Flags) : List Char → Option (Escaped × List Char)
  | [] => none
  | 'x' :: cs => (readCodePoint? f 2 cs).map fun (c, rest) => (.char c, rest)
  | 'u' :: cs => (readCodePoint? f 4 cs).map fun (c, rest) => (.char c, rest)
  | 'U' :: cs => (readCodePoint? f 8 cs).map fun (c, rest) => (.char c, rest)
  | 'p' :: cs => readProperty? f false cs
  | 'P' :: cs => readProperty? f true cs
  | 'b' :: cs => (readEdge? f cs).map fun (l, rest) => (.look l, rest)
  | c :: cs =>
    match letterSet? f c, letterChars.lookup c, letterLooks.lookup c with
    | some set, _, _ => some (.set set, cs)
    | none, some n, _ => some (.char (Char.ofNat n), cs)
    | none, none, some l => some (.look l, cs)
    | none, none, none =>
      if Text.isAsciiLetter c || Text.isAsciiDigit c || 0x80 ≤ c.toNat then none
      else some (.char c, cs)

/-! ## Sets in brackets -/

/-- The set of one character, as the flags have it. Without sets beyond ASCII there is none for
other characters. -/
def charSet? (f : Flags) (c : Char) : Option CharSet :=
  if !f.unicode && 0x80 ≤ c.toNat then none
  else some (if f.ignoresCase then .anyCase (.single c) else .single c)

/-- One member of a set: a character, or what an escape stands for. -/
def readMember? (f : Flags) : List Char → Option (Escaped × List Char)
  | [] => none
  | '\\' :: cs => readEscape? f cs
  | c :: cs => some (.char c, cs)

/-- The set of a member. Conditions on places are no members. -/
def memberSet? (f : Flags) : Escaped → Option CharSet
  | .char c => charSet? f c
  | .set set => some set
  | .look _ => none

/-- A member, or a range of characters. A hyphen before the end, or before another, makes no
range. -/
def readRange? (f : Flags) (cs : List Char) : Option (CharSet × List Char) := do
  let (first, rest) ← readMember? f cs
  let rest := onward f rest
  match rest with
  | [] => none
  | '-' :: behind =>
    match (onward f behind).head? with
    | none => none
    | some ']' | some '-' => return (← memberSet? f first, rest)
    | some _ =>
      let (last, rest) ← readMember? f (onward f behind)
      match first, last with
      | .char a, .char b =>
        if b < a || (!f.unicode && 0x80 ≤ b.toNat) then none
        else
          let set := CharSet.ranges [(a.toNat, b.toNat)]
          return (if f.ignoresCase then .anyCase set else set, rest)
      | _, _ => none
  | _ => return (← memberSet? f first, rest)

/-- A name between colons, given what follows the bracket. -/
def readAsciiName? (f : Flags) : List Char → Option (CharSet × List Char)
  | ':' :: cs => do
    let (negated, cs) := match cs with
      | '^' :: cs => (true, cs)
      | _ => (false, cs)
    let (name, rest) := cs.span (· ≠ ':')
    match rest with
    | ':' :: ']' :: rest =>
      let set ← CharSet.asciiClass? (String.ofList name)
      let set := if f.ignoresCase then CharSet.anyCase set else set
      return (set.negatedIf negated, rest)
    | _ => none
  | _ => none

/-- A set in brackets that is being read. -/
structure OpenSet where
  negated : Bool := false
  /-- What stands before the last operator, with that operator. -/
  before : Option (CharSet × SetOperator) := none
  members : List CharSet := []
  /-- How deep the sets inside are nested. -/
  height : Nat := 0

namespace OpenSet

def add (o : OpenSet) (set : CharSet) (height : Nat) : OpenSet :=
  { o with members := o.members ++ [set], height := max o.height height }

/-- The set read so far. -/
def combined (o : OpenSet) : CharSet :=
  match o.before with
  | some (set, operator) => .combine operator set (.unions o.members)
  | none => .unions o.members

/-- Goes on behind an operator. All operators bind alike, from left to right. -/
def operate (o : OpenSet) (operator : SetOperator) : OpenSet :=
  { o with before := some (o.combined, operator), members := [], height := o.height + 1 }

/-- The set, once its bracket is closed. -/
def close (o : OpenSet) : CharSet :=
  o.combined.negatedIf o.negated

end OpenSet

/-- What an opening bracket opens: a complement behind a caret; hyphens, and a closing bracket that
stands first, are members. -/
def openSet? (f : Flags) (cs : List Char) : Option (OpenSet × List Char) := do
  let cs := onward f cs
  let (negated, cs) := match cs with
    | '^' :: cs => (true, onward f cs)
    | _ => (false, cs)
  let (hyphens, rest) := cs.span fun c => c == '-' || (f.spaced && Text.isBlank c)
  let o : OpenSet := { negated, members := if hyphens.contains '-' then [.single '-'] else [] }
  match rest with
  | [] => none
  | ']' :: rest =>
    if hyphens.contains '-' then some (o, ']' :: rest) else some (o.add (.single ']') 0, rest)
  | _ => some (o, rest)

/-- Reads on in the sets that are open, the innermost first, until all are closed. Every step takes
something from the text. -/
def readSets? (f : Flags) : Nat → List OpenSet → List Char → Option (CharSet × Nat × List Char)
  | 0, _, _ => none
  | _, [], _ => none
  | fuel + 1, o :: outer, cs =>
    match onward f cs with
    | [] => none
    | '[' :: cs =>
      match readAsciiName? f cs with
      | some (set, rest) => readSets? f fuel (o.add set 0 :: outer) rest
      | none => do
        let (inner, rest) ← openSet? f cs
        readSets? f fuel (inner :: o :: outer) rest
    | ']' :: rest =>
      match outer with
      | [] => some (o.close, o.height + 1, rest)
      | next :: outer => readSets? f fuel (next.add o.close (o.height + 1) :: outer) rest
    | '&' :: '&' :: rest => readSets? f fuel (o.operate .intersection :: outer) rest
    | '-' :: '-' :: rest => readSets? f fuel (o.operate .difference :: outer) rest
    | '~' :: '~' :: rest => readSets? f fuel (o.operate .symmetricDifference :: outer) rest
    | cs => do
      let (set, rest) ← readRange? f cs
      readSets? f fuel (o.add set 0 :: outer) rest

/-- A set, given what follows its opening bracket: the set, how deep it is nested, and the rest. -/
def readSet? (f : Flags) (cs : List Char) : Option (CharSet × Nat × List Char) := do
  let (o, rest) ← openSet? f cs
  readSets? f (rest.length + 1) [o] rest

/-! ## Patterns -/

/-- A pattern with what limits it: how deep it is nested, and how much room it takes. -/
structure Draft where
  pattern : Pattern
  height : Nat := 0
  size : Nat := 0

namespace Draft

/-- The room that one state takes. -/
def stateSize : Nat := 32

/-- A set takes one state; one that reaches beyond ASCII takes many, as it is told by bytes. -/
def setSize : CharSet → Nat
  | .ranges rs => stateSize + 8 * rs.length
  | .property _ => 20000
  | .digit => 4000
  | .blank => 500
  | .word => 50000
  | .complement s => 400 + setSize s
  | .combine _ a b => setSize a + setSize b
  | .anyCase s => 8 + setSize s

def ofSet (set : CharSet) (height : Nat) : Draft :=
  ⟨.one set, height, setSize set⟩

/-- One character takes a state for each of its bytes. -/
def ofChar (f : Flags) (c : Char) : Draft :=
  let set := CharSet.single c
  ⟨.one (if f.ignoresCase then .anyCase set else set), 0, stateSize * Text.byteLength [c]⟩

def ofLook (l : Look) : Draft :=
  ⟨.look l, 0, stateSize⟩

def ofEscaped (f : Flags) : Escaped → Draft
  | .char c => ofChar f c
  | .set set => ofSet set 0
  | .look l => ofLook l

/-- Several drafts, put together from the last to the first. Nothing stands for a change of
flags. -/
def join (combine : Pattern → Pattern → Pattern) (drafts : List (Option Draft)) : Draft :=
  match drafts with
  | [] => ⟨.nothing, 0, stateSize⟩
  | [some d] => d
  | _ =>
    let real := drafts.filterMap id
    let pattern := match real with
      | [] => .nothing
      | d :: rest => rest.foldl (fun p d => combine d.pattern p) d.pattern
    { pattern
      height := real.foldl (fun h d => max h d.height) 0 + 1
      size := real.foldl (fun n d => n + d.size) stateSize }

/-- A repetition takes the room of all its copies. -/
def repeated (d : Draft) (least : Nat) (most : Option Nat) : Draft :=
  let copies := match most with
    | some most => most
    | none => max least 1
  ⟨.repeated d.pattern least most, d.height + 1, d.size * copies + stateSize⟩

def group (d : Draft) : Draft :=
  { d with height := d.height + 1, size := d.size + 2 * stateSize }

end Draft

/-- A name between angle brackets: a letter or underscore first, then also digits, dots and
brackets. -/
def readGroupName? (cs : List Char) : Option (List Char × List Char) :=
  match cs.span (· ≠ '>') with
  | (first :: more, _ :: rest) =>
    if (Text.isAlphabetic first || first == '_') &&
        more.all fun c => Text.isAlphanumeric c || ['_', '.', '[', ']'].contains c then
      some (first :: more, rest)
    else none
  | _ => none

/-- Flags up to a colon or a closing parenthesis. Each stands once; a hyphen, which stands once
and not last, takes away those behind it. -/
def readFlags? (f : Flags) (cs : List Char) : Option (Flags × Bool × Char × List Char) :=
  let (letters, rest) := cs.span fun c => c ≠ ':' ∧ c ≠ ')'
  let (on, off) := letters.span (· ≠ '-')
  match rest with
  | [] => none
  | stop :: rest =>
    let all := on ++ off.tail
    if !all.all Flags.letters.contains || all.eraseDups.length ≠ all.length || off = ['-'] then none
    else
      let f := on.foldl (fun f c => f.set c true) f
      some (off.tail.foldl (fun f c => f.set c false) f, letters.isEmpty, stop, rest)

/-- A count in braces, given what follows the opening brace. -/
def readCounts? (f : Flags) (cs : List Char) : Option (Nat × Option Nat × List Char) := do
  let (least, rest) ← readCount? (onward f cs)
  match rest with
  | '\x7d' :: rest => return (least, some least, rest)
  | ',' :: rest =>
    match onward f rest with
    | '\x7d' :: rest => return (least, none, rest)
    | rest =>
      let (most, rest) ← readCount? rest
      match rest with
      | '\x7d' :: rest => if most < least then none else return (least, some most, rest)
      | _ => none
  | _ => none

/-- The rest behind a repetition: a question mark only says which match is taken first. -/
def dropLazy (f : Flags) (cs : List Char) : List Char :=
  match onward f cs with
  | '?' :: rest => rest
  | rest => rest

/-- What is being read of a group: the rest of the text, the flags, the names of groups, the
alternatives that are finished, and the items of the current one, last first. -/
structure Progress where
  rest : List Char
  flags : Flags := {}
  names : List (List Char) := []
  done : List (Option Draft) := []
  items : List (Option Draft) := []

namespace Progress

def add (s : Progress) (d : Draft) (rest : List Char) : Progress :=
  { s with items := some d :: s.items, rest }

/-- Repeats the last item, if there is one. -/
def repeatLast? (s : Progress) (least : Nat) (most : Option Nat) (rest : List Char) :
    Option Progress :=
  match s.items with
  | some d :: items =>
    some { s with items := some (d.repeated least most) :: items, rest := dropLazy s.flags rest }
  | _ => none

/-- The current alternative is finished. -/
def finishBranch (s : Progress) : Progress :=
  { s with done := some (Draft.join .sequence s.items) :: s.done, items := [] }

/-- The draft of all alternatives. -/
def draft (s : Progress) : Draft :=
  Draft.join .either s.finishBranch.done

end Progress

/-- Whether a group asks for what stands around it, which patterns cannot. -/
def looksAround (cs : List Char) : Bool :=
  ["?=", "?!", "?<=", "?<!"].any fun mark => mark.toList.isPrefixOf cs

/-- Reads on up to the end of the group, or of the text. Every step takes something from the
text. -/
def readGroup? : Nat → Progress → Option Progress
  | 0, _ => none
  | fuel + 1, s =>
    let f := s.flags
    match onward f s.rest with
    | [] => some { s with rest := [] }
    | ')' :: rest => some { s with rest := ')' :: rest }
    | '|' :: rest => readGroup? fuel { s.finishBranch with rest }
    | '*' :: rest => do readGroup? fuel (← s.repeatLast? 0 none rest)
    | '+' :: rest => do readGroup? fuel (← s.repeatLast? 1 none rest)
    | '?' :: rest => do readGroup? fuel (← s.repeatLast? 0 (some 1) rest)
    | '\x7b' :: rest => do
      if s.items.isEmpty then none
      let (least, most, rest) ← readCounts? f rest
      readGroup? fuel (← s.repeatLast? least most rest)
    | '[' :: rest => do
      let (set, height, rest) ← readSet? f rest
      readGroup? fuel (s.add (.ofSet set height) rest)
    | '\\' :: rest => do
      let (escaped, rest) ← readEscape? f rest
      readGroup? fuel (s.add (.ofEscaped f escaped) rest)
    | '.' :: rest =>
      let excluded : List (Nat × Nat) :=
        if f.dotAll then [] else if f.returns then [(10, 10), (13, 13)] else [(10, 10)]
      readGroup? fuel (s.add (.ofSet (.complement (.ranges excluded)) 0) rest)
    | '^' :: rest =>
      let start := if f.multiLine then Look.lineStart f.returns else .textStart
      readGroup? fuel (s.add (.ofLook start) rest)
    | '$' :: rest =>
      let stop := if f.multiLine then Look.lineEnd f.returns else .textEnd
      readGroup? fuel (s.add (.ofLook stop) rest)
    | '(' :: rest =>
      let rest := onward f rest
      if looksAround rest then none
      else do
        let (inner, names, rest, isGroup) ← match rest with
          | '?' :: 'P' :: '<' :: rest | '?' :: '<' :: rest => do
            let (name, rest) ← readGroupName? rest
            if s.names.contains name then none else some (f, name :: s.names, rest, true)
          | '?' :: rest => do
            let (inner, isEmpty, stop, rest) ← readFlags? f rest
            if stop = ')' ∧ isEmpty then none else some (inner, s.names, rest, decide (stop = ':'))
          | rest => some (f, s.names, rest, true)
        if isGroup then
          let read ← readGroup? fuel { rest, flags := inner, names }
          match read.rest with
          | ')' :: rest =>
            readGroup? fuel { s with
              items := some read.draft.group :: s.items, names := read.names, rest }
          | _ => none
        else readGroup? fuel { s with items := none :: s.items, flags := inner, rest }
    | c :: rest => readGroup? fuel (s.add (.ofChar f c) rest)

/-- How deep a pattern may be nested. -/
def heightLimit : Nat := 250

/-- How much room a pattern may take. -/
def sizeLimit : Nat := 10485760

/-- The pattern that a text writes down. -/
def ofText? (text : List Char) : Option Pattern := do
  let read ← readGroup? (text.length + 1) { rest := text }
  let draft := read.draft
  if read.rest ≠ [] ∨ heightLimit < draft.height ∨ sizeLimit < draft.size then none
  return draft.pattern

end Refactor.Pattern
