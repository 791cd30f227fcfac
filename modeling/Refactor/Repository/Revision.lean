import Refactor.Pattern.Reader
import Refactor.Repository.CommitHash
import Refactor.Repository.Object

/-!
# Revisions

A revision names an object: it starts with a name and goes on in steps.

- `~2` leads to the parent's parent, `^2` to the second parent; the number is one when absent.
- `^0` and the braces behind a caret ask for an object of a kind: `^{tree}` is the tree of a
  commit. Empty braces take any object, and so does the word `object`.
- A slash in the braces asks for the nearest commit whose message holds a pattern; `!-` before the
  pattern, for the nearest whose message does not. A revision may also start that way.
- `:` leads to a path in the tree; it takes the rest of the text.
- `^!` at the end leaves the parents out of a range, and names the same object.

The name may be one that tells how far a commit is from another (`v1-3-g` and a hash), or that
its files were changed since (a hash and `-dirty`): the hash counts.
-/

namespace Refactor.Repository

/-- What is asked of a commit's message. -/
structure MessageTest where
  pattern : Pattern
  /-- Whether the message must not hold the pattern. -/
  without : Bool

/-- Whether a message passes a test. -/
def MessageTest.passes (t : MessageTest) (message : String) : Bool :=
  t.pattern.isIn message != t.without

/-- A step from an object to another. -/
inductive Step
  /-- No step: any object will do. -/
  | stay
  /-- The ancestor so many first parents back. -/
  | ancestor (count : Nat)
  /-- The parent of a number, from one on. -/
  | parent (number : Nat)
  /-- The object of a kind. -/
  | peel (kind : ObjectKind)
  /-- The nearest commit whose message passes a test. -/
  | message (test : MessageTest)
  /-- What stands at a path. -/
  | path (path : List Char)

/-! ## Messages -/

/-- A pattern as it stands behind a slash, and whether it must not be found. A pattern that
starts with an exclamation mark has it twice. -/
def splitPattern? : List Char → Option (List Char × Bool)
  | '!' :: '!' :: pattern => some ('!' :: pattern, false)
  | '!' :: '-' :: pattern => some (pattern, true)
  | '!' :: _ => none
  | pattern => some (pattern, false)

/-- The test of a pattern. -/
def messageTest? (pattern : List Char) (without : Bool) : Option MessageTest :=
  (Pattern.ofText? pattern).map fun pattern => { pattern, without }

/-- What a pattern in braces asks for. The empty pattern asks for nothing. -/
def patternStep? (text : List Char) : Option Step := do
  let (pattern, without) ← splitPattern? text
  if pattern = [] then return .stay
  return .message (← messageTest? pattern without)

/-! ## Steps -/

/-- The value of a run of digits; one when there are none. -/
def countOf (digits : List Char) : Nat :=
  if digits = [] then 1 else digits.foldl (fun n c => n * 10 + (c.toNat - 48)) 0

/-- What stands up to the brace that closes so many open ones, and the rest. A backslash takes
the meaning from a brace or a backslash behind it, and is left out. -/
def readBraces? : Nat → List Char → Option (List Char × List Char)
  | _, [] => none
  | depth, '\\' :: c :: cs =>
    let kept := if c = '\x7b' ∨ c = '\x7d' ∨ c = '\\' then [c] else ['\\', c]
    (readBraces? depth cs).map fun (inside, rest) => (kept ++ inside, rest)
  | depth, '\x7b' :: cs =>
    (readBraces? (depth + 1) cs).map fun (inside, rest) => ('\x7b' :: inside, rest)
  | 0, '\x7d' :: cs => some ([], cs)
  | depth + 1, '\x7d' :: cs =>
    (readBraces? depth cs).map fun (inside, rest) => ('\x7d' :: inside, rest)
  | depth, c :: cs => (readBraces? depth cs).map fun (inside, rest) => (c :: inside, rest)

/-- What the braces behind a caret ask for. -/
def braceStep? (word : List Char) : Option Step :=
  match String.ofList word with
  | "" | "object" => some .stay
  | "commit" => some (.peel .commit)
  | "tree" => some (.peel .tree)
  | "blob" => some (.peel .blob)
  | "tag" => some (.peel .tag)
  | _ => if word.head? = some '/' then patternStep? word.tail else none

/-- The step of a tilde, and the rest. A number has no sign. -/
def tildeStep? (cs : List Char) : Option (Step × List Char) :=
  let (digits, rest) := cs.span Text.isAsciiDigit
  if digits = [] ∧ (rest.head? = some '-' ∨ rest.head? = some '+') then none
  else
    let count := countOf digits
    some (if count = 0 then .stay else .ancestor count, rest)

/-- The step of a caret, and the rest. Signs, and an at sign, would ask for more than one
object. -/
def caretStep? : List Char → Option (Step × List Char)
  | ['!'] => some (.stay, [])
  | '\x7b' :: cs => do
    let (word, rest) ← readBraces? 0 cs
    return (← braceStep? word, rest)
  | cs =>
    let (digits, rest) := cs.span Text.isAsciiDigit
    if ['-', '+', '!', '@'].any fun c => rest.head? == some c then none
    else
      let number := countOf digits
      some (if number = 0 then .peel .commit else .parent number, rest)

/-- The first step of a text, and the rest. -/
def readStep? : List Char → Option (Step × List Char)
  | '~' :: cs => tildeStep? cs
  | '^' :: cs => caretStep? cs
  | ':' :: cs => some (.path cs, [])
  | _ => none

/-- The steps that a text consists of. No step is longer than the text. -/
def readSteps? : Nat → List Char → Option (List Step)
  | _, [] => some []
  | 0, _ :: _ => none
  | fuel + 1, cs => do
    let (step, rest) ← readStep? cs
    let steps ← readSteps? fuel rest
    return step :: steps

/-! ## Names -/

/-- Whether a text holds two characters in a row. -/
def holdsPair (a b : Char) (cs : List Char) : Bool :=
  (cs.zip cs.tail).contains (a, b)

/-- The hash in a name that tells how far a commit is: the last part that is a `g` and digits,
when anything comes before it. -/
def distanceHash? (name : List Char) : Option (List Char) :=
  let isHash : List Char → Bool
    | 'g' :: digits => digits.all Text.isHexDigit
    | _ => false
  match (Text.fields '-' name).reverse.dropWhile (!isHash ·) with
  | (_ :: digits) :: before => if before.any (· ≠ []) then some digits else none
  | _ => none

/-- The hash in a name of two parts. -/
def markedHash? (name : List Char) : Option (List Char) :=
  match Text.fields '-' name with
  | [digits, _] => if digits.all Text.isHexDigit then some digits else none
  | _ => none

/-- What a revision starts from. -/
inductive Start
  | name (name : List Char)
  /-- The nearest commit to any reference whose message passes a test. -/
  | message (test : MessageTest)

/-- A revision: what it starts from, and the steps from there. -/
structure Revision where
  start : Start
  steps : List Step

/-- Reads a revision. Two dots make a range, and braces behind an at sign ask for what a name
stood for at another time. -/
def Revision.parse? (text : String) : Option Revision :=
  match text.toList with
  | ':' :: '/' :: cs => do
    let (pattern, without) ← splitPattern? cs
    if pattern = [] then none
    return ⟨.message (← messageTest? pattern without), []⟩
  | cs => do
    let (name, rest) := cs.span fun c => c ≠ '~' ∧ c ≠ '^' ∧ c ≠ ':'
    if holdsPair '.' '.' name || holdsPair '@' '\x7b' name then none
    let steps ← readSteps? rest.length rest
    return ⟨.name name, steps⟩

end Refactor.Repository
