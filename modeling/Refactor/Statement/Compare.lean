import Refactor.Model.Annotation
import Refactor.Statement.Call
import Refactor.Statement.Token
import Refactor.Statement.Words
import Refactor.TextMap

/-!
# Comparing statements

Two statements correspond when the first becomes the second by renaming parameters. For those
that do not, the differences are listed as candidate replacements: differing tokens when the two
have equally many, differing argument lists otherwise. Candidates explain a difference; they
never make a match.
-/

namespace Refactor

/-! ## Replacements -/

/-- What a replacement replaces. -/
inductive ReplacementKind
  | parameterName
  | variableName
  | methodInvocation
  | literal
  | argument
  deriving DecidableEq, Repr

def ReplacementKind.description : ReplacementKind → String
  | parameterName => "Parameter name replacement"
  | variableName => "Variable name replacement"
  | methodInvocation => "Method invocation replacement"
  | literal => "Literal value replacement"
  | argument => "Method argument replacement"

/-- One text standing where another one stood. -/
structure Replacement where
  kind : ReplacementKind
  before : String
  after : String
  deriving DecidableEq, Repr

def Replacement.display (r : Replacement) : String :=
  r.kind.description ++ ": " ++ r.before ++ " → " ++ r.after

/-- The new names of renamed parameters by their old names. -/
abbrev Renaming := TextMap String

namespace Statement

/-- The part of a name that is an identifier: `*args` and `...rest` have marks in front. -/
def identifierPart (name : List Char) : List Char :=
  name.dropWhile fun c => !(Text.isAlphanumeric c || c == '_')

/-- What a renaming replaces in statements. Of two names with the same identifier part the later
one counts; names without one and those that stay as they are have nothing to replace. -/
def wordTable (renames : Renaming) : WordTable :=
  (renames.entries.map fun entry =>
    (identifierPart entry.1.toList, identifierPart entry.2.toList)).reverse.filter
      fun (before, after) => before ≠ [] ∧ before ≠ after

/-! ## Candidates -/

/-- The kind of replacement that two tokens at the same place make, told what follows each. -/
def tokenReplacement? (before after : List Char) (next nextAfter : Option (List Char)) :
    Option ReplacementKind :=
  match TokenKind.ofToken before, TokenKind.ofToken after with
  | .identifier, .identifier =>
    if next = some ['('] ∧ nextAfter = some ['('] then some .methodInvocation
    else some .variableName
  | .literal, .literal => some .literal
  | _, _ => none

/-- The replacements that turn tokens into others, place by place; nothing if the two differ in
anything but identifiers and literals. -/
def tokenReplacements? : List (List Char) → List (List Char) → Option (List Replacement)
  | before :: rest, after :: restAfter => do
    let others ← tokenReplacements? rest restAfter
    if before = after then return others
    let kind ← tokenReplacement? before after rest.head? restAfter.head?
    return ⟨kind, String.ofList before, String.ofList after⟩ :: others
  | _, _ => some []

/-- The replacement of a call's arguments by those of the first call of the same name that has
others. -/
def argumentReplacement? (newCalls : List Call) (call : Call) : Option Replacement :=
  (newCalls.find? fun new => new.name = call.name ∧ new.arguments ≠ call.arguments).map fun new =>
    ⟨.argument, String.ofList call.arguments, String.ofList new.arguments⟩

/-- What may have been replaced to turn a statement into another. -/
def candidates (before after : List Char) : List Replacement :=
  let tokensBefore := tokens before
  let tokensAfter := tokens after
  if tokensBefore.length = tokensAfter.length then
    (tokenReplacements? tokensBefore tokensAfter).getD []
  else (calls before).filterMap (argumentReplacement? (calls after))

end Statement

/-! ## Comparisons -/

/-- Two statements compared under a renaming. -/
structure StatementComparison where
  before : String
  after : String
  /-- The first statement with its parameters renamed. -/
  renamed : String
  replacements : List Replacement
  deriving DecidableEq, Repr

namespace StatementComparison

/-- Compares two statements under a renaming. -/
def between (renames : Renaming) (before after : String) : StatementComparison :=
  let table := Statement.wordTable renames
  let renamed := Statement.substitute table before.toList
  let applied := (Statement.replaced table before.toList).map fun (old, new) =>
    (⟨.parameterName, String.ofList old, String.ofList new⟩ : Replacement)
  let found := if renamed = after.toList then [] else Statement.candidates renamed after.toList
  { before := before
    after := after
    renamed := String.ofList renamed
    replacements := found.foldl appendNew applied }

/-- Whether the statements are the same up to the renaming. -/
def isMatch (c : StatementComparison) : Bool :=
  c.renamed == c.after

/-- Whether the statements are the same as they stand. -/
def isIdentical (c : StatementComparison) : Bool :=
  c.before == c.after

/-- The two statements and what was replaced. -/
def display (c : StatementComparison) : String :=
  c.before ++ " ⇒ " ++ c.after ++
    if c.replacements.isEmpty then ""
    else " [" ++ Text.join "; " (c.replacements.map Replacement.display) ++ "]"

end StatementComparison

end Refactor
