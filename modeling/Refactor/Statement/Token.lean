import Refactor.Text.CharClass

/-!
# The tokens of a statement

A token is a quoted text, a number with whatever word characters follow it, an identifier, or a
single character that is not blank. A quote that is never closed is a token by itself.

A token is found by its first character and the number of characters after it that belong to it
(`Token.extent`), so that cutting a statement into tokens ends with its characters.
-/

namespace Refactor.Statement

/-! ## Extents -/

/-- The number of characters up to a closing quote, the quote included. A backslash takes the
next character with it, unless that is a line feed. -/
def quotedExtent? (quote : Char) : List Char → Option Nat
  | [] => none
  | c :: cs =>
    if c = quote then some 1
    else if c = '\\' then
      match cs with
      | [] => none
      | d :: ds => if d = '\n' then none else (quotedExtent? quote ds).map (· + 2)
    else (quotedExtent? quote cs).map (· + 1)

/-- The length of the leading run of `p`. -/
def runLength (p : Char → Bool) (cs : List Char) : Nat :=
  (cs.takeWhile p).length

/-- The number of characters of a fraction behind the point: at least one digit, then word
characters. -/
def fractionExtent? (cs : List Char) : Option Nat :=
  if (cs.head?.map Text.isDigit).getD false then some (runLength Text.isWordChar cs) else none

/-- The number of characters that follow a number's first digit. -/
def numberExtent (cs : List Char) : Nat :=
  let digits := runLength Text.isDigit cs
  match cs.drop digits with
  | '.' :: after =>
    match fractionExtent? after with
    | some extent => digits + 1 + extent
    | none => digits
  | _ => runLength Text.isWordChar cs

/-- The number of characters after the first one that belong to the same token. -/
def tokenExtent (c : Char) (cs : List Char) : Nat :=
  if c.toNat = 0x22 ∨ c.toNat = 0x27 then (quotedExtent? c cs).getD 0
  else if Text.isDigit c then numberExtent cs
  else if c = '.' then (fractionExtent? cs).getD 0
  else if Text.isNameStart c then runLength Text.isWordChar cs
  else 0

/-! ## Tokens -/

/-- The tokens of a text. -/
def tokens : List Char → List (List Char)
  | [] => []
  | c :: cs =>
    if Text.isBlank c then tokens cs
    else (c :: cs.take (tokenExtent c cs)) :: tokens (cs.drop (tokenExtent c cs))
termination_by cs => cs.length
decreasing_by
  all_goals simp only [List.length_cons, List.length_drop]; omega

/-- What a token is. -/
inductive TokenKind
  | identifier
  | literal
  | punctuation
  deriving DecidableEq, Repr

/-- The kind of a token, told by its first character. -/
def TokenKind.ofToken : List Char → TokenKind
  | [] => punctuation
  | c :: rest =>
    if c.toNat = 0x22 ∨ c.toNat = 0x27 then literal
    else if Text.isAsciiDigit c ∨ (c = '.' ∧ rest ≠ []) then literal
    else if Text.isAlphabetic c ∨ c = '_' then identifier
    else punctuation

end Refactor.Statement
