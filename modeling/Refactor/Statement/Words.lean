import Refactor.Text.CharClass

/-!
# The words of a statement

A statement is cut into its words, which are the maximal runs of word characters, and the
characters between them. A word that begins with an ASCII letter or an underscore is an
identifier; one that begins with a digit or a letter of another script is not.

Substitution replaces whole identifiers, all at once: what is put in is not looked at again.

- `pieces_flatten`: cutting loses nothing.
- `substitute`: replacing identifiers by a table.
- `replaced`: the identifiers of a statement that a table replaces, by first occurrence.
-/

namespace Refactor.Statement

/-- A piece of a statement. -/
inductive Piece
  | word (chars : List Char)
  | gap (char : Char)
  deriving DecidableEq, Repr

/-- The characters of a piece. -/
def Piece.chars : Piece → List Char
  | word chars => chars
  | gap char => [char]

/-- The pieces of a text: its maximal words and the characters between them. -/
def pieces : List Char → List Piece
  | [] => []
  | c :: cs =>
    if Text.isWordChar c then
      match pieces cs with
      | .word chars :: rest => .word (c :: chars) :: rest
      | rest => .word [c] :: rest
    else .gap c :: pieces cs

/-- Cutting loses nothing. -/
theorem pieces_flatten (cs : List Char) : (pieces cs).flatMap Piece.chars = cs := by
  induction cs with
  | nil => rfl
  | cons c cs ih =>
    rw [pieces]
    split
    · split
      · rename_i chars rest hrest
        rw [hrest] at ih
        simpa [Piece.chars] using ih
      · simpa [Piece.chars] using ih
    · simpa [Piece.chars] using ih

/-- Whether a word is an identifier. -/
def isIdentifier (chars : List Char) : Bool :=
  match chars with
  | c :: _ => Text.isNameStart c
  | [] => false

/-! ## Substitution -/

/-- What identifiers are replaced by. The first entry of a key counts. -/
abbrev WordTable := List (List Char × List Char)

/-- What a piece is replaced by. Only identifiers are looked up. -/
def Piece.lookup? (table : WordTable) : Piece → Option (List Char)
  | word chars => if isIdentifier chars then table.lookup chars else none
  | gap _ => none

/-- Replaces the identifiers that the table lists, all at once. -/
def substitute (table : WordTable) (cs : List Char) : List Char :=
  (pieces cs).flatMap fun piece => (piece.lookup? table).getD piece.chars

/-- The identifiers that the table replaces and what by, each once, by first occurrence. -/
def replaced (table : WordTable) (cs : List Char) : List (List Char × List Char) :=
  ((pieces cs).filterMap fun piece =>
    (piece.lookup? table).map fun after => (piece.chars, after)).eraseDups

end Refactor.Statement
