import Refactor.Text.CharClass

/-!
# The calls in a statement

A call is an identifier at the start of a word, blanks, and a list of arguments in parentheses
that holds no parentheses itself. Calls are found from left to right and do not overlap.
-/

namespace Refactor.Statement

/-- A call: its name and the text between the parentheses. -/
structure Call where
  name : List Char
  arguments : List Char
  deriving DecidableEq, Repr

def isParenthesis (c : Char) : Bool :=
  c == '(' || c == ')'

/-- The call whose name starts with `c`, and the text after it. -/
def callAt? (c : Char) (cs : List Char) : Option (Call × List Char) :=
  match (cs.dropWhile Text.isWordChar).dropWhile Text.isBlank with
  | '(' :: inside =>
    match inside.dropWhile (!isParenthesis ·) with
    | ')' :: rest =>
      some (⟨c :: cs.takeWhile Text.isWordChar, inside.takeWhile (!isParenthesis ·)⟩, rest)
    | _ => none
  | _ => none

theorem length_callAt? {c : Char} {cs rest : List Char} {call : Call}
    (h : callAt? c cs = some (call, rest)) : rest.length < cs.length := by
  have drop_le : ∀ (p : Char → Bool) (l : List Char), (l.dropWhile p).length ≤ l.length :=
    fun p l => (List.dropWhile_sublist p).length_le
  unfold callAt? at h
  split at h
  · rename_i inside hinside
    split at h
    · rename_i after hafter
      cases h
      have hword := drop_le Text.isWordChar cs
      have hblank := drop_le Text.isBlank (cs.dropWhile Text.isWordChar)
      have harguments := drop_le (!isParenthesis ·) inside
      rw [hinside] at hblank
      rw [hafter] at harguments
      simp only [List.length_cons] at hblank harguments
      omega
    · cases h
  · cases h

/-- The calls of a text, told whether a word character precedes it. -/
def callsAfter (inWord : Bool) : List Char → List Call
  | [] => []
  | c :: cs =>
    if !inWord && Text.isNameStart c then
      match _h : callAt? c cs with
      | some (call, rest) => call :: callsAfter false rest
      | none => callsAfter true cs
    else callsAfter (Text.isWordChar c) cs
termination_by cs => cs.length
decreasing_by
  · have := length_callAt? _h
    simp only [List.length_cons]
    omega
  · simp
  · simp

/-- The calls of a text. -/
def calls (cs : List Char) : List Call :=
  callsAfter false cs

end Refactor.Statement
