import Refactor.Text.CharClass

/-!
# Trimming and cutting texts

Texts are handled as lists of characters; each operation has a version on `String` that wraps
it. Trimming removes every character of a class from an end; cutting finds the last (or first)
place where a separator stands.
-/

namespace Refactor.Text

/-! ## Ends -/

/-- Removes the longest run of `p` at the end. -/
def dropWhileEnd (p : Char → Bool) (cs : List Char) : List Char :=
  (cs.reverse.dropWhile p).reverse

/-- Removes blanks at both ends. -/
def trimChars (cs : List Char) : List Char :=
  dropWhileEnd isBlank (cs.dropWhile isBlank)

/-- Removes the longest run of `p` at the start. -/
def trimStartBy (p : Char → Bool) (s : String) : String :=
  String.ofList (s.toList.dropWhile p)

/-- Removes the longest run of `p` at the end. -/
def trimEndBy (p : Char → Bool) (s : String) : String :=
  String.ofList (dropWhileEnd p s.toList)

/-- Removes the runs of `p` at both ends. -/
def trimBy (p : Char → Bool) (s : String) : String :=
  String.ofList (dropWhileEnd p (s.toList.dropWhile p))

/-- Removes blanks at both ends. -/
def trim (s : String) : String :=
  trimBy isBlank s

/-- What follows `lead`, when the text starts with it. -/
def stripLead? (lead : List Char) (cs : List Char) : Option (List Char) :=
  if lead.isPrefixOf cs then some (cs.drop lead.length) else none

/-- What precedes `tail`, when the text ends with it. -/
def stripTail? (tail : List Char) (cs : List Char) : Option (List Char) :=
  if tail.isSuffixOf cs then some (cs.take (cs.length - tail.length)) else none

/-- Removes a pair of equal characters `a`, `a` at the start as often as it stands there. -/
def dropPairs (a : Char) : List Char → List Char
  | x :: y :: rest => if x = a ∧ y = a then dropPairs a rest else x :: y :: rest
  | short => short

/-! ## Cuts -/

/-- Splits at the last place where `sep` stands. -/
def splitLast? (sep : List Char) : List Char → Option (List Char × List Char)
  | [] => none
  | c :: cs =>
    match splitLast? sep cs with
    | some (before, after) => some (c :: before, after)
    | none => (stripLead? sep (c :: cs)).map fun after => ([], after)

/-- What follows the last `sep`, or the whole text. -/
def afterLast (sep : List Char) (cs : List Char) : List Char :=
  match splitLast? sep cs with
  | some (_, after) => after
  | none => cs

/-- The texts before and after the last `sep`. -/
def cutLast? (sep : String) (s : String) : Option (String × String) :=
  (splitLast? sep.toList s.toList).map fun parts => (String.ofList parts.1, String.ofList parts.2)

/-- The texts before and after the first `sep`. -/
def splitFirst? (sep : List Char) : List Char → Option (List Char × List Char)
  | [] => none
  | c :: cs =>
    match stripLead? sep (c :: cs) with
    | some after => some ([], after)
    | none => (splitFirst? sep cs).map fun (before, after) => (c :: before, after)

/-- The part of a text between the separators `c`; a text without one is its own only part. -/
def fields (c : Char) : List Char → List (List Char)
  | [] => [[]]
  | x :: xs =>
    if x = c then [] :: fields c xs
    else
      match fields c xs with
      | part :: parts => (x :: part) :: parts
      | [] => [[x]]

/-! ## Lines -/

/-- Removes the carriage return that a line feed was preceded by. -/
def dropReturn (line : List Char) : List Char :=
  (stripTail? ['\r'] line).getD line

/-- The lines of a text. A line feed ends a line, a carriage return right before it belongs to
the line end, and nothing follows a final line feed. -/
def linesOf : List Char → List (List Char)
  | [] => []
  | cs =>
    match fields '\n' cs with
    | [] => []
    | parts =>
      let closed := parts.dropLast.map dropReturn
      match parts.getLast? with
      | some [] => closed
      | some last => closed ++ [last]
      | none => closed

/-- The lines of a text. -/
def lines (s : String) : List String :=
  (linesOf s.toList).map String.ofList

/-- Joins texts with `sep` between them. -/
def join (sep : String) (parts : List String) : String :=
  sep.intercalate parts

/-! ## Laws -/

theorem stripLead?_eq_some {lead cs rest : List Char} :
    stripLead? lead cs = some rest ↔ cs = lead ++ rest := by
  unfold stripLead?
  constructor
  · intro h
    split at h
    · rename_i hp
      obtain ⟨t, rfl⟩ := List.isPrefixOf_iff_prefix.mp hp
      simpa using h
    · cases h
  · rintro rfl
    simp

/-- A cut loses nothing but the separator. -/
theorem splitLast?_append {sep cs before after : List Char}
    (h : splitLast? sep cs = some (before, after)) : cs = before ++ sep ++ after := by
  induction cs generalizing before with
  | nil => cases h
  | cons c cs ih =>
    rw [splitLast?] at h
    split at h
    · rename_i b a hrest
      cases h
      simp [ih hrest]
    · simp only [Option.map_eq_some_iff, Prod.mk.injEq] at h
      obtain ⟨rest, hrest, rfl, rfl⟩ := h
      simpa using stripLead?_eq_some.mp hrest

end Refactor.Text
