import Refactor.Model.TypeRef

/-!
# Reading types and qualified names

The text of a type is a name, or a name with arguments in angle brackets that are types again.
Arguments are separated by the commas outside of any brackets. The name alone tells whether a
type with arguments is a collection or a map.

A qualified name leads through scopes to a member; the scope right before the member, without
its own arguments, is the member's owner.
-/

namespace Refactor.Extract

/-! ## Arguments -/

/-- How a character changes the depth of brackets. A closing bracket too many does not count. -/
def bracketDepth (depth : Nat) (c : Char) : Nat :=
  if c = '<' ∨ c = '(' then depth + 1
  else if c = '>' ∨ c = ')' then depth - 1
  else depth

/-- The parts between the commas at depth zero, from a given depth on. -/
def topLevelParts (depth : Nat) : List Char → List (List Char)
  | [] => [[]]
  | c :: cs =>
    if c = ',' ∧ depth = 0 then [] :: topLevelParts depth cs
    else
      match topLevelParts (bracketDepth depth c) cs with
      | part :: parts => (c :: part) :: parts
      | [] => [[c]]

/-- The arguments in a text between angle brackets; empty ones do not count. -/
def argumentTexts (inside : List Char) : List (List Char) :=
  ((topLevelParts 0 inside).map Text.trimChars).filter fun part => part ≠ []

theorem length_trimChars_le (cs : List Char) : (Text.trimChars cs).length ≤ cs.length := by
  unfold Text.trimChars Text.dropWhileEnd
  have drop_le : ∀ l : List Char, (l.dropWhile Text.isBlank).length ≤ l.length :=
    fun l => (List.dropWhile_sublist _).length_le
  have outer := drop_le (cs.dropWhile Text.isBlank).reverse
  have inner := drop_le cs
  simp only [List.length_reverse] at outer ⊢
  omega

theorem length_topLevelParts_le {depth : Nat} {cs part : List Char}
    (h : part ∈ topLevelParts depth cs) : part.length ≤ cs.length := by
  induction cs generalizing depth part with
  | nil => simp_all [topLevelParts]
  | cons c cs ih =>
    rw [topLevelParts] at h
    split at h
    · rcases List.mem_cons.mp h with rfl | h
      · simp
      · exact Nat.le_succ_of_le (ih h)
    · split at h
      · rename_i first rest hparts
        rcases List.mem_cons.mp h with rfl | h
        · have hfirst : first ∈ topLevelParts (bracketDepth depth c) cs := by simp [hparts]
          simpa using ih hfirst
        · have hrest : part ∈ topLevelParts (bracketDepth depth c) cs := by simp [hparts, h]
          exact Nat.le_succ_of_le (ih hrest)
      · simp_all

theorem length_argumentTexts_le {inside part : List Char} (h : part ∈ argumentTexts inside) :
    part.length ≤ inside.length := by
  simp only [argumentTexts, List.mem_filter, List.mem_map] at h
  obtain ⟨⟨whole, hwhole, rfl⟩, -⟩ := h
  exact Nat.le_trans (length_trimChars_le whole) (length_topLevelParts_le hwhole)

/-! ## Types -/

/-- The name before the first angle bracket and the text up to the last one, for a text that
ends with an angle bracket. -/
def splitArguments? (text : List Char) : Option (List Char × List Char) :=
  if text.getLast? = some '>' ∧ '<' ∈ text then
    some (text.takeWhile (· ≠ '<'), ((text.dropWhile (· ≠ '<')).drop 1).dropLast)
  else none

theorem length_splitArguments? {text base inside : List Char}
    (h : splitArguments? text = some (base, inside)) : inside.length < text.length := by
  unfold splitArguments? at h
  split at h
  · rename_i hcond
    simp only [Option.some.injEq, Prod.mk.injEq] at h
    obtain ⟨-, rfl⟩ := h
    have hpos : 0 < text.length := List.length_pos_of_mem hcond.2
    have hdrop : (text.dropWhile (· ≠ '<')).length ≤ text.length :=
      (List.dropWhile_sublist _).length_le
    simp only [List.length_dropLast, List.length_drop]
    omega
  · cases h

def collectionNames : List String :=
  ["vector", "list", "deque", "set", "unordered_set", "array"]

def mapNames : List String :=
  ["map", "unordered_map", "multimap"]

/-- The last part of a name with scopes. -/
def lastScope (name : List Char) : List Char :=
  Text.afterLast [':', ':'] name

/-- The type with arguments that a name makes. -/
def genericType (base : List Char) (arguments : List TypeRef) : TypeRef :=
  let simple := String.ofList (lastScope base)
  { name := String.ofList base
    arguments := arguments
    isCollection := collectionNames.contains simple
    isMap := mapNames.contains simple }

/-- The type that a text denotes. -/
def typeOfChars (cs : List Char) : TypeRef :=
  match _h : splitArguments? (Text.trimChars cs) with
  | none => .named (String.ofList (Text.trimChars cs))
  | some (base, inside) =>
    genericType (Text.trimChars base)
      ((argumentTexts inside).attach.map fun part => typeOfChars part.1)
termination_by cs.length
decreasing_by
  have hpart := length_argumentTexts_le part.2
  have hinside := length_splitArguments? _h
  have htext := length_trimChars_le cs
  omega

/-- The type that a text denotes. -/
def typeOfText (text : String) : TypeRef :=
  typeOfChars text.toList

/-! ## Qualified names -/

/-- The owner and the name of a member. The owner is the scope right before the name, without
template arguments. -/
def splitQualified (text : String) : Option String × String :=
  match Text.splitLast? [':', ':'] text.toList with
  | some (scope, name) =>
    let owner := Text.trimChars ((lastScope scope).takeWhile (· ≠ '<'))
    (if owner = [] then none else some (String.ofList owner), String.ofList (Text.trimChars name))
  | none => (none, Text.trim text)

end Refactor.Extract
