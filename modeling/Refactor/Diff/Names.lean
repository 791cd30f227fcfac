import Refactor.Text.EditDistance
import Refactor.Text.Lowercase

/-!
# Related names

Names are compared by what is left of them without a leading verb and a trailing word such as
`Async`, in small letters. They are related when they are equal, when what is left of one
stands in the other's, or when few edits lead from one to the other.

A leading verb or trailing word is found whatever its case. The long s and the Kelvin sign are
counted as the letters s and k, whose other forms they are.
-/

namespace Refactor.Names

/-! ## Normal forms -/

def leadingVerbs : List String :=
  ["get", "set", "is", "has", "do", "make", "create", "build", "compute", "calculate", "find",
    "search", "fetch"]

def trailingWords : List String :=
  ["async", "impl", "internal", "helper"]

/-- The small ASCII letter that a letter is a form of; any other character stands for itself. -/
def caseFold (c : Char) : Char :=
  if 'A' ≤ c ∧ c ≤ 'Z' then Char.ofNat (c.toNat + 32)
  else if c.toNat = 0x17F then 's'
  else if c.toNat = 0x212A then 'k'
  else c

/-- The name without the first of the verbs that it starts with. -/
def dropVerb (name : List Char) : List Char :=
  match leadingVerbs.find? fun verb => verb.toList.isPrefixOf (name.map caseFold) with
  | some verb => name.drop verb.length
  | none => name

/-- The name without the trailing word that it ends with. -/
def dropTrailing (name : List Char) : List Char :=
  match trailingWords.find? fun word => word.toList.isSuffixOf (name.map caseFold) with
  | some word => name.take (name.length - word.length)
  | none => name

/-- What names are compared by. -/
def normalize (name : String) : String :=
  Text.lowercase (String.ofList (dropTrailing (dropVerb name.toList)))

/-! ## Relatedness -/

/-- Whether a text stands somewhere in another. -/
def occursIn (part : List Char) : List Char → Bool
  | [] => part.isEmpty
  | c :: cs => part.isPrefixOf (c :: cs) || occursIn part cs

/-- Whether two names are related, allowing up to `maxDistance` edits. -/
def related (maxDistance : Nat) (old new : String) : Bool :=
  old == new ||
    let old := (normalize old).toList
    let new := (normalize new).toList
    old == new || occursIn new old || occursIn old new || Text.distance old new ≤ maxDistance

end Refactor.Names
