import Refactor.Pattern.PropertyName
import Refactor.Text.CharClass
import Refactor.Text.Trim

/-!
# Sets of characters

The sets that a pattern can name, as terms that say how a set is made up. `CharSet.mem` says what
is in a set.

A set that ignores case holds a letter with its other forms. These are the small and the capital
letter of ASCII, and the long s and the Kelvin sign, which fold to ASCII letters.
-/

namespace Refactor.Pattern

/-- How two sets are combined. -/
inductive SetOperator
  | union
  | intersection
  | difference
  | symmetricDifference
  deriving DecidableEq, Repr

/-- A set of characters. -/
inductive CharSet
  /-- The code points of inclusive ranges. -/
  | ranges (ranges : List (Nat × Nat))
  /-- The characters with a property: those of ASCII are told, and there may be many others. -/
  | property (ascii : List (Nat × Nat))
  /-- Decimal digits of any script. -/
  | digit
  /-- Blanks of any script. -/
  | blank
  /-- Word characters of any script. -/
  | word
  | complement (s : CharSet)
  | combine (operator : SetOperator) (a b : CharSet)
  /-- The set with all other forms of its letters. -/
  | anyCase (s : CharSet)
  deriving Repr

namespace CharSet

/-- The set without members. -/
def nothing : CharSet := ranges []

/-- The set of one character. -/
def single (c : Char) : CharSet := ranges [(c.toNat, c.toNat)]

/-- A letter with its other forms. -/
def forms (c : Char) : List Char :=
  let n := c.toNat
  let base := if 0x41 ≤ n && n ≤ 0x5A then Char.ofNat (n + 32) else c
  if base = 's' ∨ n = 0x17F then ['s', 'S', Char.ofNat 0x17F]
  else if base = 'k' ∨ n = 0x212A then ['k', 'K', Char.ofNat 0x212A]
  else if 0x61 ≤ base.toNat && base.toNat ≤ 0x7A then [base, Char.ofNat (base.toNat - 32)]
  else [c]

/-- Whether a character is in a set. -/
def mem (c : Char) : CharSet → Bool
  | ranges rs | property rs => Text.inRanges rs c.toNat
  | digit => Text.isDigit c
  | blank => Text.isBlank c
  | word => Text.isWordChar c
  | complement s => !s.mem c
  | combine .union a b => a.mem c || b.mem c
  | combine .intersection a b => a.mem c && b.mem c
  | combine .difference a b => a.mem c && !b.mem c
  | combine .symmetricDifference a b => a.mem c != b.mem c
  | anyCase s => (forms c).any fun form => s.mem form

/-- The set as it is, or its complement. -/
def negatedIf (negated : Bool) (s : CharSet) : CharSet :=
  if negated then complement s else s

/-- The union of several sets. -/
def unions (sets : List CharSet) : CharSet :=
  sets.foldr (combine .union) nothing

/-! ## Sets by name -/

/-- The ASCII sets that have names between colons. -/
def asciiClasses : List (String × List (Nat × Nat)) :=
  [("alnum", [(0x30, 0x39), (0x41, 0x5A), (0x61, 0x7A)]), ("alpha", [(0x41, 0x5A), (0x61, 0x7A)]),
   ("ascii", [(0x00, 0x7F)]), ("blank", [(0x09, 0x09), (0x20, 0x20)]),
   ("cntrl", [(0x00, 0x1F), (0x7F, 0x7F)]), ("digit", [(0x30, 0x39)]), ("graph", [(0x21, 0x7E)]),
   ("lower", [(0x61, 0x7A)]), ("print", [(0x20, 0x7E)]),
   ("punct", [(0x21, 0x2F), (0x3A, 0x40), (0x5B, 0x60), (0x7B, 0x7E)]),
   ("space", [(0x09, 0x0D), (0x20, 0x20)]), ("upper", [(0x41, 0x5A)]),
   ("word", [(0x30, 0x39), (0x41, 0x5A), (0x5F, 0x5F), (0x61, 0x7A)]),
   ("xdigit", [(0x30, 0x39), (0x41, 0x46), (0x61, 0x66)])]

/-- The set of an ASCII name. -/
def asciiClass? (name : String) : Option CharSet :=
  (asciiClasses.lookup name).map ranges

/-- A property's name in its plainest form: small letters, without an `is` at the start and without
blanks, hyphens and underscores. -/
def plainName (name : List Char) : String :=
  let small := name.map Char.toLower
  let rest := (Text.stripLead? ['i', 's'] small).getD small
  let kept := rest.filter fun c => c ≠ ' ' ∧ c ≠ '_' ∧ c ≠ '-' ∧ c.toNat < 0x80
  if kept = ['c'] ∧ rest.length < small.length then "isc" else String.ofList kept

/-- The set of a name in a table of properties. -/
def inTable? (table : List (List (Nat × Nat) × String)) (name : String) : Option CharSet :=
  (table.find? fun row => (Text.fields ' ' row.2.toList).contains name.toList).map
    fun row => property row.1

/-- The set of a property's name alone. -/
def property? (name : List Char) : Option CharSet :=
  let name := plainName name
  inTable? binaryProperties name <|> inTable? generalCategories name <|> inTable? scripts name

/-- The editions of the standard. -/
def editions : List String :=
  ["1.1", "2.0", "2.1", "3.0", "3.1", "3.2", "4.0", "4.1", "5.0", "5.1", "5.2", "6.0", "6.1", "6.2",
   "6.3", "7.0", "8.0", "9.0", "10.0", "11.0", "12.0", "12.1", "13.0", "14.0", "15.0", "15.1",
   "16.0"]

/-- The names of an edition, as a property's value. All ASCII characters are in the first. -/
def editionNames : List String :=
  editions.flatMap fun e => [e, "v" ++ String.ofList (e.toList.filter (· ≠ '.')),
    "v" ++ String.ofList (e.toList.map fun c => if c = '.' then '_' else c)].map fun name =>
      plainName name.toList

/-- The set of a property's name and value. -/
def propertyValue? (name value : List Char) : Option CharSet :=
  let value := plainName value
  match plainName name with
  | "gc" | "generalcategory" | "category" => inTable? generalCategories value
  | "sc" | "script" | "scx" | "scriptextensions" => inTable? scripts value
  | "age" => if editionNames.contains value then some (ranges [(0, 0x7F)]) else none
  | _ => none

end CharSet

end Refactor.Pattern
