import Refactor.Text.Trim

/-!
# Visibility

Who may use a member, and how the three languages tell: by leading underscores, by a leading
hash sign, or by an access specifier.
-/

namespace Refactor

inductive Visibility
  | publicAccess
  | protectedAccess
  | privateAccess
  | packageAccess
  deriving DecidableEq, Repr

namespace Visibility

def label : Visibility → String
  | publicAccess => "public"
  | protectedAccess => "protected"
  | privateAccess => "private"
  | packageAccess => "package"

/-- Two leading underscores make a name private, one makes it protected. -/
def ofUnderscores (name : String) : Visibility :=
  match name.toList with
  | '_' :: '_' :: _ => privateAccess
  | '_' :: _ => protectedAccess
  | _ => publicAccess

/-- A leading hash sign makes a name private. -/
def ofHashSign (name : String) : Visibility :=
  match name.toList with
  | '#' :: _ => privateAccess
  | _ => publicAccess

/-- The visibility that an access specifier announces. -/
def ofSpecifier? (text : String) : Option Visibility :=
  let word := Text.trim (Text.trimEndBy (· == ':') (Text.trim text))
  if word = "public" then some publicAccess
  else if word = "protected" then some protectedAccess
  else if word = "private" then some privateAccess
  else none

/-- From the most restrictive to the least. -/
def rank : Visibility → Nat
  | privateAccess => 0
  | packageAccess => 1
  | protectedAccess => 2
  | publicAccess => 3

def isMoreRestrictiveThan (v other : Visibility) : Bool :=
  v.rank < other.rank

end Visibility

end Refactor
