import Refactor.Location
import Refactor.Text.Trim

/-!
# Comments

Comments are line comments, block comments or documentation. Their clean text is what a reader
is meant to see: without delimiters, and for the longer kinds line by line without the stars
and blanks around each line.
-/

namespace Refactor

inductive CommentKind
  | line
  | block
  | doc
  deriving DecidableEq, Repr

/-- A comment as it stands in the source. -/
structure Comment where
  text : String
  location : Location
  kind : CommentKind
  deriving DecidableEq

namespace Comment

/-- The kind that the opening delimiter tells. -/
def classify (text : String) : CommentKind :=
  let cs := text.toList.dropWhile Text.isBlank
  if ['/', '*', '*'].isPrefixOf cs ∨ ['"', '"', '"'].isPrefixOf cs ∨
      "'''".toList.isPrefixOf cs then .doc
  else if ['/', '*'].isPrefixOf cs then .block
  else .line

/-- The delimiters of longer comments, in the order in which they are tried. -/
def delimiters : List (List Char × List Char) :=
  [(['/', '*', '*'], ['*', '/']), (['/', '*'], ['*', '/']), (['"', '"', '"'], ['"', '"', '"']),
    ("'''".toList, "'''".toList)]

/-- Removes the first delimiter that opens the text, and its partner if that ends the text. -/
def stripDelimiters (cs : List Char) : List Char :=
  let inner := delimiters.findSome? fun pair =>
    (Text.stripLead? pair.1 cs).map fun rest => (Text.stripTail? pair.2 rest).getD rest
  inner.getD cs

/-- A line of a longer comment without the stars at its start and the blanks around them. -/
def cleanLine (cs : List Char) : List Char :=
  Text.trimChars ((Text.trimChars cs).dropWhile (· == '*'))

/-- What the comment says. -/
def cleanText (c : Comment) : String :=
  let cs := Text.trimChars c.text.toList
  match c.kind with
  | .line => String.ofList (Text.trimChars ((Text.dropPairs '/' cs).dropWhile (· == '#')))
  | .block | .doc =>
    let lines := (Text.linesOf (stripDelimiters cs)).map cleanLine
    Text.join "\n" ((lines.filter fun line => line ≠ []).map String.ofList)

end Comment

end Refactor
