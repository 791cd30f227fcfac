/-!
# Edit distance

The least number of insertions, deletions and substitutions of single characters that turn one
text into another, computed in two rows. A row has one entry for every prefix of the text on the
right. The rows change places after each character on the left, so that a row is filled over what
is left in it from two characters before.
-/

namespace Refactor.Text

/-- An entry for every prefix of a text, the empty one first. -/
abbrev DistanceRow (right : List Char) := Vector Nat (right.length + 1)

/-- The row of the characters read so far, and the one that the next character fills. -/
structure DistanceRows (right : List Char) where
  previous : DistanceRow right
  current : DistanceRow right

variable {right : List Char}

/-- Writes the entry after position `j` of the row for one more character `c`. -/
def fillEntry (c : Char) (previous : DistanceRow right) (j : Nat) (hj : j < right.length)
    (current : DistanceRow right) : DistanceRow right :=
  let substitution := previous[j] + if c = right[j] then 0 else 1
  current.set (j + 1) (min (min substitution (previous[j + 1] + 1)) (current[j] + 1))

/-- Writes every entry after the first, from left to right. -/
def fillRow (c : Char) (previous current : DistanceRow right) : DistanceRow right :=
  right.length.fold (fillEntry c previous) current

/-- Reads a character with its position, after which the rows change places. -/
def DistanceRows.read (rows : DistanceRows right) (entry : Char × Nat) : DistanceRows right :=
  let filled := fillRow entry.1 rows.previous (rows.current.set 0 (entry.2 + 1))
  { previous := filled, current := rows.previous }

/-- The rows before the first character. -/
def DistanceRows.start (right : List Char) : DistanceRows right :=
  { previous := Vector.range (right.length + 1), current := Vector.replicate (right.length + 1) 0 }

/-- The edit distance of two texts. -/
def distance (left right : List Char) : Nat :=
  (left.zipIdx.foldl DistanceRows.read (DistanceRows.start right)).previous[right.length]

/-- The edit distance of two texts. -/
def editDistance (left right : String) : Nat :=
  distance left.toList right.toList

end Refactor.Text
