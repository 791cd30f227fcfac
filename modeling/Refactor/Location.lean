import Refactor.Error

/-!
# Locations

A location is a closed interval of points in one file, together with the kind of element that
it belongs to. The type itself keeps the two rules that every location obeys: the file has a
name, and the interval does not end before it starts.

Intervals of different files never contain or overlap each other; they are ordered by path.
-/

namespace Refactor

/-- The kind of element that a location belongs to. -/
inductive ElementKind
  | wholeModule
  | classDeclaration
  | methodDeclaration
  | fieldDeclaration
  | parameterDeclaration
  | importDeclaration
  | annotationUse
  | comment
  | docComment
  deriving DecidableEq, Repr

def ElementKind.label : ElementKind → String
  | wholeModule => "MODULE"
  | classDeclaration => "CLASS_DECLARATION"
  | methodDeclaration => "METHOD_DECLARATION"
  | fieldDeclaration => "FIELD_DECLARATION"
  | parameterDeclaration => "PARAMETER_DECLARATION"
  | importDeclaration => "IMPORT_DECLARATION"
  | annotationUse => "ANNOTATION_TYPE_DECLARATION"
  | comment => "COMMENT"
  | docComment => "DOC_COMMENT"

/-- A closed interval of points in a file. -/
structure Location where
  file : String
  start : Point
  stop : Point
  kind : ElementKind
  file_ne : file ≠ ""
  start_le : start ≤ stop
  deriving DecidableEq

namespace Location

/-- A location from its parts. A missing file name is noticed before a reversed interval. -/
def new (file : String) (start stop : Point) (kind : ElementKind) : Except Error Location :=
  if hfile : file = "" then .error .emptyPath
  else if hspan : start ≤ stop then .ok ⟨file, start, stop, kind, hfile, hspan⟩
  else .error (.reversedSpan file start stop)

/-- Whether a point lies in the interval, its ends included. -/
def containsPoint (l : Location) (p : Point) : Bool :=
  l.start ≤ p && p ≤ l.stop

/-- Whether the interval holds all of another one. -/
def contains (l other : Location) : Bool :=
  l.file == other.file && l.containsPoint other.start && l.containsPoint other.stop

/-- Whether the intervals share a point. -/
def overlaps (l other : Location) : Bool :=
  l.file == other.file &&
    (l.containsPoint other.start || l.containsPoint other.stop ||
      other.containsPoint l.start || other.containsPoint l.stop)

/-- Whether the interval starts before another one; files are ordered by path. -/
def isBefore (l other : Location) : Bool :=
  if l.file = other.file then l.start < other.start else l.file < other.file

/-- Whether both intervals start in the same row. -/
def sameLine (l other : Location) : Bool :=
  l.file == other.file && l.start.row == other.start.row

/-- The number of rows that the interval touches. -/
def rowLength (l : Location) : Nat :=
  l.stop.row - l.start.row + 1

/-- The location as users see it. -/
def display (l : Location) : String :=
  l.file ++ ":" ++ l.start.display ++ "-" ++ l.stop.display ++ " [" ++ l.kind.label ++ "]"

/-- The width of an interval within one row. -/
def columnLength (l : Location) : Except Error Nat :=
  if l.start.row = l.stop.row then .ok (l.stop.column - l.start.column)
  else .error (.multiLineWidth l.display)

/-- The smallest interval that holds both, of the first one's kind. -/
def merge (l other : Location) : Except Error Location :=
  if l.file = other.file then
    .ok
      { file := l.file
        start := l.start.earlier other.start
        stop := l.stop.later other.stop
        kind := l.kind
        file_ne := l.file_ne
        start_le := Point.le_trans (Point.earlier_le_left _ _)
          (Point.le_trans l.start_le (Point.le_later_left _ _)) }
  else .error (.differentFiles l.file other.file)

end Location

end Refactor
