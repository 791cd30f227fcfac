import Refactor.Path

/-!
# Places

A place is where a path leads, said in the plainest way: from the root by names alone, or from the
working directory, whose own place is unknown, by steps up and then by names.

- `Place.up`: the directory that a place is in.
- `Place.enter`: where one part of a path leads.
-/

namespace Refactor

/-- Where a path leads. Names that lead up stand first, and only from the working directory. -/
structure Place where
  absolute : Bool
  names : List (List Char)
  deriving DecidableEq, Repr

namespace Place

/-- The name that leads up. -/
def upward : List Char := ['.', '.']

/-- Whether only steps up lead there. The root, the working directory and those above it are such
places, and all of them are directories. -/
def isAbove (p : Place) : Bool :=
  p.names.all (· == upward)

/-- The directory that a place is in; the root is in itself. -/
def up (p : Place) : Place :=
  if !p.absolute && p.isAbove then { p with names := p.names ++ [upward] }
  else { p with names := p.names.dropLast }

/-- The root of the file system. -/
def root : Place := ⟨true, []⟩

/-- Where one part of a path leads. -/
def enter (p : Place) (name : List Char) : Place :=
  if name = upward then p.up else { p with names := p.names ++ [name] }

/-- The path of a place. -/
def path (p : Place) : String :=
  Path.ofParts p.absolute p.names

end Place

end Refactor
