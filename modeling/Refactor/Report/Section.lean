import Refactor.Refactoring
import Refactor.TextMap

/-!
# What a report tells

A report lists refactorings in sections, which may have titles. Before them it tells how many
there are of each kind and which files are involved. Sections without refactorings are left out.
-/

namespace Refactor.Report

/-- The title of every report. -/
def title : String := "Refactoring Detection Report"

/-- Refactorings that belong together, for instance those of one commit. -/
structure Section where
  title : Option String := none
  refactorings : List Summary := []

/-- What a report shows. -/
structure Settings where
  showLocations : Bool := true
  showSummary : Bool := true

/-- The refactorings of all sections. -/
def allOf (sections : List Section) : List Summary :=
  sections.flatMap Section.refactorings

/-- The sections that have refactorings. -/
def filled (sections : List Section) : List Section :=
  sections.filter fun s => !s.refactorings.isEmpty

/-- How many refactorings there are of each kind that appears. -/
def kindCounts (all : List Summary) : List (String × Nat) :=
  RefactoringKind.all.filterMap fun kind =>
    let count := all.countP fun s => s.kind == kind
    if count = 0 then none else some (kind.displayName, count)

/-- The files involved, each once, in order. -/
def involvedFiles (all : List Summary) : List String :=
  (TextMap.ofList ((all.flatMap Summary.files).map fun file => (file, ()))).keys

end Refactor.Report
