import Refactor.Report.Section

/-!
# Reports in plain text

Refactorings are numbered through all sections, the numbers set right in three places.
-/

namespace Refactor.Report.Plain

/-- A number set right in three places. -/
def ordinal (n : Nat) : String :=
  let digits := Nat.toDigits 10 n
  String.ofList (List.replicate (3 - digits.length) ' ' ++ digits)

/-- The summary of all refactorings. -/
def summary (all : List Summary) : List String :=
  let files := involvedFiles all
  ["Summary:\n"] ++
    (kindCounts all).map (fun (name, count) => "  " ++ name ++ s!": {count}\n") ++
    [s!"  Total refactorings: {all.length}\n"] ++
    (if files.isEmpty then []
      else "\nFiles involved:\n" :: files.map fun file => "  - " ++ file ++ "\n") ++
    ["\n"]

/-- One refactoring and where it shows. -/
def item (settings : Settings) (number : Nat) (s : Summary) : List String :=
  (ordinal number ++ ". " ++ s.display ++ "\n") ::
    if settings.showLocations then
      s.left.map (fun l => "       before: " ++ l.display ++ "\n") ++
        s.right.map (fun l => "       after:  " ++ l.display ++ "\n")
    else []

/-- Refactorings numbered from a given number on. -/
def numbered (settings : Settings) (first : Nat) (refactorings : List Summary) : List String :=
  (refactorings.zipIdx first).flatMap fun (s, number) => item settings number s

/-- Sections, their refactorings numbered from a given number on. -/
def sectionsFrom (settings : Settings) (first : Nat) : List Section → List String
  | [] => []
  | s :: rest =>
    (s.title.map fun title => "\n" ++ title ++ "\n").toList ++
      numbered settings first s.refactorings ++
      sectionsFrom settings (first + s.refactorings.length) rest

/-- The lines of a report. -/
def lines (settings : Settings) (sections : List Section) : List String :=
  let all := allOf sections
  [title ++ "\n\n"] ++ (if settings.showSummary then summary all else []) ++
    if all.isEmpty then ["No refactorings detected.\n"]
    else "Refactorings:\n" :: sectionsFrom settings 1 (filled sections)

end Refactor.Report.Plain
