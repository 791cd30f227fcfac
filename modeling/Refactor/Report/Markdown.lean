import Refactor.Report.Section

/-!
# Reports in Markdown

The summary is a table, the refactorings are a list with their locations below them.
-/

namespace Refactor.Report.Markdown

/-- A text set as code. -/
def code (text : String) : String :=
  "`" ++ text ++ "`"

/-- The summary of all refactorings. -/
def summary (all : List Summary) : List String :=
  let files := involvedFiles all
  ["## Summary\n\n", "| Refactoring | Count |\n|---|---|\n"] ++
    (kindCounts all).map (fun (name, count) => "| " ++ name ++ s!" | {count} |\n") ++
    [s!"| **Total** | {all.length} |\n\n"] ++
    if files.isEmpty then []
    else
      ["## Files Involved\n\n"] ++ files.map (fun file => "- " ++ code file ++ "\n") ++ ["\n"]

/-- One refactoring and where it shows. -/
def item (settings : Settings) (s : Summary) : List String :=
  ("- **" ++ s.name ++ "** (" ++ s.language ++ "): " ++ s.description ++ "\n") ::
    if settings.showLocations then
      s.left.map (fun l => "  - before: " ++ code l.display ++ "\n") ++
        s.right.map (fun l => "  - after: " ++ code l.display ++ "\n")
    else []

/-- One section. One with a title is set off from what follows. -/
def sectionLines (settings : Settings) (s : Section) : List String :=
  let items := s.refactorings.flatMap (item settings)
  match s.title with
  | some title => ("### " ++ title ++ "\n\n") :: items ++ ["\n"]
  | none => items

/-- The lines of a report. -/
def lines (settings : Settings) (sections : List Section) : List String :=
  let all := allOf sections
  ["# " ++ title ++ "\n\n"] ++ (if settings.showSummary then summary all else []) ++
    "## Refactorings\n\n" ::
      if all.isEmpty then ["_No refactorings detected._\n"]
      else (filled sections).flatMap (sectionLines settings)

end Refactor.Report.Markdown
