import Refactor.Report.Format
import Refactor.Report.Html
import Refactor.Report.Markdown
import Refactor.Report.Plain
import Refactor.Text.Bytes

/-!
# Rendering reports

The report of a list of sections in a format, with the figures that go with it.
-/

namespace Refactor

/-- A rendered report. -/
structure Report where
  content : String
  format : Report.Format
  /-- The number of refactorings. -/
  count : Nat
  /-- The number of files involved. -/
  fileCount : Nat

namespace Report

/-- Renders a report. -/
def render (format : Format) (settings : Settings) (sections : List Section) : Report :=
  let lines :=
    match format with
    | .plainText => Plain.lines settings sections
    | .markdown => Markdown.lines settings sections
    | .html => Html.lines settings sections
  let all := allOf sections
  { content := String.join lines
    format := format
    count := all.length
    fileCount := (involvedFiles all).length }

/-- The size of the content in bytes. -/
def size (r : Report) : Nat :=
  Text.byteLength r.content.toList

/-- Whether the content shows nothing. -/
def isEmpty (r : Report) : Bool :=
  Text.trim r.content == ""

end Report

end Refactor
