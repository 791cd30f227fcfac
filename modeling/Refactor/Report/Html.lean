import Refactor.Report.Section

/-!
# Reports in HTML

A document is a list of fragments: markup that stands in it as it is, and content that comes
from outside and is escaped when it is written. No text can reach a document but as one or the
other, so content never adds markup.
-/

namespace Refactor.Report.Html

/-! ## Escaping -/

/-- The characters that have a meaning in markup and what stands for them. -/
def entities : List (Char × String) :=
  [('&', "&amp;"), ('<', "&lt;"), ('>', "&gt;"), (Char.ofNat 0x22, "&quot;"),
    (Char.ofNat 0x27, "&#39;")]

/-- Puts the entity in place of its character. -/
def replaceChar (entity : Char × String) (cs : List Char) : List Char :=
  cs.flatMap fun c => if c = entity.1 then entity.2.toList else [c]

/-- The text with one entity after the other put in. The ampersand comes first, so that those of
the entities stay. -/
def escapeChars (cs : List Char) : List Char :=
  entities.foldl (fun text entity => replaceChar entity text) cs

/-- The text as content of a document. -/
def escape (text : String) : String :=
  String.ofList (escapeChars text.toList)

/-- A part of a document. -/
inductive Fragment
  | markup (text : String)
  | content (text : String)

def Fragment.write : Fragment → String
  | markup text => text
  | content text => escape text

/-! ## Style -/

/-- A rule of the style sheet: what it applies to, and the properties it sets. -/
structure Rule where
  selector : String
  declarations : List (String × String)

/-- The rule, indented as it stands in the document. -/
def Rule.text (r : Rule) : String :=
  "        " ++ r.selector ++ " \x7b\n" ++
    String.join (r.declarations.map fun (property, value) =>
      "            " ++ property ++ ": " ++ value ++ ";\n") ++
    "        \x7d\n"

/-- The style sheet of all reports. -/
def style : List Rule :=
  [⟨"body",
      [("font-family", "-apple-system, 'Segoe UI', Helvetica, Arial, sans-serif"),
        ("line-height", "1.6"), ("margin", "0"), ("padding", "20px"),
        ("background-color", "#f8f9fa")]⟩,
    ⟨".container",
      [("max-width", "1200px"), ("margin", "0 auto"), ("background-color", "white"),
        ("padding", "30px"), ("border-radius", "8px"),
        ("box-shadow", "0 2px 10px rgba(0,0,0,0.1)")]⟩,
    ⟨"h1, h2",
      [("color", "#333"), ("border-bottom", "2px solid #e9ecef"), ("padding-bottom", "10px")]⟩,
    ⟨".stats-table", [("border-collapse", "collapse"), ("width", "100%"), ("margin", "10px 0")]⟩,
    ⟨".stats-table td", [("border", "1px solid #dee2e6"), ("padding", "8px 12px")]⟩,
    ⟨".stats-table td:first-child",
      [("font-weight", "bold"), ("background-color", "#f8f9fa")]⟩,
    ⟨".kind", [("font-weight", "bold"), ("color", "#0d6efd")]⟩,
    ⟨".language", [("color", "#6c757d")]⟩,
    ⟨".locations", [("list-style-type", "none"), ("font-size", "0.9em")]⟩,
    ⟨"code",
      [("background-color", "#f8f9fa"), ("padding", "2px 4px"), ("border-radius", "3px"),
        ("font-family", "'Consolas', 'Monaco', 'Courier New', monospace")]⟩]

/-! ## Documents -/

open Fragment

/-- What stands before the summary. -/
def opening : List Fragment :=
  [markup "<!DOCTYPE html>\n<html lang=\"en\">\n<head>\n",
    markup "    <meta charset=\"UTF-8\">\n",
    markup ("    <title>" ++ title ++ "</title>\n"),
    markup ("    <style>\n\n" ++ String.join (style.map Rule.text) ++ "    </style>\n"),
    markup "</head>\n<body>\n",
    markup "    <div class=\"container\">\n",
    markup ("        <h1>" ++ title ++ "</h1>\n")]

/-- What stands at the end. -/
def closing : List Fragment :=
  [markup "    </div>\n", markup "</body>\n</html>\n"]

/-- A row of the table of counts. -/
def countRow (name : String) (count : Nat) : Fragment :=
  markup ("                <tr><td>" ++ name ++ s!"</td><td>{count}</td></tr>\n")

/-- The list of the files involved. -/
def fileList (files : List String) : List Fragment :=
  if files.isEmpty then []
  else
    [markup "            <h2>Files Involved</h2>\n            <ul>\n"] ++
      files.flatMap (fun file =>
        [markup "                <li><code>", content file, markup "</code></li>\n"]) ++
      [markup "            </ul>\n"]

/-- The summary of all refactorings. -/
def summary (all : List Summary) : List Fragment :=
  [markup "        <div class=\"summary\">\n", markup "            <h2>Summary</h2>\n",
      markup "            <table class=\"stats-table\">\n"] ++
    (kindCounts all).map (fun (name, count) => countRow name count) ++
    [countRow "Total" all.length, markup "            </table>\n"] ++
    fileList (involvedFiles all) ++ [markup "        </div>\n"]

/-- One place where a refactoring shows. -/
def place (label : String) (l : Location) : List Fragment :=
  [markup ("                        <li>" ++ label ++ ": <code>"), content l.display,
    markup "</code></li>\n"]

/-- One refactoring and where it shows. -/
def item (settings : Settings) (s : Summary) : List Fragment :=
  [markup "                <li><span class=\"kind\">", content s.name,
      markup "</span> <span class=\"language\">", content s.language, markup "</span> ",
      content s.description] ++
    (if settings.showLocations then
      [markup "\n                    <ul class=\"locations\">\n"] ++
        s.left.flatMap (place "before") ++ s.right.flatMap (place "after") ++
        [markup "                    </ul>\n                "]
    else []) ++
    [markup "</li>\n"]

/-- One section. -/
def sectionFragments (settings : Settings) (s : Section) : List Fragment :=
  (match s.title with
    | some title => [markup "            <h3>", content title, markup "</h3>\n"]
    | none => []) ++
    [markup "            <ol>\n"] ++ s.refactorings.flatMap (item settings) ++
    [markup "            </ol>\n"]

/-- The fragments of a report. -/
def fragments (settings : Settings) (sections : List Section) : List Fragment :=
  let all := allOf sections
  opening ++ (if settings.showSummary then summary all else []) ++
    [markup "        <div class=\"refactorings\">\n",
      markup "            <h2>Refactorings</h2>\n"] ++
    (if all.isEmpty then [markup "            <p>No refactorings detected.</p>\n"] else []) ++
    (filled sections).flatMap (sectionFragments settings) ++ [markup "        </div>\n"] ++ closing

/-- The lines of a report. -/
def lines (settings : Settings) (sections : List Section) : List String :=
  (fragments settings sections).map Fragment.write

end Refactor.Report.Html
