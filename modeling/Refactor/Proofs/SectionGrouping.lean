import Refactor.Report.Render

/-!
# Grouping the refactorings of a report

**Theorem (`render_grouping`).** Sections without refactorings leave no trace in a report, whatever
its format. In plain text and Markdown it makes no difference whether refactorings without a title
stand in one section or in several. In plain text the refactorings are numbered through all
sections: the `k`-th of them all is the one on the line with number `k`.

A report depends on the refactorings of all sections and on the sections that have some, and leaving
out the others changes neither (`render_filled`). Untitled sections put nothing around their
refactorings (`flatMap_sectionLines_untitled`, `sectionsFrom_untitled`), so that only the list of
all of these counts. The printed list is the print of its entries (`flatMap_lines_entriesFrom`); a
section goes on with the number where the one before it stopped, hence the numbers are positions in
the list of all refactorings (`filterMap_numbered_entriesFrom`) and each of these has its line
(`Plain.exists_line`).
-/

namespace Refactor.Report

/-! ## Sections without refactorings -/

theorem allOf_cons (s : Section) (sections : List Section) :
    allOf (s :: sections) = s.refactorings ++ allOf sections :=
  rfl

theorem allOf_append (sections more : List Section) :
    allOf (sections ++ more) = allOf sections ++ allOf more :=
  List.flatMap_append

theorem filled_append (sections more : List Section) :
    filled (sections ++ more) = filled sections ++ filled more :=
  List.filter_append _ _

theorem filled_filled (sections : List Section) : filled (filled sections) = filled sections := by
  rw [filled, filled, List.filter_filter]
  simp only [Bool.and_self]

theorem allOf_filled (sections : List Section) : allOf (filled sections) = allOf sections := by
  induction sections with
  | nil => rfl
  | cons s sections ih =>
    cases hs : s.refactorings with
    | nil =>
      rw [filled, List.filter_cons_of_neg (by simp [hs]), ← filled, ih, allOf_cons, hs,
        List.nil_append]
    | cons r rest =>
      rw [filled, List.filter_cons_of_pos (by simp [hs]), ← filled, allOf_cons, allOf_cons, ih]

/-- **A report shows the sections that have refactorings and nothing else.** -/
theorem render_filled (format : Format) (settings : Settings) (sections : List Section) :
    render format settings (filled sections) = render format settings sections := by
  unfold render
  cases format with
  | plainText => simp only [Plain.lines, allOf_filled, filled_filled]
  | markdown => simp only [Markdown.lines, allOf_filled, filled_filled]
  | html => simp only [Html.lines, Html.fragments, allOf_filled, filled_filled]

/-! ## Untitled sections -/

/-- Refactorings that stand together without a title. -/
def untitled (refactorings : List Summary) : Section :=
  { refactorings := refactorings }

theorem allOf_untitled (parts : List (List Summary)) :
    allOf (parts.map untitled) = parts.flatten := by
  rw [allOf, List.flatMap_map, List.flatten_eq_flatMap]
  rfl

/-- Without their empty parts, untitled sections still have the same refactorings. -/
theorem exists_filled_untitled (parts : List (List Summary)) :
    ∃ kept : List (List Summary),
      filled (parts.map untitled) = kept.map untitled ∧ kept.flatten = parts.flatten := by
  refine ⟨parts.filter fun part => !part.isEmpty, ?_, List.flatten_filter_not_isEmpty⟩
  rw [filled, List.filter_map]
  rfl

theorem allOf_around (before after : List Section) (parts : List (List Summary)) :
    allOf (before ++ parts.map untitled ++ after) =
      allOf before ++ parts.flatten ++ allOf after := by
  rw [allOf_append, allOf_append, allOf_untitled]

namespace Markdown

theorem flatMap_sectionLines_untitled (settings : Settings) (parts : List (List Summary)) :
    (parts.map untitled).flatMap (sectionLines settings) =
      parts.flatten.flatMap (item settings) := by
  rw [List.flatMap_map, List.flatten_eq_flatMap, List.flatMap_assoc]
  rfl

theorem flatMap_sectionLines_around (settings : Settings) (before after : List Section)
    (parts : List (List Summary)) :
    (filled (before ++ parts.map untitled ++ after)).flatMap (sectionLines settings) =
      (filled before).flatMap (sectionLines settings) ++ parts.flatten.flatMap (item settings) ++
        (filled after).flatMap (sectionLines settings) := by
  obtain ⟨kept, hkept, hflatten⟩ := exists_filled_untitled parts
  rw [filled_append, filled_append, hkept, List.flatMap_append, List.flatMap_append,
    flatMap_sectionLines_untitled, hflatten]

/-- In Markdown only the refactorings of neighbouring untitled sections count. -/
theorem lines_regroup (settings : Settings) (before after : List Section)
    {parts parts' : List (List Summary)} (h : parts.flatten = parts'.flatten) :
    lines settings (before ++ parts.map untitled ++ after) =
      lines settings (before ++ parts'.map untitled ++ after) := by
  unfold lines
  rw [allOf_around, allOf_around, flatMap_sectionLines_around, flatMap_sectionLines_around, h]

end Markdown

namespace Plain

theorem numbered_append (settings : Settings) (first : Nat) (refactorings more : List Summary) :
    numbered settings first (refactorings ++ more) =
      numbered settings first refactorings ++
        numbered settings (first + refactorings.length) more := by
  rw [numbered, List.zipIdx_append, List.flatMap_append]
  rfl

theorem sectionsFrom_append (settings : Settings) (first : Nat) (sections more : List Section) :
    sectionsFrom settings first (sections ++ more) =
      sectionsFrom settings first sections ++
        sectionsFrom settings (first + (allOf sections).length) more := by
  -- Each section starts from a number of its own, so the first number is general.
  induction sections generalizing first with
  | nil => rfl
  | cons s sections ih =>
    rw [List.cons_append, sectionsFrom, sectionsFrom, ih, allOf_cons, List.length_append,
      ← Nat.add_assoc, List.append_assoc _ _ (sectionsFrom _ _ more)]

theorem sectionsFrom_untitled (settings : Settings) (first : Nat) (parts : List (List Summary)) :
    sectionsFrom settings first (parts.map untitled) = numbered settings first parts.flatten := by
  induction parts generalizing first with
  | nil => rfl
  | cons part parts ih =>
    rw [List.map_cons, sectionsFrom, ih, List.flatten_cons, numbered_append]
    rfl

theorem sectionsFrom_around (settings : Settings) (first : Nat) (before after : List Section)
    (parts : List (List Summary)) :
    sectionsFrom settings first (filled (before ++ parts.map untitled ++ after)) =
      sectionsFrom settings first (filled before) ++
        numbered settings (first + (allOf before).length) parts.flatten ++
        sectionsFrom settings (first + (allOf before ++ parts.flatten).length) (filled after) := by
  obtain ⟨kept, hkept, hflatten⟩ := exists_filled_untitled parts
  rw [filled_append, filled_append, hkept, sectionsFrom_append, sectionsFrom_append,
    sectionsFrom_untitled, allOf_append, allOf_untitled, allOf_filled, hflatten]

/-- In plain text only the refactorings of neighbouring untitled sections count. -/
theorem lines_regroup (settings : Settings) (before after : List Section)
    {parts parts' : List (List Summary)} (h : parts.flatten = parts'.flatten) :
    lines settings (before ++ parts.map untitled ++ after) =
      lines settings (before ++ parts'.map untitled ++ after) := by
  unfold lines
  rw [allOf_around, allOf_around, sectionsFrom_around, sectionsFrom_around, h]

/-! ## Numbers -/

/-- What stands in the list of a report: the title of a section, or a refactoring and its
number. -/
inductive Entry
  | heading (title : String)
  | refactoring (number : Nat) (s : Summary)

namespace Entry

/-- The entry in print: a title stands below a blank line, a refactoring after its number, with its
places below if they are wanted. -/
def lines (settings : Settings) : Entry → List String
  | heading title => ["\n" ++ title ++ "\n"]
  | refactoring number s =>
    [ordinal number ++ ". " ++ s.display ++ "\n"] ++
      if settings.showLocations then
        (s.left.map fun place => "       before: " ++ place.display ++ "\n") ++
          s.right.map fun place => "       after:  " ++ place.display ++ "\n"
      else []

/-- The refactoring of the entry with its number, if it is one. -/
def numbered? : Entry → Option (Summary × Nat)
  | heading _ => none
  | refactoring number s => some (s, number)

/-- The entry without its number. -/
def shown : Entry → String ⊕ Summary
  | heading title => .inl title
  | refactoring _ s => .inr s

end Entry

/-- What a section shows: its title and its refactorings. -/
def shownBy (s : Section) : List (String ⊕ Summary) :=
  (s.title.map .inl).toList ++ s.refactorings.map .inr

/-- The entries of sections whose refactorings are numbered from a given number on. -/
def entriesFrom (first : Nat) : List Section → List Entry
  | [] => []
  | s :: rest =>
    (s.title.map .heading).toList ++
      (s.refactorings.zipIdx first).map (fun numbered => .refactoring numbered.2 numbered.1) ++
      entriesFrom (first + s.refactorings.length) rest

theorem flatMap_lines_entriesFrom (settings : Settings) (first : Nat) (sections : List Section) :
    (entriesFrom first sections).flatMap (Entry.lines settings) =
      sectionsFrom settings first sections := by
  induction sections generalizing first with
  | nil => rfl
  | cons s sections ih =>
    rw [entriesFrom, sectionsFrom, List.flatMap_append, List.flatMap_append, ih, List.flatMap_map]
    cases s.title <;> rfl

theorem filterMap_numbered_entriesFrom (first : Nat) (sections : List Section) :
    (entriesFrom first sections).filterMap Entry.numbered? = (allOf sections).zipIdx first := by
  induction sections generalizing first with
  | nil => rfl
  | cons s sections ih =>
    have htitle : (s.title.map Entry.heading).toList.filterMap Entry.numbered? = [] := by
      cases s.title <;> rfl
    have hitems : ((s.refactorings.zipIdx first).map fun numbered =>
        Entry.refactoring numbered.2 numbered.1).filterMap Entry.numbered? =
          s.refactorings.zipIdx first := by
      rw [List.filterMap_map]
      exact List.filterMap_some
    rw [entriesFrom, List.filterMap_append, List.filterMap_append, htitle, hitems, ih, allOf_cons,
      List.zipIdx_append, List.nil_append]

theorem map_shown_entriesFrom (first : Nat) (sections : List Section) :
    (entriesFrom first sections).map Entry.shown = sections.flatMap shownBy := by
  induction sections generalizing first with
  | nil => rfl
  | cons s sections ih =>
    have htitle : (s.title.map Entry.heading).toList.map Entry.shown =
        (s.title.map Sum.inl).toList := by
      cases s.title <;> rfl
    have hitems : ((s.refactorings.zipIdx first).map fun numbered =>
        Entry.refactoring numbered.2 numbered.1).map Entry.shown = s.refactorings.map Sum.inr := by
      calc _ = ((s.refactorings.zipIdx first).map Prod.fst).map Sum.inr := by
            rw [List.map_map, List.map_map]
            rfl
        _ = s.refactorings.map Sum.inr := by rw [List.zipIdx_map_fst]
    rw [entriesFrom, List.map_append, List.map_append, htitle, hitems, ih, List.flatMap_cons,
      shownBy]

/-- What stands before the list. -/
def opening (settings : Settings) (all : List Summary) : List String :=
  [title ++ "\n\n"] ++ (if settings.showSummary then summary all else []) ++
    [if all.isEmpty then "No refactorings detected.\n" else "Refactorings:\n"]

theorem lines_eq (settings : Settings) (sections : List Section) :
    lines settings sections =
      opening settings (allOf sections) ++ sectionsFrom settings 1 (filled sections) := by
  unfold lines opening
  cases hall : allOf sections with
  | nil =>
    -- Nothing is listed, also by the sections.
    have hfilled : filled sections = [] := by
      rw [filled, List.filter_eq_nil_iff]
      intro s hs
      have hnone := List.flatMap_eq_nil_iff.mp hall s hs
      simp [hnone]
    rw [hfilled, sectionsFrom, List.append_nil]
    rfl
  | cons s rest => exact List.append_cons _ _ _

/-- **The refactoring at position `k` stands on the line with number `k + 1`.** -/
theorem exists_line (settings : Settings) {sections : List Section} {k : Nat} {s : Summary}
    (hs : (allOf sections)[k]? = some s) :
    ∃ before after, lines settings sections =
      before ++ (ordinal (k + 1) ++ ". " ++ s.display ++ "\n") :: after := by
  have hnumbered : (s, k + 1) ∈ (allOf sections).zipIdx 1 := by
    rw [Nat.add_comm]
    exact List.mk_add_mem_zipIdx_iff_getElem?.mpr hs
  rw [← allOf_filled, ← filterMap_numbered_entriesFrom, List.mem_filterMap] at hnumbered
  obtain ⟨entry, hentry, hnumber⟩ := hnumbered
  cases entry with
  | heading title => cases hnumber
  | refactoring number s =>
    cases hnumber
    obtain ⟨first, rest, hentries⟩ := List.append_of_mem hentry
    rw [lines_eq, ← flatMap_lines_entriesFrom, hentries, List.flatMap_append, List.flatMap_cons,
      ← List.append_assoc]
    exact ⟨_, _, rfl⟩

/-- A number can be read off its print: blanks count as zeros. -/
theorem ofDigitChars_ordinal (n : Nat) : Nat.ofDigitChars 10 (ordinal n).toList 0 = n := by
  have hblanks : ∀ count, Nat.ofDigitChars 10 (List.replicate count ' ') 0 = 0 := by
    intro count
    induction count with
    | zero => rfl
    | succ count ih => exact ih
  rw [ordinal, String.toList_ofList, Nat.ofDigitChars_append, hblanks,
    Nat.ofDigitChars_ten_toDigits]

theorem ordinal_injective : Function.Injective ordinal := by
  intro m n h
  rw [← ofDigitChars_ordinal m, h, ofDigitChars_ordinal]

end Plain

/-- **How refactorings are grouped** shows in a report only through titles, and in HTML through
sections. In plain text the entries of the list are the titles and refactorings of the sections that
have some, in their order, with the refactorings numbered from one on, and no two numbers look
alike. The line of a refactoring has its number, a dot, a blank and what it displays. -/
theorem render_grouping (settings : Settings) :
    (∀ (format : Format) (sections sections' : List Section),
      (sections.filter fun s => !s.refactorings.isEmpty) =
          (sections'.filter fun s => !s.refactorings.isEmpty) →
        render format settings sections = render format settings sections') ∧
      (∀ format : Format, format ≠ .html →
        ∀ (before after : List Section) (parts : List (List Summary)),
          render format settings (before ++ parts.map untitled ++ after) =
            render format settings (before ++ untitled parts.flatten :: after)) ∧
      (∀ sections : List Section, ∃ entries : List Plain.Entry,
        (render .plainText settings sections).content =
            String.join (Plain.opening settings (allOf sections)) ++
              String.join (entries.flatMap (Plain.Entry.lines settings)) ∧
          entries.filterMap Plain.Entry.numbered? = (allOf sections).zipIdx 1 ∧
          entries.map Plain.Entry.shown =
            (sections.filter fun s => !s.refactorings.isEmpty).flatMap Plain.shownBy) ∧
      (∀ (sections : List Section) (k : Nat) (s : Summary), (allOf sections)[k]? = some s →
        ∃ before after, (render .plainText settings sections).content =
          before ++ (Plain.ordinal (k + 1) ++ ". " ++ s.display ++ "\n") ++ after) ∧
      Function.Injective Plain.ordinal := by
  refine ⟨fun format sections sections' h => ?_, fun format hformat before after parts => ?_,
    fun sections => ?_, fun sections k s hs => ?_, Plain.ordinal_injective⟩
  · calc render format settings sections
        = render format settings (filled sections) := (render_filled format settings _).symm
      _ = render format settings (filled sections') := congrArg (render format settings) h
      _ = render format settings sections' := render_filled format settings _
  · -- One section is the case of a single part.
    have hone : before ++ untitled parts.flatten :: after =
        before ++ [parts.flatten].map untitled ++ after := by simp
    have hflatten : parts.flatten = [parts.flatten].flatten := by simp
    rw [hone]
    unfold render
    rw [allOf_around, allOf_around, ← hflatten]
    cases format with
    | plainText => rw [Plain.lines_regroup settings before after hflatten]
    | markdown => rw [Markdown.lines_regroup settings before after hflatten]
    | html => exact absurd rfl hformat
  · refine ⟨Plain.entriesFrom 1 (filled sections), ?_, ?_, Plain.map_shown_entriesFrom 1 _⟩
    · rw [← String.join_append, Plain.flatMap_lines_entriesFrom, ← Plain.lines_eq]
      rfl
    · rw [Plain.filterMap_numbered_entriesFrom, allOf_filled]
  · obtain ⟨before, after, hlines⟩ := Plain.exists_line settings hs
    refine ⟨String.join before, String.join after, ?_⟩
    show String.join (Plain.lines settings sections) = _
    rw [hlines, String.join_append, String.join_cons, ← String.append_assoc]

/-- An empty section with a title between two others, and three untitled sections of which one is
empty. -/
theorem render_grouping_mixed :
    let renamed (name : String) : Summary :=
      { kind := .renameMethod, name := "Rename Method", description := name, language := "Python"
        left := [], right := [], files := ["m.py"] }
    let first : Section := { title := some "Commit 1", refactorings := [renamed "f"] }
    let empty : Section := { title := some "Commit 2" }
    render .html {} [first, empty, untitled [renamed "g"]] =
        render .html {} [first, untitled [renamed "g"]] ∧
      render .markdown {} [first, untitled [renamed "g"], untitled [], untitled [renamed "h"]] =
        render .markdown {} [first, untitled [renamed "g", renamed "h"]] ∧
      ∃ entries : List Plain.Entry,
        entries.filterMap Plain.Entry.numbered? = [(renamed "f", 1), (renamed "g", 2)] ∧
          (render .plainText {} [first, empty, untitled [renamed "g"]]).content =
            String.join (Plain.opening {} [renamed "f", renamed "g"]) ++
              String.join (entries.flatMap (Plain.Entry.lines {})) ∧
          ∃ before after, (render .plainText {} [first, empty, untitled [renamed "g"]]).content =
            before ++ (Plain.ordinal 2 ++ ". " ++ (renamed "g").display ++ "\n") ++ after := by
  intro renamed first empty
  obtain ⟨hempty, hparts, hentries, hline, -⟩ := render_grouping {}
  obtain ⟨entries, hcontent, hnumbers, -⟩ := hentries [first, empty, untitled [renamed "g"]]
  exact ⟨hempty .html _ _ rfl, hparts .markdown (by decide) [first] [] [[renamed "g"], [],
    [renamed "h"]], entries, hnumbers, hcontent, hline _ 1 (renamed "g") rfl⟩

end Refactor.Report
