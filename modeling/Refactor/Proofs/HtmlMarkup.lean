import Mathlib.Data.Finset.Card
import Refactor.Proofs.TextMaps
import Refactor.Report.Render

/-!
# Content adds no markup

**Theorem (`markup_render`).** Two reports in HTML have the same angle brackets and quotes in the
same order, if what they are about has the same shape: as many sections, with titles alike, and in
each of them as many refactorings, of the same kinds and with as many locations. What their texts
say makes no difference.

Escaped text has none of these characters (`markupOf_escape`), so those of a document are those of
its markup, which is its skeleton (`markupOf_join`). The skeleton is put together from parts that
repeat, and each part is the same for things of the same shape (`skeleton_flatMap`).
-/

namespace Refactor

/-- How a refactoring takes up room in a report: its kind and how many locations it has. -/
def Summary.shape (s : Summary) : RefactoringKind × Nat × Nat :=
  (s.kind, s.left.length, s.right.length)

namespace Report

/-- How a section takes up room in a report. -/
def Section.shape (s : Section) : Bool × List (RefactoringKind × Nat × Nat) :=
  (s.title.isSome, s.refactorings.map Summary.shape)

/-- The files involved in any of the sections. -/
def distinctFiles (sections : List Section) : Finset String :=
  ((allOf sections).flatMap Summary.files).toFinset

theorem length_involvedFiles (all : List Summary) :
    (involvedFiles all).length = (all.flatMap Summary.files).toFinset.card := by
  have hfiles : (involvedFiles all).toFinset = (all.flatMap Summary.files).toFinset := by
    ext file
    rw [List.mem_toFinset, List.mem_toFinset, involvedFiles, TextMap.mem_keys_ofList, List.map_map]
    simp
  rw [← hfiles]
  exact (List.toFinset_card_of_nodup (TextMap.nodup_keys _)).symm

namespace Html

/-! ## Characters of markup -/

/-- The angle brackets, the double quote and the apostrophe. -/
def markupChars : List Char :=
  ['<', '>', Char.ofNat 0x22, Char.ofNat 0x27]

/-- The characters of markup in a text, in their order. -/
def markupOf (text : String) : List Char :=
  text.toList.filter markupChars.contains

/-- Whatever entities are put in: a character of the result is one of theirs, or it was there before
and no entity stands for it. -/
theorem mem_foldl_replaceChar {table : List (Char × String)} {cs : List Char} {c : Char}
    (h : c ∈ table.foldl (fun text entity => replaceChar entity text) cs) :
    (∃ entity ∈ table, c ∈ entity.2.toList) ∨ c ∈ cs ∧ ∀ entity ∈ table, c ≠ entity.1 := by
  induction table generalizing cs with
  | nil => exact .inr ⟨h, by simp⟩
  | cons entity table ih =>
    rcases ih h with ⟨other, hother, hc⟩ | ⟨hc, hrest⟩
    · exact .inl ⟨other, List.mem_cons_of_mem _ hother, hc⟩
    · obtain ⟨before, hbefore, hc⟩ := List.mem_flatMap.mp hc
      split at hc
      · exact .inl ⟨entity, List.mem_cons_self, hc⟩
      · rename_i hne
        obtain rfl := List.mem_singleton.mp hc
        exact .inr ⟨hbefore, List.forall_mem_cons.mpr ⟨hne, hrest⟩⟩

/-- **Escaped text has no characters of markup.** -/
theorem markupOf_escape (text : String) : markupOf (escape text) = [] := by
  have hentities : (entities.all fun entity =>
      entity.2.toList.all fun c => !markupChars.contains c) = true := by decide
  have hcovered : (markupChars.all fun c => entities.any fun entity => entity.1 == c) = true := by
    decide
  simp only [List.all_eq_true, List.any_eq_true] at hentities hcovered
  rw [markupOf, escape, String.toList_ofList, List.filter_eq_nil_iff]
  intro c hc hmarkup
  rcases mem_foldl_replaceChar hc with ⟨entity, hentity, hc⟩ | ⟨-, hnone⟩
  · have hplain := hentities entity hentity c hc
    rw [hmarkup] at hplain
    cases hplain
  · obtain ⟨entity, hentity, heq⟩ := hcovered c (List.contains_iff_mem.mp hmarkup)
    exact hnone entity hentity (eq_of_beq heq).symm

/-! ## Skeletons -/

/-- The markup of a fragment, if it is any. -/
def Fragment.markup? : Fragment → Option String
  | markup text => some text
  | content _ => none

/-- A document without its content. -/
def skeleton (fragments : List Fragment) : List String :=
  fragments.filterMap Fragment.markup?

@[simp]
theorem skeleton_append (fragments more : List Fragment) :
    skeleton (fragments ++ more) = skeleton fragments ++ skeleton more :=
  List.filterMap_append

/-- The characters of markup in a document are those of its skeleton. -/
theorem markupOf_join (fragments : List Fragment) :
    markupOf (String.join (fragments.map Fragment.write)) =
      (skeleton fragments).flatMap markupOf := by
  induction fragments with
  | nil => rfl
  | cons fragment fragments ih =>
    have hsplit : markupOf (String.join ((fragment :: fragments).map Fragment.write)) =
        markupOf fragment.write ++ markupOf (String.join (fragments.map Fragment.write)) := by
      rw [List.map_cons, String.join_cons, markupOf, String.toList_append, List.filter_append]
      rfl
    rw [hsplit, ih]
    cases fragment with
    | markup text => rfl
    | content text =>
      rw [Fragment.write, markupOf_escape, List.nil_append]
      rfl

/-- Things that agree in what determines their skeletons have the same skeleton one by one. -/
theorem skeleton_flatMap {α β : Type} {part : α → List Fragment} (shape : α → β)
    (hpart : ∀ a b, shape a = shape b → skeleton (part a) = skeleton (part b)) {as bs : List α}
    (h : as.map shape = bs.map shape) :
    skeleton (as.flatMap part) = skeleton (bs.flatMap part) := by
  induction as generalizing bs with
  | nil =>
    obtain rfl := List.map_eq_nil_iff.mp h.symm
    rfl
  | cons a as ih =>
    cases bs with
    | nil => cases h
    | cons b bs =>
      rw [List.map_cons, List.map_cons, List.cons.injEq] at h
      rw [List.flatMap_cons, List.flatMap_cons, skeleton_append, skeleton_append, hpart a b h.1,
        ih h.2]

/-- Parts that have one skeleton in common differ in their number only. -/
theorem skeleton_flatMap_of_length {α : Type} (part : α → List Fragment)
    (hpart : ∀ a b, skeleton (part a) = skeleton (part b)) {as bs : List α}
    (h : as.length = bs.length) : skeleton (as.flatMap part) = skeleton (bs.flatMap part) := by
  refine skeleton_flatMap (fun _ => ()) (fun a b _ => hpart a b) ?_
  rw [List.map_const', List.map_const', h]

theorem skeleton_place (label : String) (l l' : Location) :
    skeleton (place label l) = skeleton (place label l') :=
  rfl

theorem skeleton_item (settings : Settings) (s s' : Summary) (h : s.shape = s'.shape) :
    skeleton (item settings s) = skeleton (item settings s') := by
  obtain ⟨-, hleft, hright⟩ : s.kind = s'.kind ∧ s.left.length = s'.left.length ∧
      s.right.length = s'.right.length := by
    simpa only [Summary.shape, Prod.mk.injEq] using h
  have hbefore := skeleton_flatMap_of_length (place "before") (skeleton_place "before") hleft
  have hafter := skeleton_flatMap_of_length (place "after") (skeleton_place "after") hright
  unfold item
  cases settings.showLocations with
  | false => rfl
  | true =>
    simp only [if_true, skeleton_append, hbefore, hafter]
    rfl

theorem skeleton_section (settings : Settings) (s s' : Section) (h : s.shape = s'.shape) :
    skeleton (sectionFragments settings s) = skeleton (sectionFragments settings s') := by
  obtain ⟨htitle, hrefactorings⟩ : s.title.isSome = s'.title.isSome ∧
      s.refactorings.map Summary.shape = s'.refactorings.map Summary.shape := by
    simpa only [Section.shape, Prod.mk.injEq] using h
  unfold sectionFragments
  simp only [skeleton_append, skeleton_flatMap Summary.shape (skeleton_item settings) hrefactorings]
  cases hs : s.title with
  | none =>
    rw [hs] at htitle
    have hs' : s'.title = none := by simpa using htitle.symm
    rw [hs']
  | some title =>
    rw [hs] at htitle
    obtain ⟨title', hs'⟩ := Option.isSome_iff_exists.mp htitle.symm
    rw [hs']
    rfl

theorem skeleton_fileList {files files' : List String} (h : files.length = files'.length) :
    skeleton (fileList files) = skeleton (fileList files') := by
  have hfiles := skeleton_flatMap_of_length (fun file =>
    [Fragment.markup "                <li><code>", .content file, .markup "</code></li>\n"])
    (fun _ _ => rfl) h
  have hempty : files.isEmpty = files'.isEmpty := by
    rw [Bool.eq_iff_iff, List.isEmpty_iff_length_eq_zero, List.isEmpty_iff_length_eq_zero, h]
  unfold fileList
  rw [hempty]
  split
  · rfl
  · simp only [skeleton_append, hfiles]

/-! ## Reports -/

section

variable {sections sections' : List Section}
  (h : sections.map Section.shape = sections'.map Section.shape)

include h

theorem map_shape_allOf :
    (allOf sections).map Summary.shape = (allOf sections').map Summary.shape := by
  have hshapes : ∀ list : List Section, (allOf list).map Summary.shape =
      (list.map Section.shape).flatMap Prod.snd := by
    intro list
    rw [allOf, List.map_flatMap, List.flatMap_map]
    rfl
  rw [hshapes, hshapes, h]

theorem map_shape_filled :
    (filled sections).map Section.shape = (filled sections').map Section.shape := by
  have hshapes : ∀ list : List Section, (filled list).map Section.shape =
      (list.map Section.shape).filter fun shape => !shape.2.isEmpty := by
    intro list
    rw [List.filter_map, filled]
    congr 1
    refine List.filter_congr fun s _ => ?_
    simp [Section.shape]
  rw [hshapes, hshapes, h]

end

theorem kindCounts_congr {all all' : List Summary}
    (h : all.map Summary.shape = all'.map Summary.shape) : kindCounts all = kindCounts all' := by
  have hcount : ∀ (kind : RefactoringKind) (list : List Summary),
      (list.countP fun s => s.kind == kind) =
        (list.map Summary.shape).countP fun shape => shape.1 == kind := by
    intro kind list
    rw [List.countP_map]
    rfl
  unfold kindCounts
  simp only [hcount, h]

theorem skeleton_fragments (settings : Settings) {sections sections' : List Section}
    (h : sections.map Section.shape = sections'.map Section.shape)
    (hfiles : (distinctFiles sections).card = (distinctFiles sections').card) :
    skeleton (fragments settings sections) = skeleton (fragments settings sections') := by
  have hall := map_shape_allOf h
  have hlength : (allOf sections).length = (allOf sections').length := by
    simpa using congrArg List.length hall
  have hempty : (allOf sections).isEmpty = (allOf sections').isEmpty := by
    rw [Bool.eq_iff_iff, List.isEmpty_iff_length_eq_zero, List.isEmpty_iff_length_eq_zero, hlength]
  have hinvolved : (involvedFiles (allOf sections)).length =
      (involvedFiles (allOf sections')).length := by
    rw [length_involvedFiles, length_involvedFiles]
    exact hfiles
  have hsummary : skeleton (summary (allOf sections)) = skeleton (summary (allOf sections')) := by
    unfold summary
    simp only [skeleton_append, kindCounts_congr hall, hlength, skeleton_fileList hinvolved]
  unfold fragments
  dsimp only
  simp only [skeleton_append, hempty,
    skeleton_flatMap Section.shape (skeleton_section settings) (map_shape_filled h)]
  split <;> simp only [hsummary]

/-- **No text adds a character of markup to a report.** Whatever the texts of two lists of sections
are, if the lists have the same shape and involve as many files, the angle brackets and quotes in
their reports are the same. -/
theorem markup_render (settings : Settings) {sections sections' : List Section}
    (h : sections.map Section.shape = sections'.map Section.shape)
    (hfiles : (distinctFiles sections).card = (distinctFiles sections').card) :
    markupOf (render .html settings sections).content =
      markupOf (render .html settings sections').content := by
  unfold render lines
  dsimp only
  rw [markupOf_join, markupOf_join, skeleton_fragments settings h hfiles]

/-- A section whose texts are all the same. -/
def sectionOf (text : String) (hne : text ≠ "") : Section :=
  { title := some text
    refactorings :=
      [{ kind := .renameMethod
         name := text
         description := text
         language := text
         left := [⟨text, ⟨2, 4⟩, ⟨5, 0⟩, .methodDeclaration, hne, by decide⟩]
         right := []
         files := [text, text] }] }

/-- Scripts in all places where text is shown. -/
theorem markup_render_script :
    markupOf (render .html {} [sectionOf "</code><script src='x'>" (by decide)]).content =
      markupOf (render .html {} [sectionOf "f" (by decide)]).content :=
  markup_render {} (by decide) (by decide)

end Html

end Report

end Refactor
