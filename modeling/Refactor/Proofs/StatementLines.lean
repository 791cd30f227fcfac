import Mathlib.Data.List.Basic
import Refactor.Diff.Bodies
import Refactor.Proofs.TextCuts
import Refactor.Proofs.WholeWords

/-!
# Bodies and their statements

The statements of a body are solid lines (`solid_of_mem_splitStatements`), and solid lines that are
joined by line feeds are the statements of what they make up (`splitStatements_join`). So a body
may be put together again from its statements after they were changed.
-/

namespace Refactor.Text

open Refactor.Statement

/-! ## Fields -/

theorem fields_eq_splitOn (c : Char) (cs : List Char) : fields c cs = cs.splitOn c := by
  induction cs with
  | nil => rfl
  | cons x xs ih =>
    rw [fields, List.splitOn_cons_eq_if_modifyHead, ih]
    by_cases h : x = c
    · simp [h]
    · obtain ⟨part, parts, hparts⟩ := List.exists_cons_of_ne_nil (List.splitOn_ne_nil c xs)
      simp [h, hparts]

theorem not_mem_of_mem_fields {c : Char} {cs part : List Char} (h : part ∈ fields c cs) :
    c ∉ part := by
  induction cs generalizing part with
  | nil => simp_all [fields]
  | cons x xs ih =>
    rw [fields] at h
    by_cases hx : x = c
    · rw [if_pos hx] at h
      rcases List.mem_cons.mp h with rfl | h
      · exact List.not_mem_nil
      · exact ih h
    · rw [if_neg hx] at h
      split at h
      · rename_i first rest hparts
        rcases List.mem_cons.mp h with rfl | h
        · have hfirst : c ∉ first := ih (by simp [hparts])
          simp [Ne.symm hx, hfirst]
        · exact ih (by simp [hparts, h])
      · rw [List.mem_singleton.mp h]
        simp [Ne.symm hx]

/-! ## Lines -/

theorem dropReturn_sublist (line : List Char) : (dropReturn line).Sublist line := by
  unfold dropReturn stripTail?
  split
  · exact List.take_sublist _ _
  · exact List.Sublist.refl _

/-- A line that does not end with a blank ends with no carriage return. -/
theorem dropReturn_of_solid {line : List Char} (h : Solid line) : dropReturn line = line := by
  unfold dropReturn stripTail?
  rw [if_neg]
  · rfl
  · intro hsuffix
    obtain ⟨before, rfl⟩ := List.isSuffixOf_iff_suffix.mp hsuffix
    obtain ⟨c, hc, hblank⟩ := h.last
    rw [List.getLast?_concat] at hc
    obtain rfl := Option.some.inj hc
    exact absurd hblank (by decide)

theorem mem_linesOf {cs line : List Char} (h : line ∈ linesOf cs) :
    ∃ part ∈ fields '\n' cs, line.Sublist part := by
  have hclosed : ∀ line ∈ (fields '\n' cs).dropLast.map dropReturn,
      ∃ part ∈ fields '\n' cs, line.Sublist part := by
    intro line hline
    obtain ⟨part, hpart, rfl⟩ := List.mem_map.mp hline
    exact ⟨part, List.dropLast_subset _ hpart, dropReturn_sublist part⟩
  unfold linesOf at h
  split at h
  · cases h
  · split at h
    · cases h
    · dsimp only at h
      split at h
      · exact hclosed line h
      · rename_i last _ hlast
        rcases List.mem_append.mp h with h | h
        · exact hclosed line h
        · rw [List.mem_singleton.mp h]
          exact ⟨last, List.mem_of_getLast? hlast, List.Sublist.refl _⟩
      · exact hclosed line h

theorem linesOf_of_fields {cs last : List Char} {before : List (List Char)}
    (hfields : fields '\n' cs = before ++ [last]) (hlast : last ≠ []) :
    linesOf cs = before.map dropReturn ++ [last] := by
  obtain ⟨d, ds, rfl⟩ := List.exists_cons_of_ne_nil hlast
  cases cs with
  | nil =>
    have hmem : (d :: ds) ∈ fields '\n' [] := hfields ▸ List.mem_append_right _ List.mem_cons_self
    cases List.mem_singleton.mp hmem
  | cons c rest =>
    unfold linesOf
    simp [hfields]

/-- Solid lines are the lines of the text that they make up. -/
theorem linesOf_intercalate {lines : List (List Char)} (h : ∀ line ∈ lines, Solid line) :
    linesOf (['\n'].intercalate lines) = lines := by
  rcases List.eq_nil_or_concat' lines with rfl | ⟨before, last, rfl⟩
  · rfl
  · have hlast : last ≠ [] := by
      rintro rfl
      obtain ⟨c, hc, -⟩ := (h [] (by simp)).first
      cases hc
    have hfields : fields '\n' (['\n'].intercalate (before ++ [last])) = before ++ [last] := by
      rw [fields_eq_splitOn]
      exact List.splitOn_intercalate '\n' (fun line hline => (h line hline).line) (by simp)
    rw [linesOf_of_fields hfields hlast]
    congr 1
    conv => rhs; rw [← List.map_id before]
    exact List.map_congr_left fun line hline => dropReturn_of_solid (h line (by simp [hline]))

/-! ## Trimming -/

theorem dropWhileEnd_isPrefix (p : Char → Bool) (cs : List Char) : dropWhileEnd p cs <+: cs := by
  rw [dropWhileEnd, ← List.reverse_suffix, List.reverse_reverse]
  exact List.dropWhile_suffix p

theorem solid_trimChars {cs : List Char} (hline : '\n' ∉ cs) (hne : trimChars cs ≠ []) :
    Solid (trimChars cs) where
  first := by
    obtain ⟨c, rest, hc⟩ := List.exists_cons_of_ne_nil hne
    obtain ⟨after, hafter⟩ := dropWhileEnd_isPrefix isBlank (cs.dropWhile isBlank)
    have hhead : (cs.dropWhile isBlank).head? = some c := by
      rw [← hafter, ← trimChars, hc]
      rfl
    have hnot := List.head?_dropWhile_not isBlank cs
    rw [hhead] at hnot
    exact ⟨c, by rw [hc]; rfl, hnot⟩
  last := by
    obtain ⟨c, hc⟩ := List.getLast?_isSome.mpr hne |> Option.isSome_iff_exists.mp
    have hnot := List.head?_dropWhile_not isBlank (cs.dropWhile isBlank).reverse
    rw [← List.getLast?_reverse, ← dropWhileEnd, ← trimChars, hc] at hnot
    exact ⟨c, hc, hnot⟩
  line := fun hmem =>
    hline ((List.dropWhile_sublist _).subset ((dropWhileEnd_isPrefix _ _).subset hmem))

theorem trimChars_of_solid {cs : List Char} (h : Solid cs) : trimChars cs = cs :=
  trimChars_of_ends h.first h.last

end Refactor.Text

namespace Refactor.Diff

open Refactor.Statement

theorem solid_of_mem_splitStatements {body statement : String}
    (h : statement ∈ splitStatements body) : Solid statement.toList := by
  obtain ⟨hmem, hne⟩ := List.mem_filter.mp h
  obtain ⟨line, hline, rfl⟩ := List.mem_map.mp hmem
  obtain ⟨cs, hcs, rfl⟩ := List.mem_map.mp hline
  obtain ⟨part, hpart, hsub⟩ := Text.mem_linesOf hcs
  have htrim : (Text.trim (String.ofList cs)).toList = Text.trimChars cs := by
    simp [Text.trim, Text.trimBy, Text.trimChars]
  rw [htrim]
  refine Text.solid_trimChars (fun hmem => Text.not_mem_of_mem_fields hpart (hsub.subset hmem)) ?_
  intro hnil
  rw [hnil] at htrim
  exact absurd (String.toList_eq_nil_iff.mp htrim) (by simpa using hne)

/-- **Solid lines are the statements of the body that they make up.** -/
theorem splitStatements_join {statements : List String}
    (h : ∀ statement ∈ statements, Solid statement.toList) :
    splitStatements (Text.join "\n" statements) = statements := by
  have hlines : Text.lines (Text.join "\n" statements) = statements := by
    have hsolid : ∀ line ∈ statements.map String.toList, Solid line := by
      intro line hline
      obtain ⟨statement, hstatement, rfl⟩ := List.mem_map.mp hline
      exact h statement hstatement
    have hsep : "\n".toList = ['\n'] := rfl
    rw [Text.lines, Text.join, String.toList_intercalate, hsep, Text.linesOf_intercalate hsolid,
      List.map_map]
    conv => rhs; rw [← List.map_id statements]
    exact List.map_congr_left fun statement _ => String.ofList_toList
  have htrim : (statements.map Text.trim) = statements := by
    conv => rhs; rw [← List.map_id statements]
    refine List.map_congr_left fun statement hstatement => ?_
    have hcs := Text.trimChars_of_solid (h statement hstatement)
    rw [Text.trim, Text.trimBy, ← Text.trimChars, hcs, String.ofList_toList]
    rfl
  rw [splitStatements, hlines, htrim]
  refine List.filter_eq_self.mpr fun statement hstatement => decide_eq_true ?_
  rintro rfl
  obtain ⟨c, hc, -⟩ := (h "" hstatement).first
  cases hc

end Refactor.Diff
