import Refactor.Proofs.Substitution
import Refactor.Read.Reader

/-!
# The language of most files

**Theorem (`dominant?_earliest_of_most`).** The language of a code base is one that most files are
in, and of several the one that comes up first.

Files are counted in one pass, language by language as they come up (`tally_eq`). The table is then
searched from its end for a greatest count, and the later of two equal entries is taken
(`exists_lastGreatest?`): the one that stands first in the table.
-/

namespace Refactor.Read

/-! ## Counting -/

theorem countOnce_of_not_mem {language : Language} {counts : List (Language × Nat)}
    (h : language ∉ counts.map Prod.fst) :
    countOnce language counts = counts ++ [(language, 1)] := by
  induction counts with
  | nil => rfl
  | cons entry rest ih =>
    rw [List.map_cons, List.mem_cons, not_or] at h
    rw [countOnce, if_neg (Ne.symm h.1), ih h.2, List.cons_append]

/-- In a table with one entry for each language, the entry of the language is raised. -/
theorem countOnce_of_mem {language : Language} {seen : List Language} (hnodup : seen.Nodup)
    (h : language ∈ seen) (count : Language → Nat) :
    countOnce language (seen.map fun l => (l, count l)) =
      seen.map fun l => (l, count l + if l = language then 1 else 0) := by
  induction seen with
  | nil => cases h
  | cons l seen ih =>
    rw [List.nodup_cons] at hnodup
    rw [List.map_cons, countOnce, List.map_cons]
    by_cases hl : l = language
    · subst hl
      have hrest : ∀ other ∈ seen, other ≠ l := fun other hother heq =>
        hnodup.1 (heq ▸ hother)
      rw [if_pos rfl, if_pos rfl]
      congr 1
      refine List.map_congr_left fun other hother => ?_
      rw [if_neg (hrest other hother)]
      rfl
    · rw [if_neg hl, if_neg hl, ih hnodup.2 ((List.mem_cons.mp h).resolve_left (Ne.symm hl))]
      rfl

/-- The languages that come up, each where it first does. -/
theorem pairwise_idxOf_languages (languages : List Language) :
    languages.eraseDups.Pairwise fun l l' => languages.idxOf l < languages.idxOf l' := by
  have hchosen : (languages.filterMap some).eraseDups.Pairwise fun l l' =>
      languages.idxOf (id l) < languages.idxOf (id l') :=
    pairwise_idxOf_eraseDups (fun _ _ hchoose => (Option.some.inj hchoose).symm) languages
  rwa [List.filterMap_some] at hchosen

/-- **The table has every language that comes up**, in the order of their first files, with the
number of its files. -/
theorem tally_eq (languages : List Language) :
    tally languages = languages.eraseDups.map fun l => (l, languages.count l) := by
  induction languages using List.reverseRecOn with
  | nil => rfl
  | append_singleton languages language ih =>
    have hstep : tally (languages ++ [language]) = countOnce language (tally languages) := by
      rw [tally, List.foldl_append]
      rfl
    have hnodup : languages.eraseDups.Nodup :=
      (pairwise_idxOf_languages languages).imp fun hlt heq => by
        rw [heq] at hlt
        exact Nat.lt_irrefl _ hlt
    rw [hstep, ih, List.eraseDups_append]
    by_cases hmem : language ∈ languages
    · rw [countOnce_of_mem hnodup (List.mem_eraseDups.mpr hmem)]
      have hlast : ([language].removeAll languages).eraseDups = [] := by
        simp [List.removeAll, hmem]
      rw [hlast, List.append_nil]
      refine List.map_congr_left fun l _ => ?_
      simp only [List.count_append, List.count_singleton, beq_iff_eq, eq_comm (a := language)]
    · rw [countOnce_of_not_mem (by simpa using hmem)]
      have hcount : ∀ l ∈ languages.eraseDups,
          (languages ++ [language]).count l = languages.count l := by
        intro l hl
        have hne : language ≠ l := fun heq => hmem (heq ▸ List.mem_eraseDups.mp hl)
        simp [List.count_append, hne]
      have hlast : ([language].removeAll languages).eraseDups = [language] := by
        simp [List.removeAll, hmem, List.eraseDups_cons]
      rw [hlast, List.map_append]
      congr 1
      · exact List.map_congr_left fun l hl => by rw [hcount l hl]
      · simp [List.count_append, List.count_eq_zero.mpr hmem]

/-! ## The greatest count -/

/-- **The search ends at the last of the greatest counts.** -/
theorem exists_lastGreatest? {counts : List (Language × Nat)} (h : counts ≠ []) :
    ∃ before entry after, counts = before ++ entry :: after ∧
      lastGreatest? counts = some entry ∧ (∀ other ∈ before, other.2 ≤ entry.2) ∧
      ∀ other ∈ after, other.2 < entry.2 := by
  induction counts using List.reverseRecOn with
  | nil => exact absurd rfl h
  | append_singleton counts last ih =>
    have hstep : lastGreatest? (counts ++ [last]) =
        some (orGreater (lastGreatest? counts) last) := by
      rw [lastGreatest?, List.foldl_append]
      rfl
    rw [hstep]
    by_cases hcounts : counts = []
    · subst hcounts
      exact ⟨[], last, [], rfl, rfl, by simp, by simp⟩
    · obtain ⟨before, entry, after, rfl, hbest, hbefore, hafter⟩ := ih hcounts
      rw [hbest, orGreater]
      by_cases hless : last.2 < entry.2
      · rw [if_pos hless]
        refine ⟨before, entry, after ++ [last], by simp, rfl, hbefore, ?_⟩
        rw [List.forall_mem_append, List.forall_mem_singleton]
        exact ⟨hafter, hless⟩
      · have hle : entry.2 ≤ last.2 := Nat.not_lt.mp hless
        rw [if_neg hless]
        refine ⟨before ++ entry :: after, last, [], rfl, rfl, ?_, by simp⟩
        rw [List.forall_mem_append, List.forall_mem_cons]
        exact ⟨fun other hother => Nat.le_trans (hbefore other hother) hle, hle,
          fun other hother => Nat.le_trans (Nat.le_of_lt (hafter other hother)) hle⟩

/-! ## The dominant language -/

/-- The language stands in the list as often as any, and before all others that stand there as
often. -/
structure EarliestOfMost (languages : List Language) (l : Language) : Prop where
  mem : l ∈ languages
  most : ∀ l', languages.count l' ≤ languages.count l
  earliest : ∀ l', languages.count l' = languages.count l → languages.idxOf l ≤ languages.idxOf l'

theorem EarliestOfMost.unique {languages : List Language} {l l' : Language}
    (h : EarliestOfMost languages l) (h' : EarliestOfMost languages l') : l = l' := by
  have hcount : languages.count l = languages.count l' := Nat.le_antisymm (h'.most l) (h.most l')
  have hplace : languages.idxOf l = languages.idxOf l' :=
    Nat.le_antisymm (h.earliest l' hcount.symm) (h'.earliest l hcount)
  exact List.idxOf_inj h.mem |>.mp hplace

/-- In a list that is not empty, such a language is found. -/
theorem exists_dominant? {languages : List Language} (h : languages ≠ []) :
    ∃ l, dominant? languages = some l ∧ EarliestOfMost languages l := by
  obtain ⟨first, hfirst⟩ := List.exists_mem_of_ne_nil languages h
  have htable : (tally languages).reverse =
      languages.eraseDups.reverse.map fun l => (l, languages.count l) := by
    rw [tally_eq, List.map_reverse]
  have hseen : (tally languages).reverse ≠ [] := by
    rw [htable]
    exact List.ne_nil_of_mem (List.mem_map_of_mem
      (List.mem_reverse.mpr (List.mem_eraseDups.mpr hfirst)))
  obtain ⟨later, entry, earlier, hsplit, hfound, hlater, hearlier⟩ := exists_lastGreatest? hseen
  rw [htable, List.map_eq_append_iff] at hsplit
  obtain ⟨after, rest, horder, rfl, hrest⟩ := hsplit
  obtain ⟨l, before, rfl, rfl, rfl⟩ := List.map_eq_cons_iff.mp hrest
  rw [List.forall_mem_map] at hlater hearlier
  have hmem : ∀ l', l' ∈ languages ↔ l' ∈ after ∨ l' = l ∨ l' ∈ before := by
    intro l'
    rw [← List.mem_eraseDups, ← List.mem_reverse, horder, List.mem_append, List.mem_cons]
  have hpairwise := pairwise_idxOf_languages languages
  rw [← List.reverse_reverse languages.eraseDups, horder, List.pairwise_reverse,
    List.pairwise_append] at hpairwise
  refine ⟨l, by rw [dominant?, hfound]; rfl, (hmem l).mpr (.inr (.inl rfl)), fun l' => ?_,
    fun l' hcount => ?_⟩
  · by_cases hl' : l' ∈ languages
    · rcases (hmem l').mp hl' with hafter | rfl | hbefore
      · exact hlater l' hafter
      · exact Nat.le_refl _
      · exact Nat.le_of_lt (hearlier l' hbefore)
    · rw [List.count_eq_zero.mpr hl']
      exact Nat.zero_le _
  · have hl' : l' ∈ languages := by
      rw [← List.count_pos_iff, hcount, List.count_pos_iff]
      exact (hmem l).mpr (.inr (.inl rfl))
    rcases (hmem l').mp hl' with hafter | rfl | hbefore
    · exact Nat.le_of_lt (hpairwise.2.2 l' hafter l List.mem_cons_self)
    · exact Nat.le_refl _
    · exact absurd hcount (Nat.ne_of_lt (hearlier l' hbefore))

/-- **The dominant language stands most often, and of several it is the one that comes up first.**
Only an empty list has none. -/
theorem dominant?_earliest_of_most (languages : List Language) :
    (dominant? languages = none ↔ languages = []) ∧
      ∀ l, dominant? languages = some l ↔ EarliestOfMost languages l := by
  by_cases hempty : languages = []
  · subst hempty
    refine ⟨⟨fun _ => rfl, fun _ => rfl⟩, fun l => ⟨fun hsome => ?_, fun hl => ?_⟩⟩
    · cases hsome
    · exact absurd hl.mem List.not_mem_nil
  · obtain ⟨found, hfound, hmost⟩ := exists_dominant? hempty
    rw [hfound]
    refine ⟨⟨fun hnone => ?_, fun hnil => absurd hnil hempty⟩,
      fun l => ⟨fun hsome => ?_, fun hl => ?_⟩⟩
    · cases hnone
    · exact Option.some.inj hsome ▸ hmost
    · rw [hmost.unique hl]

/-- Two languages with two files each. -/
example : dominant? [.javaScript, .cpp, .cpp, .javaScript] = some .javaScript := by decide

end Refactor.Read
