import Refactor.Proofs.TextMaps
import Refactor.Repository.Snapshots

/-!
# The paths that a commit changes

**Theorem (`changedPaths_exact`).** The changed paths are those under which the sources before and
after differ, in increasing order. They are the same in both directions, and the sources restricted
to them have the same changed paths again.

They are collected in two passes with different tests: one over the sources after, for texts that
are new or other than before, and one over the sources before, for paths that are gone. A path is
met in at most one of them, and only once (`perm_changedPaths`).
-/

namespace Refactor

/-- An increasing list of texts is known by its members. -/
theorem eq_of_mem_iff {texts others : List String} (h : texts.Pairwise (· < ·))
    (h' : others.Pairwise (· < ·)) (hmem : ∀ text, text ∈ texts ↔ text ∈ others) :
    texts = others := by
  have hnodup : ∀ {l : List String}, l.Pairwise (· < ·) → l.Nodup := fun hl =>
    hl.imp fun hlt => String.ne_of_lt hlt
  exact ((List.perm_ext_iff_of_nodup (hnodup h) (hnodup h')).mpr hmem).eq_of_pairwise
    (fun _ _ _ _ hab hba => absurd hba (String.lt_asymm hab)) h h'

namespace Repository

variable {before after : TextMap String} {path : String}

/-! ## The two passes -/

/-- The paths whose text is new or other than before. -/
def written (before after : TextMap String) : List String :=
  (after.entries.filter fun entry => before.get? entry.1 ≠ some entry.2).map Prod.fst

/-- The paths that are gone. -/
def removed (before after : TextMap String) : List String :=
  (before.entries.filter fun entry => !after.contains entry.1).map Prod.fst

theorem mem_written_iff : path ∈ written before after ↔
    ∃ text, after.get? path = some text ∧ before.get? path ≠ some text := by
  rw [written, List.mem_map]
  constructor
  · rintro ⟨⟨path, text⟩, hentry, rfl⟩
    obtain ⟨hentry, hother⟩ := List.mem_filter.mp hentry
    exact ⟨text, TextMap.mem_entries_iff.mp hentry, of_decide_eq_true hother⟩
  · rintro ⟨text, hafter, hbefore⟩
    exact ⟨(path, text),
      List.mem_filter.mpr ⟨TextMap.mem_entries_iff.mpr hafter, decide_eq_true hbefore⟩, rfl⟩

theorem mem_removed_iff : path ∈ removed before after ↔
    (before.get? path).isSome = true ∧ after.get? path = none := by
  rw [removed, List.mem_map, Option.isSome_iff_exists]
  constructor
  · rintro ⟨⟨path, text⟩, hentry, rfl⟩
    obtain ⟨hentry, hgone⟩ := List.mem_filter.mp hentry
    exact ⟨⟨text, TextMap.mem_entries_iff.mp hentry⟩, by simpa [TextMap.contains] using hgone⟩
  · rintro ⟨⟨text, hbefore⟩, hafter⟩
    refine ⟨(path, text), List.mem_filter.mpr ⟨TextMap.mem_entries_iff.mpr hbefore, ?_⟩, rfl⟩
    simp [TextMap.contains, hafter]

/-- No path is met twice. -/
theorem nodup_passes (before after : TextMap String) :
    (written before after ++ removed before after).Nodup := by
  refine List.nodup_append.mpr ⟨?_, ?_, ?_⟩
  · exact after.nodup_keys.sublist (List.filter_sublist.map Prod.fst)
  · exact before.nodup_keys.sublist (List.filter_sublist.map Prod.fst)
  · rintro path hwritten _ hremoved rfl
    obtain ⟨text, hafter, -⟩ := mem_written_iff.mp hwritten
    rw [(mem_removed_iff.mp hremoved).2] at hafter
    cases hafter

/-! ## The changed paths -/

theorem pairwise_changedPaths (before after : TextMap String) :
    (changedPaths before after).Pairwise (· < ·) :=
  TextMap.pairwise_keys _

/-- **The changed paths are what the two passes meet**, put in order. -/
theorem perm_changedPaths (before after : TextMap String) :
    (changedPaths before after).Perm (written before after ++ removed before after) := by
  have hnodup : (changedPaths before after).Nodup :=
    (pairwise_changedPaths before after).imp fun hlt => String.ne_of_lt hlt
  refine (List.perm_ext_iff_of_nodup hnodup (nodup_passes before after)).mpr fun path => ?_
  rw [changedPaths, TextMap.mem_keys_ofList, List.map_append]
  rfl

/-- **A path is changed exactly if something else is found under it.** -/
theorem mem_changedPaths_iff :
    path ∈ changedPaths before after ↔ before.get? path ≠ after.get? path := by
  rw [(perm_changedPaths before after).mem_iff, List.mem_append, mem_written_iff, mem_removed_iff]
  cases after.get? path with
  | none => cases before.get? path <;> simp
  | some text => simp

theorem changedPaths_comm (before after : TextMap String) :
    changedPaths after before = changedPaths before after := by
  refine eq_of_mem_iff (pairwise_changedPaths _ _) (pairwise_changedPaths _ _) fun path => ?_
  rw [mem_changedPaths_iff, mem_changedPaths_iff, ne_comm]

/-! ## Restricted sources -/

theorem get?_restricted (files : TextMap String) (changed : List String) (path : String) :
    (files.filter fun path _ => changed.contains path).get? path =
      if changed.contains path = true then files.get? path else none := by
  rw [TextMap.get?_filter]
  cases changed.contains path <;> cases files.get? path <;> rfl

/-- Restricted to their changed paths, sources still differ under all of them. -/
theorem changedPaths_restricted (before after : TextMap String) :
    changedPaths (before.filter fun path _ => (changedPaths before after).contains path)
        (after.filter fun path _ => (changedPaths before after).contains path) =
      changedPaths before after := by
  refine eq_of_mem_iff (pairwise_changedPaths _ _) (pairwise_changedPaths _ _) fun path => ?_
  rw [mem_changedPaths_iff, get?_restricted, get?_restricted]
  by_cases hchanged : path ∈ changedPaths before after
  · have hcontains := List.contains_iff_mem.mpr hchanged
    rw [if_pos hcontains, if_pos hcontains, mem_changedPaths_iff]
  · have hcontains : ¬ (changedPaths before after).contains path = true := fun hcontains =>
      hchanged (List.contains_iff_mem.mp hcontains)
    rw [if_neg hcontains, if_neg hcontains]
    exact ⟨fun hne => absurd rfl hne, fun hmem => absurd hmem hchanged⟩

/-- **The changed paths are exactly those under which the sources differ**, in increasing order, in
both directions the same. Restricting the sources to them keeps the texts under them and nothing
else, and does not change them. -/
theorem changedPaths_exact (before after : TextMap String) :
    (changedPaths before after).Pairwise (· < ·) ∧
      (∀ path, path ∈ changedPaths before after ↔ before.get? path ≠ after.get? path) ∧
      (changedPaths before after).Perm (written before after ++ removed before after) ∧
      changedPaths after before = changedPaths before after ∧
      ∀ commit parent,
        let kept := (Snapshots.between commit parent before after).retainChanged
        (∀ path text, kept.before.get? path = some text ↔
          path ∈ changedPaths before after ∧ before.get? path = some text) ∧
        (∀ path text, kept.after.get? path = some text ↔
          path ∈ changedPaths before after ∧ after.get? path = some text) ∧
        changedPaths kept.before kept.after = changedPaths before after := by
  have hkept : ∀ (files : TextMap String) path text,
      (files.filter fun path _ => (changedPaths before after).contains path).get? path = some text ↔
        path ∈ changedPaths before after ∧ files.get? path = some text := by
    intro files path text
    rw [get?_restricted, ← List.contains_iff_mem]
    cases (changedPaths before after).contains path <;> simp
  exact ⟨pairwise_changedPaths before after, fun _ => mem_changedPaths_iff,
    perm_changedPaths before after, changedPaths_comm before after,
    fun _ _ => ⟨hkept before, hkept after, changedPaths_restricted before after⟩⟩

end Repository

end Refactor
