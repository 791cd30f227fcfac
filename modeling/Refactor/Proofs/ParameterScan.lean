import Refactor.Diff.Parameters

/-!
# Going through parameters

Facts about the scan of two parameter lists, each proved for one place and then for all places.

- The renaming that is found does not depend on which operation is reported (`renames_congr`).
- What is found is about two aligned parameters, or an addition (`mem_refactorings`). So parameters
  never make an operation renamed (`kind_ne_renameMethod`).
- Places with equal names and types are passed over (`foldl_step_of_unchanged`).
-/

namespace Refactor.Diff

namespace ParameterScan

/-! ## The renaming -/

/-- Two scans have seen the same pairs of names and found the same renaming. -/
structure Agree (scan scan' : ParameterScan) : Prop where
  seen : scan'.seen = scan.seen
  renames : scan'.found.renames = scan.found.renames

theorem Agree.step {scan scan' : ParameterScan} (h : Agree scan scan') (o o' : Operation)
    (place : Parameter × Parameter) : Agree (step o scan place) (step o' scan' place) := by
  obtain ⟨hseen, hrenames⟩ := h
  unfold ParameterScan.step
  rw [hseen]
  dsimp only
  split
  · split
    · exact ⟨hseen, hrenames⟩
    · exact ⟨rfl, by rw [hrenames]⟩
  · split
    · exact ⟨rfl, hrenames⟩
    · exact ⟨hseen, hrenames⟩

theorem Agree.foldl {scan scan' : ParameterScan} (h : Agree scan scan') (o o' : Operation)
    (places : List (Parameter × Parameter)) :
    Agree (places.foldl (ParameterScan.step o) scan)
      (places.foldl (ParameterScan.step o') scan') := by
  induction places generalizing scan scan' with
  | nil => exact h
  | cons place places ih => exact ih (h.step o o' place)

/-! ## What is found -/

/-- What one place can add. -/
theorem mem_step {o : Operation} {scan : ParameterScan} {place : Parameter × Parameter}
    {r : Refactoring} (h : r ∈ (step o scan place).found.refactorings) :
    r ∈ scan.found.refactorings ∨ r = .renameParameter place.1 place.2 o ∨
      r = .changeParameterType place.1 place.2 o := by
  unfold step at h
  dsimp only at h
  split at h
  · split at h
    · exact .inl h
    · rcases List.mem_append.mp h with h | h
      · exact .inl h
      · exact .inr (.inl (List.mem_singleton.mp h))
  · split at h
    · rcases List.mem_append.mp h with h | h
      · exact .inl h
      · exact .inr (.inr (List.mem_singleton.mp h))
    · exact .inl h

theorem mem_foldl_step {o : Operation} {scan : ParameterScan}
    {places : List (Parameter × Parameter)} {r : Refactoring}
    (h : r ∈ (places.foldl (step o) scan).found.refactorings) :
    r ∈ scan.found.refactorings ∨ ∃ place ∈ places, r = .renameParameter place.1 place.2 o ∨
      r = .changeParameterType place.1 place.2 o := by
  induction places generalizing scan with
  | nil => exact .inl h
  | cons place places ih =>
    rcases ih h with h | ⟨other, hother, h⟩
    · rcases mem_step h with h | h
      · exact .inl h
      · exact .inr ⟨place, List.mem_cons_self, h⟩
    · exact .inr ⟨other, List.mem_cons_of_mem _ hother, h⟩

theorem step_of_unchanged {o : Operation} {scan : ParameterScan} {place : Parameter × Parameter}
    (hname : place.1.name = place.2.name) (htype : (place.1.type == place.2.type) = true) :
    step o scan place = scan := by
  unfold step
  dsimp only
  rw [if_neg (not_not_intro hname), if_neg (by simp [bne, htype])]

theorem foldl_step_of_unchanged {o : Operation} {scan : ParameterScan}
    {places : List (Parameter × Parameter)}
    (h : ∀ place ∈ places, place.1.name = place.2.name ∧ (place.1.type == place.2.type) = true) :
    places.foldl (step o) scan = scan := by
  induction places with
  | nil => rfl
  | cons place places ih =>
    obtain ⟨hname, htype⟩ := h place List.mem_cons_self
    rw [List.foldl_cons, step_of_unchanged hname htype]
    exact ih fun other hother => h other (List.mem_cons_of_mem _ hother)

end ParameterScan

namespace ParameterMapping

/-- The renaming is told by the parameters and the file of the old operation. -/
theorem renames_congr {old old' new new' : Operation} (hold : old'.parameters = old.parameters)
    (hnew : new'.parameters = new.parameters) (hfile : old'.location.file = old.location.file) :
    (between old' new').renames = (between old new).renames := by
  have haligned : alignedParameters old' new' = alignedParameters old new := by
    unfold alignedParameters sharesReceiver
    rw [hold, hnew, hfile]
  unfold between
  dsimp only
  rw [haligned]
  exact (ParameterScan.Agree.foldl ⟨rfl, rfl⟩ new new' (alignedParameters old new)).renames

/-- What comparing parameters can find: something about two aligned parameters, or an addition. -/
theorem mem_refactorings {old new : Operation} {r : Refactoring}
    (h : r ∈ (between old new).refactorings) :
    (∃ place ∈ alignedParameters old new, r = .renameParameter place.1 place.2 new ∨
      r = .changeParameterType place.1 place.2 new) ∨
    ∃ p ∈ new.parameters.drop old.parameters.length, r = .addParameter p new := by
  rcases List.mem_append.mp h with h | h
  · exact .inl ((ParameterScan.mem_foldl_step h).resolve_left (by simp))
  · obtain ⟨p, hp, rfl⟩ := List.mem_map.mp h
    exact .inr ⟨p, hp, rfl⟩

/-- Parameters never make an operation renamed. -/
theorem kind_ne_renameMethod {old new : Operation} {r : Refactoring}
    (h : r ∈ (between old new).refactorings) : r.kind ≠ .renameMethod := by
  rcases mem_refactorings h with ⟨place, -, rfl | rfl⟩ | ⟨p, -, rfl⟩
  all_goals exact nofun

end ParameterMapping

end Refactor.Diff
