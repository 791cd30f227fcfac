import Mathlib.Data.List.Find
import Refactor.Proofs.Unchanged

/-!
# Models that only grow

**Theorem (`detect_of_additions`).** When a new model keeps all operations of an old one in their
order and has others in between, every signature of the old model is found again, and the fuzzy
pass has nothing to do. What is reported comes from signatures that were *taken over*: the last
operation that has the signature is another one in the new model, of another interface. Without
such a signature nothing is reported, and added operations with signatures of their own never
take one over.

An index keeps the last operation of a signature. So an operation that is added behind the old one
of its signature stands in its place and is compared with it (`additions_take_over`).
-/

namespace Refactor.Diff

/-! ## The last operation of a signature -/

/-- The last operation of a model that has a signature, as it is compared with an old model. -/
def lastWithKey? (old model : CodeModel) (key : String) : Option Operation :=
  model.allOperations.reverse.find? fun o => signatureKey old o = key

theorem mem_signatureIndex {old model : CodeModel} {entry : Entry} :
    entry ∈ signatureIndex old model ↔ lastWithKey? old model entry.1 = some entry.2 :=
  OperationIndex.mem_ofOperations

/-- The signatures of an index are those of the model's operations. -/
theorem mem_keys_signatureIndex {old model : CodeModel} {key : String} :
    key ∈ (signatureIndex old model).map Prod.fst ↔
      ∃ o ∈ model.allOperations, signatureKey old o = key := by
  rw [← OperationIndex.contains_iff_mem, OperationIndex.contains, signatureIndex,
    OperationIndex.get?_ofOperations, List.find?_isSome]
  simp

/-- Operations that are left out change nothing where they do not have the signature. -/
theorem lastWithKey?_of_filter {old new : CodeModel} {p : Operation → Bool} {key : String}
    (h : new.allOperations.filter p = old.allOperations)
    (hkey : ∀ o ∈ new.allOperations, signatureKey old o = key → p o = true) :
    lastWithKey? old new key = lastWithKey? old old key := by
  unfold lastWithKey?
  rw [← h, ← List.filter_reverse, List.find?_filter]
  refine List.find?_congr fun o ho => ?_
  have hmem : o ∈ new.allOperations := List.mem_reverse.mp ho
  by_cases hsame : signatureKey old o = key
  · simp [hsame, hkey o hmem hsame]
  · simp [hsame]

/-! ## Signatures taken over -/

/-- A signature whose last operation has another interface in the new model than in the old. -/
structure TakenOver (old new : CodeModel) (key : String) (before after : Operation) : Prop where
  before_last : lastWithKey? old old key = some before
  after_last : lastWithKey? old new key = some after
  differ : ¬ SameInterface before after

section
variable {old new : CodeModel}

theorem keys_subset_of_sublist (h : old.allOperations.Sublist new.allOperations) :
    (signatureIndex old old).map Prod.fst ⊆ (signatureIndex old new).map Prod.fst := by
  intro key hkey
  obtain ⟨o, ho, hsame⟩ := mem_keys_signatureIndex.mp hkey
  exact mem_keys_signatureIndex.mpr ⟨o, h.subset ho, hsame⟩

/-- Only signatures that were taken over are reported. -/
theorem exists_takenOver_of_mem_detect {config : Config}
    (h : old.allOperations.Sublist new.allOperations) {r : Refactoring}
    (hr : r ∈ detect config old new) :
    ∃ key before after, TakenOver old new key before after ∧
      r ∈ (OperationMapping.between config before after).refactorings := by
  obtain ⟨mapping, hmapping, hr⟩ := List.mem_flatMap.mp hr
  rw [matchOperations_eq, entriesOnlyIn_eq_nil (keys_subset_of_sublist h), fuzzyMatches,
    List.append_nil, exactMatches_eq] at hmapping
  obtain ⟨link, hlink, rfl⟩ := List.mem_map.mp hmapping
  obtain ⟨hold, hnew, hkey⟩ := mem_exactLinks hlink
  refine ⟨link.old.1, link.old.2, link.new.2, ⟨mem_signatureIndex.mp hold, ?_, ?_⟩, hr⟩
  · rw [← hkey]
    exact mem_signatureIndex.mp hnew
  · intro hsame
    have hnone : (link.mapping config).refactorings = [] :=
      OperationMapping.refactorings_of_sameInterface config hsame
    rw [hnone] at hr
    exact List.not_mem_nil hr

theorem detect_eq_nil_of_not_takenOver (config : Config)
    (h : old.allOperations.Sublist new.allOperations)
    (hnone : ∀ key before after, ¬ TakenOver old new key before after) :
    detect config old new = [] := by
  refine List.eq_nil_iff_forall_not_mem.mpr fun r hr => ?_
  obtain ⟨key, before, after, htaken, -⟩ := exists_takenOver_of_mem_detect h hr
  exact hnone key before after htaken

/-- Added operations with signatures of their own take none over. -/
theorem not_takenOver_of_filter
    (h : (new.allOperations.filter fun o =>
      (signatureIndex old old).contains (signatureKey old o)) = old.allOperations)
    (key : String) (before after : Operation) : ¬ TakenOver old new key before after := by
  intro htaken
  have hentry : (key, before) ∈ signatureIndex old old := mem_signatureIndex.mpr htaken.before_last
  have hkey : (signatureIndex old old).contains key = true :=
    OperationIndex.contains_iff_mem.mpr (List.mem_map_of_mem (f := Prod.fst) hentry)
  have hlast := lastWithKey?_of_filter h fun o _ hsame => hsame ▸ hkey
  rw [htaken.before_last, htaken.after_last] at hlast
  obtain rfl := Option.some.inj hlast
  exact htaken.differ (.refl after)

end

/-- **Additions are reported only where they take a signature over.** -/
theorem detect_of_additions (config : Config) {old new : CodeModel}
    (h : old.allOperations.Sublist new.allOperations) :
    (∀ r ∈ detect config old new, ∃ key before after, TakenOver old new key before after ∧
      r ∈ (OperationMapping.between config before after).refactorings) ∧
    ((∀ key before after, ¬ TakenOver old new key before after) → detect config old new = []) ∧
    ((new.allOperations.filter fun o =>
        (signatureIndex old old).contains (signatureKey old o)) = old.allOperations →
      detect config old new = []) :=
  ⟨fun _ hr => exists_takenOver_of_mem_detect h hr, detect_eq_nil_of_not_takenOver config h,
    fun hown => detect_eq_nil_of_not_takenOver config h (not_takenOver_of_filter hown)⟩

/-- A function `f` that returns its only parameter. -/
def returning (parameter : String) : Operation :=
  let function := OperationMapping.functionOf "f" ("return " ++ parameter)
  { function with
    parameters :=
      [{ name := parameter
         type := .named "object"
         location := { function.location with kind := .parameterDeclaration } }] }

/-- A function is added at either end, and neither has the signature of the old one. -/
theorem detect_of_additions_apart :
    let old : CodeModel := { language := some .python, operations := [returning "x"] }
    let new : CodeModel := { language := some .python, operations :=
      [OperationMapping.functionOf "g" "return x", returning "x",
        OperationMapping.functionOf "h" "return x"] }
    old.allOperations.Sublist new.allOperations ∧ detect {} old new = [] := by
  intro old new
  have h : old.allOperations.Sublist new.allOperations :=
    .cons _ (.cons_cons _ (.cons _ .slnil))
  exact ⟨h, (detect_of_additions {} h).2.2 rfl⟩

/-- A second function of the same signature is added behind the first one, and a renamed parameter
is reported. -/
theorem additions_take_over :
    let old : CodeModel := { language := some .python, operations := [returning "x"] }
    let new : CodeModel :=
      { language := some .python, operations := [returning "x", returning "y"] }
    new.language = old.language ∧ old.allOperations.Sublist new.allOperations ∧
      detect {} old new ≠ [] ∧ (detect {} old new).map Refactoring.description =
        ["Parameter 'x' renamed to 'y' in function 'f'"] := by
  intro old new
  have hdescription : (detect {} old new).map Refactoring.description =
      ["Parameter 'x' renamed to 'y' in function 'f'"] := by decide +kernel
  refine ⟨rfl, .cons_cons _ (.cons _ .slnil), fun hnone => ?_, hdescription⟩
  rw [hnone] at hdescription
  cases hdescription

end Refactor.Diff
