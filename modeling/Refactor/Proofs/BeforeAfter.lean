import Refactor.Proofs.ModelMatching

/-!
# Locations before and after

A refactoring lists locations on two sides, the left one for what was there before and the right
one for what is there after.

**Theorem (`detect_sides`).** Every refactoring that is found is shown by an operation of the old
model and one of the new model. All locations on its right side are locations in the new model, and
those on its left side are locations in the old model, except when a parameter was added. Then the
left side has the new operation's location.

So the left side is wrong for an added parameter whenever the operation has moved
(`added_parameter_moved`): only the new operation is kept with it, and nothing leads back to the old
one.

All links between operations, by signature or by names and bodies, join entries of the two indexes
(`exists_link_of_mem`). What is found on a link is a matter of the two operations alone
(`shows_of_mem`).
-/

namespace Refactor

/-- A location of one of the model's operations or of their parameters. -/
def CodeModel.Locates (m : CodeModel) (l : Location) : Prop :=
  ∃ o ∈ m.allOperations, o.location = l ∨ ∃ p ∈ o.parameters, p.location = l

instance (m : CodeModel) (l : Location) : Decidable (m.Locates l) :=
  inferInstanceAs (Decidable (∃ o ∈ m.allOperations, o.location = l ∨
    ∃ p ∈ o.parameters, p.location = l))

namespace Diff

/-! ## What two operations show -/

/-- A refactoring that leads from one operation to another. -/
inductive Shows (before after : Operation) : Refactoring → Prop
  | renameParameter {k : Nat} {p q : Parameter} (hp : before.parameters[k]? = some p)
      (hq : after.parameters[k]? = some q) : Shows before after (.renameParameter p q after)
  | changeParameterType {k : Nat} {p q : Parameter} (hp : before.parameters[k]? = some p)
      (hq : after.parameters[k]? = some q) : Shows before after (.changeParameterType p q after)
  | addParameter {k : Nat} {p : Parameter} (hk : before.parameters.length ≤ k)
      (hp : after.parameters[k]? = some p) : Shows before after (.addParameter p after)
  | renameMethod : Shows before after (.renameMethod before after)

section
variable {config : Config} {old new : Operation} {r : Refactoring}

theorem exists_of_mem_alignedParameters {place : Parameter × Parameter}
    (h : place ∈ alignedParameters old new) :
    ∃ k : Nat, old.parameters[k]? = some place.1 ∧ new.parameters[k]? = some place.2 := by
  have hzip : place ∈ old.parameters.zip new.parameters := List.mem_of_mem_drop h
  obtain ⟨k, hk⟩ := List.getElem?_of_mem hzip
  exact ⟨k, List.getElem?_zip_eq_some.mp hk⟩

theorem shows_of_mem_parameters (h : r ∈ (ParameterMapping.between old new).refactorings) :
    Shows old new r := by
  rcases ParameterMapping.mem_refactorings h with ⟨place, hplace, hr⟩ | ⟨p, hp, rfl⟩
  · obtain ⟨k, hbefore, hafter⟩ := exists_of_mem_alignedParameters hplace
    rcases hr with rfl | rfl
    · exact .renameParameter hbefore hafter
    · exact .changeParameterType hbefore hafter
  · obtain ⟨k, hk⟩ := List.getElem?_of_mem hp
    rw [List.getElem?_drop] at hk
    exact .addParameter (Nat.le_add_right _ k) hk

/-- What comparing two operations finds is shown by them. -/
theorem shows_of_mem (h : r ∈ (OperationMapping.between config old new).refactorings) :
    Shows old new r := by
  rw [OperationMapping.between_eq] at h
  split at h
  · rcases List.mem_append.mp h with h | h
    · exact shows_of_mem_parameters h
    · rw [List.mem_singleton.mp h]
      exact .renameMethod
  · exact shows_of_mem_parameters h

end

/-! ## Where the operations come from -/

section
variable {config : Config} {old new : CodeModel}

theorem mem_allOperations_of_mem_signatureIndex {model : CodeModel} {entry : Entry}
    (h : entry ∈ signatureIndex old model) : entry.2 ∈ model.allOperations := by
  have hlast := OperationIndex.mem_ofOperations.mp h
  exact List.mem_reverse.mp (List.mem_of_find?_eq_some hlast)

/-- Whether by signature or by names and bodies, entries of the two indexes are compared. -/
theorem exists_link_of_mem {mapping : OperationMapping}
    (h : mapping ∈ matchOperations config old new) :
    ∃ link : Link, link.old ∈ signatureIndex old old ∧ link.new ∈ signatureIndex old new ∧
      mapping = link.mapping config := by
  obtain ⟨fuzzy, hturns, hfuzzy⟩ := exists_turns config
    (entriesOnlyIn (signatureIndex old old) (signatureIndex old new))
    (entriesOnlyIn (signatureIndex old new) (signatureIndex old old))
  rw [matchOperations_eq, exactMatches_eq, hfuzzy, ← List.map_append] at h
  obtain ⟨link, hlink, rfl⟩ := List.mem_map.mp h
  rcases List.mem_append.mp hlink with hexact | hturn
  · obtain ⟨hold, hnew, -⟩ := mem_exactLinks hexact
    exact ⟨link, hold, hnew, rfl⟩
  · have hlinked := isFuzzyLink_of_turns hturns hturn
    exact ⟨link, hlinked.old_mem, hlinked.new_mem, rfl⟩

theorem exists_shows_of_mem_detect {r : Refactoring} (h : r ∈ detect config old new) :
    ∃ before ∈ old.allOperations, ∃ after ∈ new.allOperations, Shows before after r := by
  obtain ⟨mapping, hmapping, hr⟩ := List.mem_flatMap.mp h
  obtain ⟨link, hold, hnew, rfl⟩ := exists_link_of_mem hmapping
  exact ⟨link.old.2, mem_allOperations_of_mem_signatureIndex hold, link.new.2,
    mem_allOperations_of_mem_signatureIndex hnew, shows_of_mem hr⟩

end

/-! ## The two sides -/

section
variable {m : CodeModel} {before after : Operation} {r : Refactoring} {l : Location}

theorem locates_operation {o : Operation} (ho : o ∈ m.allOperations) : m.Locates o.location :=
  ⟨o, ho, .inl rfl⟩

theorem locates_parameter {o : Operation} (ho : o ∈ m.allOperations) {k : Nat} {p : Parameter}
    (hp : o.parameters[k]? = some p) : m.Locates p.location :=
  ⟨o, ho, .inr ⟨p, List.mem_of_getElem? hp, rfl⟩⟩

theorem Shows.locates_right (h : Shows before after r) (hafter : after ∈ m.allOperations)
    (hl : l ∈ r.right) : m.Locates l := by
  cases h with
  | renameParameter _ hq =>
    rw [List.mem_singleton.mp hl]
    exact locates_parameter hafter hq
  | changeParameterType _ hq =>
    rw [List.mem_singleton.mp hl]
    exact locates_parameter hafter hq
  | addParameter _ hp =>
    rcases List.mem_cons.mp hl with rfl | hl
    · exact locates_operation hafter
    · rw [List.mem_singleton.mp hl]
      exact locates_parameter hafter hp
  | renameMethod =>
    rw [List.mem_singleton.mp hl]
    exact locates_operation hafter

theorem Shows.locates_left (h : Shows before after r) (hbefore : before ∈ m.allOperations)
    (hkind : r.kind ≠ .addParameter) (hl : l ∈ r.left) : m.Locates l := by
  cases h with
  | renameParameter hp _ =>
    rw [List.mem_singleton.mp hl]
    exact locates_parameter hbefore hp
  | changeParameterType hp _ =>
    rw [List.mem_singleton.mp hl]
    exact locates_parameter hbefore hp
  | addParameter _ _ => exact absurd rfl hkind
  | renameMethod =>
    rw [List.mem_singleton.mp hl]
    exact locates_operation hbefore

/-- For an added parameter the left side is about the new operation. -/
theorem Shows.left_of_addParameter (h : Shows before after r) (hkind : r.kind = .addParameter) :
    r.left = [after.location] := by
  cases h with
  | addParameter _ _ => rfl
  | _ => cases hkind

end

/-- **Both sides are about the models they are listed for, except before an addition.** -/
theorem detect_sides (config : Config) (old new : CodeModel) {r : Refactoring}
    (hr : r ∈ detect config old new) :
    ∃ before ∈ old.allOperations, ∃ after ∈ new.allOperations, Shows before after r ∧
      (∀ l ∈ r.right, new.Locates l) ∧
      (r.kind ≠ .addParameter → ∀ l ∈ r.left, old.Locates l) ∧
      (r.kind = .addParameter → r.left = [after.location]) := by
  obtain ⟨before, hbefore, after, hafter, hshows⟩ := exists_shows_of_mem_detect hr
  exact ⟨before, hbefore, after, hafter, hshows, fun l hl => hshows.locates_right hafter hl,
    fun hkind l hl => hshows.locates_left hbefore hkind hl, hshows.left_of_addParameter⟩

/-- A function that starts in a row, with parameters in that row. -/
def functionAt (row : Nat) (name : String) (parameters : List String) (body : String) :
    Operation :=
  let location (column : Nat) (kind : ElementKind) : Location :=
    ⟨"io.py", ⟨row, column⟩, ⟨row, column + 1⟩, kind, by decide, .inr ⟨rfl, Nat.le_succ column⟩⟩
  { name := name
    location := location 0 .methodDeclaration
    parameters := parameters.zipIdx.map fun (parameter, place) =>
      { name := parameter
        type := .named "object"
        location := location (place + 1) .parameterDeclaration }
    body := some body }

/-- A function is renamed, together with its parameter. -/
theorem detect_sides_renamed :
    let old : CodeModel := { language := some .python, operations :=
      [functionAt 0 "load" ["path"] "a = read(path)\nreturn a"] }
    let new : CodeModel := { language := some .python, operations :=
      [functionAt 4 "load_file" ["name"] "a = read(name)\nreturn a"] }
    (detect {} old new).map Refactoring.kind = [.renameParameter, .renameMethod] ∧
      ∃ r ∈ detect {} old new, r.kind = .renameMethod ∧ (∀ l ∈ r.left, old.Locates l) ∧
        ∀ l ∈ r.right, new.Locates l := by
  intro old new
  have hkinds : (detect {} old new).map Refactoring.kind = [.renameParameter, .renameMethod] := by
    decide +kernel
  have hmem : RefactoringKind.renameMethod ∈ (detect {} old new).map Refactoring.kind := by
    rw [hkinds]
    exact List.mem_cons_of_mem _ List.mem_cons_self
  obtain ⟨r, hr, hkind⟩ := List.mem_map.mp hmem
  obtain ⟨-, -, -, -, -, hright, hleft, -⟩ := detect_sides {} old new hr
  exact ⟨hkinds, r, hr, hkind, hleft (by rw [hkind]; decide), hright⟩

/-- A function gets a second parameter and has moved down. What is listed for it before is a
location that the old model does not have. -/
theorem added_parameter_moved :
    let old : CodeModel := { language := some .python, operations :=
      [functionAt 0 "f" ["x"] "return x"] }
    let new : CodeModel := { language := some .python, operations :=
      [functionAt 4 "f" ["x", "y"] "return x"] }
    (detect {} old new).map Refactoring.kind = [.addParameter] ∧
      ¬ ∀ r ∈ detect {} old new, ∀ l ∈ r.left, old.Locates l := by
  decide +kernel

end Diff

end Refactor
