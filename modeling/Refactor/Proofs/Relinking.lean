import Refactor.Proofs.LinkCompleteness
import Refactor.Read.Reader

/-!
# Linking again

The model of a file may be linked, and what files make up together is linked once more.

**Theorem (`link_idempotent`).** Linking twice is linking once: classes with all their members, the
operations that stay and the values that wait are the same after the second time. So models that
are read have nothing left to link.

The definitions that can be moved only become fewer. Moving one fills a declaration, perhaps with
new parameters, and a filled declaration awaits nothing. Hence a definition that finds no
declaration at its turn finds none at any later point, whichever others are moved in between.
-/

namespace Refactor

namespace CodeModel

section

variable {m : CodeModel} {o : Operation} {i : StaticInitializer}

/-! ## Fewer and fewer -/

theorem attach?_foldl_eq_none (ho : m.attach? o = none) (definitions : List Operation) :
    (definitions.foldl linkDefinition m).attach? o = none :=
  List.foldlRecOn (motive := fun model : CodeModel => model.attach? o = none) definitions _ ho
    fun _ hmodel definition _ => attach?_linkDefinition_eq_none hmodel definition

theorem giveValue?_foldl_eq_none (hi : m.giveValue? i = none)
    (initializers : List StaticInitializer) :
    (initializers.foldl linkInitializer m).giveValue? i = none :=
  List.foldlRecOn (motive := fun model : CodeModel => model.giveValue? i = none) initializers _ hi
    fun _ hmodel given _ => giveValue?_linkInitializer_eq_none hmodel given

/-- Values that are given do not touch operations, so they make no definition find a
declaration. -/
theorem attach?_link_eq_none (ho : m.attach? o = none) : m.link.attach? o = none := by
  have hstart : ({ m with operations := [] } : CodeModel).attach? o = none :=
    attach?_eq_none_of_outline (m := m) (by rfl) ho
  exact attach?_eq_none_of_outline (outline_link m).1
    (attach?_foldl_eq_none hstart m.operations)

theorem Attached.attributeNames_eq {definition : Operation} {m' : CodeModel}
    (h : Attached definition m m') :
    m'.classes.map Class.attributeNames = m.classes.map Class.attributeNames := by
  cases h with
  | fill _ _ hclasses => simp [hclasses, Class.attributeNames]

theorem attributeNames_linkDefinition (m : CodeModel) (definition : Operation) :
    (m.linkDefinition definition).classes.map Class.attributeNames =
      m.classes.map Class.attributeNames := by
  rcases linkDefinition_cases m definition with hattached | ⟨-, hkept⟩
  · exact hattached.attributeNames_eq
  · rw [hkept]

/-- Moving definitions leaves attributes alone, so it makes no value find one. -/
theorem giveValue?_link_eq_none (hi : m.giveValue? i = none) : m.link.giveValue? i = none := by
  have hnames : m.linkDefinitions.classes.map Class.attributeNames =
      m.classes.map Class.attributeNames :=
    foldl_keeps (g := fun model : CodeModel => model.classes.map Class.attributeNames)
      attributeNames_linkDefinition m.operations { m with operations := [] }
  have hdefinitions : ({ m.linkDefinitions with deferred := [] } : CodeModel).giveValue? i = none :=
    giveValue?_eq_none_of_names (m := m) hnames hi
  exact giveValue?_foldl_eq_none hdefinitions m.linkDefinitions.deferred

end

/-! ## The second time -/

theorem link_link (m : CodeModel) : m.link.link = m.link :=
  link_eq_self_iff.mpr fun _ _ hc => settled_of_class? hc

/-- **Linking again changes nothing**, neither in a model that was linked nor in one that was read.
What is left after linking finds no place, and what finds no place does not find one through
anything else that is linked, be it all that waits or any definitions and values in any order. -/
theorem link_idempotent (m : CodeModel) :
    m.link.link = m.link ∧
      (∀ o ∈ m.link.operations, m.link.attach? o = none) ∧
      (∀ i ∈ m.link.deferred, m.link.giveValue? i = none) ∧
      (∀ o, m.attach? o = none → m.link.attach? o = none ∧
        ∀ definitions : List Operation, (definitions.foldl linkDefinition m).attach? o = none) ∧
      (∀ i, m.giveValue? i = none → m.link.giveValue? i = none ∧
        ∀ initializers : List StaticInitializer,
          (initializers.foldl linkInitializer m).giveValue? i = none) ∧
      (∀ f, (Extract.Cpp.model f).map link = Extract.Cpp.model f) ∧
      ∀ results, (Read.combine results).link = Read.combine results := by
  refine ⟨link_link m, attach?_link m, giveValue?_link m,
    fun o ho => ⟨attach?_link_eq_none ho, attach?_foldl_eq_none ho⟩,
    fun i hi => ⟨giveValue?_link_eq_none hi, giveValue?_foldl_eq_none hi⟩, fun f => ?_,
    fun results => link_link _⟩
  unfold Extract.Cpp.model
  cases Extract.modelOf .cpp f _ with
  | error e => rfl
  | ok model => exact congrArg Except.ok (link_link model)

/-- The one declaration of `put` takes the first of two definitions, and its parameters with it. The
second one could have been moved as well before, but it cannot any more; a third one never
could. -/
theorem link_idempotent_overloads :
    let hold := memberOf "Box" "put" "int" "n" (some "hold(n);")
    let keep := memberOf "Box" "put" "int" "k" (some "keep(k);")
    let long := memberOf "Box" "put" "long" "n" (some "hold(n);")
    let m : CodeModel :=
      { classes := [boxOf "store" [memberOf "Box" "put" "int" "" none] ["depth"]]
        operations := [hold, keep, long]
        deferred := [⟨"Box", "width", "2"⟩] }
    (m.attach? keep).isSome = true ∧ m.attach? long = none ∧
      m.giveValue? ⟨"Box", "width", "2"⟩ = none ∧
      m.link.operations = [keep, long] ∧ m.link.allOperations = [keep, long, hold] ∧
      m.link.link = m.link ∧ m.link.attach? keep = none ∧ m.link.attach? long = none ∧
      m.link.giveValue? ⟨"Box", "width", "2"⟩ = none := by
  intro hold keep long m
  obtain ⟨hagain, hleft, -, hdefinitions, hvalues, -, -⟩ := link_idempotent m
  have hoperations : m.link.operations = [keep, long] := rfl
  have hkeep : keep ∈ m.link.operations := hoperations ▸ List.mem_cons_self
  exact ⟨rfl, rfl, rfl, hoperations, rfl, hagain, hleft keep hkeep, (hdefinitions long rfl).1,
    (hvalues _ rfl).1⟩

end CodeModel

end Refactor
