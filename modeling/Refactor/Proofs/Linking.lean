import Refactor.Model.Linking
import Refactor.Proofs.Sameness

/-!
# What linking leaves alone

Linking changes members of classes and takes operations away. Every class keeps its identity and
its place, the operations that stay are those that were there, in their order, and neither index is
touched (`keeps_link`).
-/

namespace Refactor

/-- What is changed keeps whatever the change itself keeps. -/
theorem map_modifyFirst? {α β : Type} {p : α → Bool} {f : α → α} {g : α → β}
    {items changed : List α} (h : modifyFirst? p f items = some changed)
    (hkeep : ∀ item, items.find? p = some item → g (f item) = g item) :
    changed.map g = items.map g := by
  induction items generalizing changed with
  | nil => cases h
  | cons item items ih =>
    rw [modifyFirst?] at h
    by_cases hp : p item = true
    · rw [if_pos hp] at h
      obtain rfl := Option.some.inj h
      rw [List.map_cons, List.map_cons, hkeep item (List.find?_cons_of_pos hp)]
    · rw [if_neg hp] at h
      obtain ⟨rest, hrest, rfl⟩ := Option.map_eq_some_iff.mp h
      rw [List.map_cons, List.map_cons, ih hrest fun other hother => hkeep other ?_]
      rw [List.find?_cons_of_neg hp, hother]

/-- What each step keeps is kept by all of them. -/
theorem foldl_keeps {α β γ : Type} {step : β → α → β} {g : β → γ}
    (hstep : ∀ b a, g (step b a) = g b) (items : List α) (b : β) :
    g (items.foldl step b) = g b := by
  induction items generalizing b with
  | nil => rfl
  | cons a items ih => rw [List.foldl_cons, ih, hstep]

namespace CodeModel

/-- The classes have kept their identities and places, and the indexes are the same. -/
structure Keeps (m m' : CodeModel) : Prop where
  identities : m'.classes.map Class.identity = m.classes.map Class.identity
  classIndex : m'.classIndex = m.classIndex
  operationIndex : m'.operationIndex = m.operationIndex

theorem Keeps.trans {m m' m'' : CodeModel} (h : Keeps m m') (h' : Keeps m' m'') : Keeps m m'' where
  identities := h'.identities.trans h.identities
  classIndex := h'.classIndex.trans h.classIndex
  operationIndex := h'.operationIndex.trans h.operationIndex

/-- A class that is changed keeps its place and whatever the change keeps, and nothing but the
classes is changed. -/
theorem map_modifyClass? {β : Type} {g : Class → β} {m m' : CodeModel} {name : String}
    {f : Class → Option Class} (hf : ∀ c changed, f c = some changed → g changed = g c)
    (h : m.modifyClass? name f = some m') :
    m'.classes.map g = m.classes.map g ∧ m' = { m with classes := m'.classes } := by
  obtain ⟨c, hc, h⟩ := Option.bind_eq_some_iff.mp h
  obtain ⟨changed, hchanged, h⟩ := Option.bind_eq_some_iff.mp h
  obtain ⟨classes, hclasses, rfl⟩ := Option.map_eq_some_iff.mp h
  refine ⟨map_modifyFirst? hclasses fun first hfirst => ?_, rfl⟩
  obtain rfl : c = first := Option.some.inj (hc.symm.trans hfirst)
  exact hf c changed hchanged

theorem keeps_modifyClass? {m m' : CodeModel} {name : String} {f : Class → Option Class}
    (hf : ∀ c changed, f c = some changed → changed.identity = c.identity)
    (h : m.modifyClass? name f = some m') : Keeps m m' ∧ m'.operations = m.operations := by
  obtain ⟨hidentities, hrest⟩ := map_modifyClass? hf h
  rw [hrest]
  exact ⟨⟨hidentities, rfl, rfl⟩, rfl⟩

theorem keeps_attach? {m m' : CodeModel} {definition : Operation}
    (h : m.attach? definition = some m') : Keeps m m' ∧ m'.operations = m.operations := by
  unfold attach? at h
  split at h
  · refine keeps_modifyClass? (fun c changed hchanged => ?_) h
    obtain ⟨operations, -, rfl⟩ := Option.map_eq_some_iff.mp hchanged
    rfl
  · cases h

theorem keeps_giveValue? {m m' : CodeModel} {i : StaticInitializer}
    (h : m.giveValue? i = some m') : Keeps m m' ∧ m'.operations = m.operations := by
  refine keeps_modifyClass? (fun c changed hchanged => ?_) h
  obtain ⟨attributes, -, rfl⟩ := Option.map_eq_some_iff.mp hchanged
  rfl

/-- One definition is moved or stays. -/
theorem keeps_linkDefinition (m : CodeModel) (definition : Operation) :
    Keeps m (m.linkDefinition definition) ∧
      ((m.linkDefinition definition).operations = m.operations ∨
        (m.linkDefinition definition).operations = m.operations ++ [definition]) := by
  unfold linkDefinition
  cases hattach : m.attach? definition with
  | none => exact ⟨⟨rfl, rfl, rfl⟩, .inr rfl⟩
  | some m' =>
    obtain ⟨hkeeps, hoperations⟩ := keeps_attach? hattach
    exact ⟨hkeeps, .inl hoperations⟩

theorem keeps_foldl_linkDefinition (m : CodeModel) (definitions : List Operation) :
    Keeps m (definitions.foldl linkDefinition m) ∧
      (definitions.foldl linkDefinition m).operations.Sublist (m.operations ++ definitions) := by
  induction definitions generalizing m with
  | nil => exact ⟨⟨rfl, rfl, rfl⟩, by simp⟩
  | cons definition definitions ih =>
    obtain ⟨hkeeps, hstep⟩ := keeps_linkDefinition m definition
    obtain ⟨hrest, hsublist⟩ := ih (m.linkDefinition definition)
    refine ⟨hkeeps.trans hrest, hsublist.trans ?_⟩
    rcases hstep with hmoved | hkept
    · rw [hmoved]
      exact (List.sublist_cons_self definition definitions).append_left m.operations
    · simp [hkept]

theorem keeps_linkInitializer (m : CodeModel) (i : StaticInitializer) :
    Keeps m (m.linkInitializer i) ∧ (m.linkInitializer i).operations = m.operations := by
  unfold linkInitializer
  cases hvalue : m.giveValue? i with
  | none => exact ⟨⟨rfl, rfl, rfl⟩, rfl⟩
  | some m' => exact keeps_giveValue? hvalue

theorem keeps_foldl_linkInitializer (m : CodeModel) (initializers : List StaticInitializer) :
    Keeps m (initializers.foldl linkInitializer m) ∧
      (initializers.foldl linkInitializer m).operations = m.operations := by
  induction initializers generalizing m with
  | nil => exact ⟨⟨rfl, rfl, rfl⟩, rfl⟩
  | cons i initializers ih =>
    obtain ⟨hrest, hoperations⟩ := ih (m.linkInitializer i)
    obtain ⟨hstep, hsame⟩ := keeps_linkInitializer m i
    exact ⟨hstep.trans hrest, hoperations.trans hsame⟩

/-- **Linking keeps the classes apart from their members, and takes operations away.** -/
theorem keeps_link (m : CodeModel) : Keeps m m.link ∧ m.link.operations.Sublist m.operations := by
  obtain ⟨hdefinitions, hsublist⟩ :=
    keeps_foldl_linkDefinition { m with operations := [] } m.operations
  obtain ⟨hinitializers, hoperations⟩ := keeps_foldl_linkInitializer
    { m.operations.foldl linkDefinition { m with operations := [] } with deferred := [] }
    (m.operations.foldl linkDefinition { m with operations := [] }).deferred
  refine ⟨⟨hinitializers.identities.trans hdefinitions.identities,
    hinitializers.classIndex.trans hdefinitions.classIndex,
    hinitializers.operationIndex.trans hdefinitions.operationIndex⟩, ?_⟩
  unfold link
  dsimp only
  rw [hoperations]
  exact hsublist

end CodeModel

end Refactor
