import Refactor.Extract.Walk
import Refactor.Proofs.Arena
import Refactor.Proofs.Attachment
import Refactor.Proofs.IndexedList
import Refactor.Proofs.TextMaps

/-!
# What stands at nodes of a file

An entity is placed in a file if its location is that of a node of the file's tree, and if the same
holds of everything that it holds itself: parameters, annotations, comments, members. A class must
also have given its name to its members. `CodeModel.Placed` asks this of a whole model.

Additions of placed entities keep what they are added to placed, and so does linking
(`CodeModel.Placed.link`): a declaration may take over the parameters of a definition, and those
stand at nodes of the same file.
-/

namespace Refactor

/-- The location of a node of the file. -/
def Extract.File.Locates (f : Extract.File) (l : Location) : Prop :=
  l.file = f.path ∧
    ∃ i : NodeId, i < f.tree.size ∧ l.start = f.tree.startPoint i ∧ l.stop = f.tree.stopPoint i

theorem Extract.File.locates_of_locate {f : File} {i : NodeId} {kind : ElementKind} {l : Location}
    (hi : i < f.tree.size) (h : f.locate i kind = .ok l) : f.Locates l := by
  unfold File.locate Location.new at h
  split at h
  · cases h
  · split at h
    · cases h
      exact ⟨rfl, i, hi, rfl, rfl⟩
    · cases h

/-! ## Entities -/

structure Parameter.Placed (f : Extract.File) (p : Parameter) : Prop where
  location : f.Locates p.location
  annotations : ∀ a ∈ p.annotations, f.Locates a.location

structure Operation.Placed (f : Extract.File) (o : Operation) : Prop where
  location : f.Locates o.location
  parameters : ∀ p ∈ o.parameters, p.Placed f
  annotations : ∀ a ∈ o.annotations, f.Locates a.location
  comments : ∀ c ∈ o.comments, f.Locates c.location

structure Attribute.Placed (f : Extract.File) (a : Attribute) : Prop where
  location : f.Locates a.location
  annotations : ∀ annotation ∈ a.annotations, f.Locates annotation.location
  comments : ∀ c ∈ a.comments, f.Locates c.location

/-- The members carry the name of the class. -/
structure Class.Placed (f : Extract.File) (c : Class) : Prop where
  location : f.Locates c.location
  operations : ∀ o ∈ c.operations, o.Placed f ∧ o.className = some c.name
  attributes : ∀ a ∈ c.attributes, a.Placed f ∧ a.className = some c.name
  annotations : ∀ a ∈ c.annotations, f.Locates a.location
  comments : ∀ comment ∈ c.comments, f.Locates comment.location

section

variable {f : Extract.File}

theorem forall_mem_appendNew {α : Type} [BEq α] {P : α → Prop} {items : List α} {item : α}
    (h : ∀ a ∈ items, P a) (hitem : P item) : ∀ a ∈ appendNew items item, P a := by
  unfold appendNew
  split
  · exact h
  · exact List.forall_mem_append.mpr ⟨h, List.forall_mem_singleton.mpr hitem⟩

/-- An entity that holds nothing yet is placed by its location. -/
theorem Parameter.placed_of_location {p : Parameter} (h : f.Locates p.location)
    (hnone : p.annotations = []) : p.Placed f :=
  ⟨h, by simp [hnone]⟩

theorem Attribute.placed_of_location {a : Attribute} (h : f.Locates a.location)
    (hnone : a.annotations = [] ∧ a.comments = []) : a.Placed f :=
  ⟨h, by simp [hnone.1], by simp [hnone.2]⟩

theorem Class.placed_of_location {c : Class} (h : f.Locates c.location)
    (hnone : c.operations = [] ∧ c.attributes = [] ∧ c.annotations = [] ∧ c.comments = []) :
    c.Placed f :=
  ⟨h, by simp [hnone.1], by simp [hnone.2.1], by simp [hnone.2.2.1], by simp [hnone.2.2.2]⟩

namespace Operation.Placed

variable {o : Operation}

theorem addAnnotations (h : o.Placed f) {annotations : List Annotation}
    (hannotations : ∀ a ∈ annotations, f.Locates a.location) :
    (annotations.foldl addAnnotation o).Placed f :=
  List.foldlRecOn (motive := Operation.Placed f) _ _ h fun _ ho a ha =>
    { ho with annotations := forall_mem_appendNew ho.annotations (hannotations a ha) }

theorem addComments (h : o.Placed f) {comments : List Comment}
    (hcomments : ∀ c ∈ comments, f.Locates c.location) : (comments.foldl addComment o).Placed f :=
  List.foldlRecOn (motive := Operation.Placed f) _ _ h fun _ ho c hc =>
    { ho with comments := forall_mem_appendNew ho.comments (hcomments c hc) }

/-- A declaration keeps its own location, and the parameters of the definition are placed. -/
theorem withDefinition (h : o.Placed f) {definition : Operation}
    (hdefinition : definition.Placed f) : (o.withDefinition definition).Placed f where
  location := h.location
  parameters := by
    intro p hp
    unfold Operation.withDefinition at hp
    dsimp only at hp
    split at hp
    · exact hdefinition.parameters p hp
    · exact h.parameters p hp
  annotations := h.annotations
  comments := h.comments

end Operation.Placed

namespace Class.Placed

variable {c : Class}

theorem addOperation (h : c.Placed f) {o : Operation} (ho : o.Placed f) :
    (c.addOperation o).Placed f :=
  { h with
    operations := LocationIndex.forall_mem_pushUnique h.operations
      ⟨⟨ho.location, ho.parameters, ho.annotations, ho.comments⟩, rfl⟩ }

theorem addAttribute (h : c.Placed f) {a : Attribute} (ha : a.Placed f) :
    (c.addAttribute a).Placed f :=
  { h with
    attributes := LocationIndex.forall_mem_pushUnique h.attributes
      ⟨⟨ha.location, ha.annotations, ha.comments⟩, rfl⟩ }

theorem addSuperclasses (h : c.Placed f) (names : List String) :
    (names.foldl addSuperclass c).Placed f :=
  List.foldlRecOn (motive := Class.Placed f) _ _ h fun _ hc _ _ => { hc with }

theorem addAnnotations (h : c.Placed f) {annotations : List Annotation}
    (hannotations : ∀ a ∈ annotations, f.Locates a.location) :
    (annotations.foldl addAnnotation c).Placed f :=
  List.foldlRecOn (motive := Class.Placed f) _ _ h fun _ hc a ha =>
    { hc with annotations := forall_mem_appendNew hc.annotations (hannotations a ha) }

theorem addComments (h : c.Placed f) {comments : List Comment}
    (hcomments : ∀ comment ∈ comments, f.Locates comment.location) :
    (comments.foldl addComment c).Placed f :=
  List.foldlRecOn (motive := Class.Placed f) _ _ h fun _ hc comment hcomment =>
    { hc with comments := forall_mem_appendNew hc.comments (hcomments comment hcomment) }

theorem fill (h : c.Placed f) {definition declared : Operation} (hdefinition : definition.Placed f)
    {earlier later : List Operation} (hoperations : c.operations = earlier ++ declared :: later) :
    Class.Placed f
      { c with operations := earlier ++ declared.withDefinition definition :: later } := by
  have hold := h.operations
  rw [hoperations, List.forall_mem_append, List.forall_mem_cons] at hold
  obtain ⟨hearlier, ⟨hdeclared, hname⟩, hlater⟩ := hold
  refine { h with operations := ?_ }
  rw [List.forall_mem_append, List.forall_mem_cons]
  exact ⟨hearlier, ⟨hdeclared.withDefinition hdefinition, hname⟩, hlater⟩

theorem giveValue (h : c.Placed f) {a : Attribute} {earlier later : List Attribute}
    (hattributes : c.attributes = earlier ++ a :: later) (value : String) :
    Class.Placed f
      { c with attributes := earlier ++ { a with initialValue := some value } :: later } := by
  have hold := h.attributes
  rw [hattributes, List.forall_mem_append, List.forall_mem_cons] at hold
  obtain ⟨hearlier, ⟨ha, hname⟩, hlater⟩ := hold
  refine { h with attributes := ?_ }
  rw [List.forall_mem_append, List.forall_mem_cons]
  exact ⟨hearlier, ⟨⟨ha.location, ha.annotations, ha.comments⟩, hname⟩, hlater⟩

end Class.Placed

end

/-! ## Models -/

/-- Everything in the model is placed in the file, which is the only one that the model knows. Only
definitions outside of their classes, which are particular to C++, name a class without being held
by one. -/
structure CodeModel.Placed (language : Language) (f : Extract.File) (m : CodeModel) : Prop where
  classes : ∀ c ∈ m.classes, c.Placed f
  operations : ∀ o ∈ m.operations, o.Placed f
  unowned : language ≠ .cpp → ∀ o ∈ m.operations, o.className = none
  comments : ∀ path comments, m.comments.get? path = some comments →
    path = f.path ∧ ∀ c ∈ comments, f.Locates c.location
  imports : ∀ path imports, m.imports.get? path = some imports →
    path = f.path ∧ ∀ i ∈ imports, f.Locates i.location
  sources : m.sources = TextMap.ofList [(f.path, f.tree.source)]

theorem TextMap.forall_update_append {α : Type} {P : α → Prop} {key : String}
    {m : TextMap (List α)} {item : α}
    (h : ∀ k items, m.get? k = some items → k = key ∧ ∀ a ∈ items, P a) (hitem : P item) :
    ∀ k items, (m.update key [] (· ++ [item])).get? k = some items →
      k = key ∧ ∀ a ∈ items, P a := by
  intro k items hitems
  rw [get?_update] at hitems
  split at hitems
  · rename_i hkey
    obtain rfl := Option.some.inj hitems
    refine ⟨hkey, List.forall_mem_append.mpr ⟨?_, List.forall_mem_singleton.mpr hitem⟩⟩
    cases hbefore : m.get? k with
    | none => simp
    | some before => exact (h k before hbefore).2
  · exact h k items hitems

namespace CodeModel.Placed

variable {language : Language} {f : Extract.File} {m : CodeModel}

theorem addClass (h : m.Placed language f) {c : Class} (hc : c.Placed f) :
    (m.addClass c).Placed language f :=
  { h with classes := LocationIndex.forall_mem_pushUnique h.classes hc }

theorem addOperation (h : m.Placed language f) {o : Operation} (ho : o.Placed f)
    (hunowned : language ≠ .cpp → o.className = none) : (m.addOperation o).Placed language f :=
  { h with
    operations := LocationIndex.forall_mem_pushUnique h.operations ho
    unowned := fun hlanguage =>
      LocationIndex.forall_mem_pushUnique (h.unowned hlanguage) (hunowned hlanguage) }

theorem addComment (h : m.Placed language f) {c : Comment} (hc : f.Locates c.location) :
    (m.addComment f.path c).Placed language f :=
  { h with comments := TextMap.forall_update_append h.comments hc }

theorem addImport (h : m.Placed language f) {i : Import} (hi : f.Locates i.location) :
    (m.addImport f.path i).Placed language f :=
  { h with imports := TextMap.forall_update_append h.imports hi }

theorem setPackage (h : m.Placed language f) (path package : String) :
    (m.setPackage path package).Placed language f :=
  { h with }

/-- Placement of a model that differs in the members of its classes and has lost operations. -/
theorem of_byFile (h : m.Placed language f) {m' : CodeModel}
    (hclasses : ∀ c ∈ m'.classes, c.Placed f) (hoperations : m'.operations ⊆ m.operations)
    (hfile : m'.byFile = m.byFile) :
    m'.Placed language f := by
  obtain ⟨hcomments, himports, -, hsources⟩ :
      m'.comments = m.comments ∧ m'.imports = m.imports ∧ m'.packages = m.packages ∧
        m'.sources = m.sources := by
    simpa only [byFile, Prod.mk.injEq] using hfile
  exact
    { classes := hclasses
      operations := fun o ho => h.operations o (hoperations ho)
      unowned := fun hlanguage o ho => h.unowned hlanguage o (hoperations ho)
      comments := hcomments ▸ h.comments
      imports := himports ▸ h.imports
      sources := hsources ▸ h.sources }

theorem linkInitializer (h : m.Placed language f) (i : StaticInitializer) :
    (m.linkInitializer i).Placed language f := by
  refine h.of_byFile ?_ ?_ (byFile_linkInitializer m i)
  · exact forall_classes_linkInitializer h.classes fun _ _ _ _ hc hattributes =>
      hc.giveValue hattributes i.value
  · rw [(keeps_linkInitializer m i).2]
    exact List.Subset.refl _

/-- **Linking places nothing elsewhere.** -/
theorem link (h : m.Placed language f) : m.link.Placed language f := by
  refine h.of_byFile ?_ (keeps_link m).2.subset (byFile_link m)
  refine forall_classes_link h.classes ?_ ?_
  · intro definition hdefinition _ _ _ _ hc hoperations
    exact hc.fill (h.operations definition hdefinition) hoperations
  · exact fun value _ _ _ _ hc hattributes => hc.giveValue hattributes value

end CodeModel.Placed

end Refactor
