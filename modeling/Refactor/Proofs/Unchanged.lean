import Mathlib.Data.List.Forall2
import Refactor.Proofs.ModelMatching

/-!
# Models with the same interfaces

**Theorem (`detect_of_sameInterfaces`).** Nothing is found between two models whose operations
agree one by one in name, class and parameters, whatever their bodies, locations and marks.

Operations that agree have the same signature. So both indexes are built by the same steps: they
have the same keys in the same order, and agree entry by entry even where an operation replaces
an earlier one of its signature. Every old entry then has its counterpart by signature, which
leaves the fuzzy pass nothing to do, and comparing counterparts finds nothing.
-/

namespace Refactor.Diff

/-! ## Interfaces -/

/-- Two parameters of the same name and type. -/
def SameParameter (p q : Parameter) : Prop :=
  p.name = q.name ∧ (p.type == q.type) = true

/-- Two operations that agree in name, class and parameters. -/
structure SameInterface (a b : Operation) : Prop where
  name : a.name = b.name
  className : a.className = b.className
  parameters : List.Forall₂ SameParameter a.parameters b.parameters

theorem SameInterface.refl (o : Operation) : SameInterface o o :=
  ⟨rfl, rfl, List.forall₂_same.mpr fun p _ => ⟨rfl, TypeRef.same_refl p.type⟩⟩

/-- Operations of one name, one class and the same parameter types have one signature. -/
theorem signatureKey_eq_of_types (model : CodeModel) {a b : Operation} (hname : a.name = b.name)
    (hclass : a.className = b.className)
    (htypes : List.Forall₂ (fun p q => (p.type == q.type) = true) a.parameters b.parameters) :
    signatureKey model a = signatureKey model b := by
  have hnames : (a.parameters.map fun p => p.type.name) =
      b.parameters.map fun p => p.type.name := by
    rw [← List.forall₂_eq_eq_eq, List.forall₂_map_left_iff, List.forall₂_map_right_iff]
    exact htypes.imp fun _ _ hsame => TypeRef.name_eq_of_same hsame
  rw [signatureKey, signatureKey, hnames, Operation.qualifiedName, Operation.qualifiedName, hname,
    hclass]

theorem SameInterface.signatureKey {a b : Operation} (h : SameInterface a b) (model : CodeModel) :
    signatureKey model a = signatureKey model b :=
  signatureKey_eq_of_types model h.name h.className (h.parameters.imp fun _ _ hsame => hsame.2)

/-! ## Comparing operations -/

theorem ParameterMapping.refactorings_of_sameInterface {old new : Operation}
    (h : SameInterface old new) : (ParameterMapping.between old new).refactorings = [] := by
  have hplaces : ∀ place ∈ alignedParameters old new,
      place.1.name = place.2.name ∧ (place.1.type == place.2.type) = true :=
    fun place hplace => List.forall₂_zip h.parameters (List.mem_of_mem_drop hplace)
  have hadded : new.parameters.drop old.parameters.length = [] :=
    List.drop_of_length_le (Nat.le_of_eq h.parameters.length_eq.symm)
  rw [ParameterMapping.between, ParameterScan.foldl_step_of_unchanged hplaces, hadded]
  rfl

theorem OperationMapping.refactorings_of_sameInterface (config : Config) {old new : Operation}
    (h : SameInterface old new) : (OperationMapping.between config old new).refactorings = [] := by
  rw [OperationMapping.refactorings_of_name_eq config h.name,
    ParameterMapping.refactorings_of_sameInterface h]

/-! ## Indexes -/

/-- Two entries of the same key whose operations agree. -/
def SameEntry (a b : Entry) : Prop :=
  a.1 = b.1 ∧ SameInterface a.2 b.2

namespace OperationIndex

theorem insert_sameEntry {index index' : OperationIndex} (h : List.Forall₂ SameEntry index index')
    {o o' : Operation} (ho : SameInterface o o') (key : String) :
    List.Forall₂ SameEntry (insert key o index) (insert key o' index') := by
  induction h with
  | nil => exact .cons ⟨rfl, ho⟩ .nil
  | @cons entry entry' rest rest' hentry hrest ih =>
    obtain ⟨k, before⟩ := entry
    obtain ⟨k', before'⟩ := entry'
    obtain ⟨rfl, hbefore⟩ : k = k' ∧ SameInterface before before' := hentry
    rw [insert, insert]
    split
    · exact .cons ⟨rfl, ho⟩ hrest
    · exact .cons ⟨rfl, hbefore⟩ ih

theorem ofOperations_sameEntry {keyOf : Operation → String}
    (hkey : ∀ a b, SameInterface a b → keyOf a = keyOf b) {olds news : List Operation}
    (h : List.Forall₂ SameInterface olds news) :
    List.Forall₂ SameEntry (ofOperations keyOf olds) (ofOperations keyOf news) := by
  refine List.rel_foldl (P := List.Forall₂ SameEntry) (fun index index' hindex o o' ho => ?_)
    List.Forall₂.nil h
  rw [hkey o o' ho]
  exact insert_sameEntry hindex ho (keyOf o')

theorem keys_eq_of_sameEntry {index index' : OperationIndex}
    (h : List.Forall₂ SameEntry index index') : index.map Prod.fst = index'.map Prod.fst := by
  rw [← List.forall₂_eq_eq_eq, List.forall₂_map_left_iff, List.forall₂_map_right_iff]
  exact h.imp fun _ _ hsame => hsame.1

/-- Entries of one key in two indexes that agree. -/
theorem sameInterface_of_mem {index index' : OperationIndex}
    (h : List.Forall₂ SameEntry index index') (hnodup : (index'.map Prod.fst).Nodup)
    {entry entry' : Entry} (hmem : entry ∈ index) (hmem' : entry' ∈ index')
    (hkey : entry'.1 = entry.1) : SameInterface entry.2 entry'.2 := by
  obtain ⟨i, hi, rfl⟩ := List.getElem_of_mem hmem
  have hi' : i < index'.length := h.length_eq ▸ hi
  have hsame : SameEntry index[i] index'[i] := h.get hi hi'
  have heq : entry' = index'[i] :=
    List.inj_on_of_nodup_map hnodup hmem' (List.getElem_mem hi') (hkey.trans hsame.1)
  rw [heq]
  exact hsame.2

end OperationIndex

/-! ## Models -/

theorem signatureIndex_sameEntry {old new : CodeModel}
    (h : List.Forall₂ SameInterface old.allOperations new.allOperations) :
    List.Forall₂ SameEntry (signatureIndex old old) (signatureIndex old new) :=
  OperationIndex.ofOperations_sameEntry (fun _ _ hsame => hsame.signatureKey old) h

theorem entriesOnlyIn_eq_nil {index other : OperationIndex}
    (h : index.map Prod.fst ⊆ other.map Prod.fst) : entriesOnlyIn index other = [] := by
  refine List.eq_nil_iff_forall_not_mem.mpr fun entry hentry => ?_
  obtain ⟨hmem, habsent⟩ := mem_entriesOnlyIn.mp hentry
  exact habsent (h (List.mem_map_of_mem hmem))

theorem detect_eq_nil_of_sameEntry (config : Config) {old new : CodeModel}
    (h : List.Forall₂ SameEntry (signatureIndex old old) (signatureIndex old new)) :
    detect config old new = [] := by
  refine List.flatMap_eq_nil_iff.mpr fun mapping hmapping => ?_
  have hkeys : (signatureIndex old old).map Prod.fst ⊆ (signatureIndex old new).map Prod.fst :=
    fun _ hkey => OperationIndex.keys_eq_of_sameEntry h ▸ hkey
  rw [matchOperations_eq, entriesOnlyIn_eq_nil hkeys, fuzzyMatches, List.append_nil,
    exactMatches_eq] at hmapping
  obtain ⟨link, hlink, rfl⟩ := List.mem_map.mp hmapping
  obtain ⟨hold, hnew, hkey⟩ := mem_exactLinks hlink
  exact OperationMapping.refactorings_of_sameInterface config
    (OperationIndex.sameInterface_of_mem h (nodup_signatureIndex old new) hold hnew hkey)

/-- **Models of the same interfaces have nothing to report**, and a model compared with itself
has none either. -/
theorem detect_of_sameInterfaces (config : Config) :
    (∀ old new : CodeModel, List.Forall₂ SameInterface old.allOperations new.allOperations →
      detect config old new = []) ∧
    ∀ model : CodeModel, detect config model model = [] := by
  have hall : ∀ old new : CodeModel,
      List.Forall₂ SameInterface old.allOperations new.allOperations → detect config old new = [] :=
    fun old new h => detect_eq_nil_of_sameEntry config (signatureIndex_sameEntry h)
  exact ⟨hall, fun model => hall model model (List.forall₂_same.mpr fun o _ => .refl o)⟩

/-- Two operations of one signature, and none of the four bodies is the same. -/
theorem detect_of_sameInterfaces_bodies :
    let old : CodeModel := { operations :=
      [OperationMapping.functionOf "run" "start()", OperationMapping.functionOf "run" "go()"] }
    let new : CodeModel := { operations :=
      [OperationMapping.functionOf "run" "stop()", OperationMapping.functionOf "run" "return"] }
    List.Forall₂ SameInterface old.allOperations new.allOperations ∧ detect {} old new = [] := by
  intro old new
  have h : List.Forall₂ SameInterface old.allOperations new.allOperations :=
    .cons ⟨rfl, rfl, .nil⟩ (.cons ⟨rfl, rfl, .nil⟩ .nil)
  exact ⟨h, (detect_of_sameInterfaces {}).1 old new h⟩

end Refactor.Diff
