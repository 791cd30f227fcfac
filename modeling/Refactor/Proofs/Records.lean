import Mathlib.Data.List.Forall2
import Refactor.Proofs.Outline
import Refactor.Proofs.Provenance

/-!
# Recording an outline

What it means that a model is the outline of its tree, node by node (`Exact`), and how a state comes
closer to it. `Gathered` relates a state to the nodes that have been recorded so far. It is kept by
changes that an outline does not show (`Gathered.of_untouched`), and it grows by one node when an
operation is recorded (`Gathered.record`) or a class is closed (`Gathered.closeClass`).

Members of a list are left out only if an equal one is there, and equal ones have equal locations.
So nothing is left out if no two classes and no two operations cover the same bytes.
-/

namespace Refactor

/-! ## Additions that are not left out -/

theorem exists_of_forall₂ {α β : Type} {R : α → β → Prop} {as : List α} {bs : List β} {b : β}
    (h : List.Forall₂ R as bs) (hb : b ∈ bs) : ∃ a ∈ as, R a b := by
  induction h with
  | nil => cases hb
  | cons hab _ ih =>
    rcases List.mem_cons.mp hb with rfl | hb
    · exact ⟨_, List.mem_cons_self, hab⟩
    · obtain ⟨a, ha, hab⟩ := ih hb
      exact ⟨a, List.mem_cons_of_mem _ ha, hab⟩

/-- The record of a new node is appended, whatever the index says, if equal records are records of
the same node. -/
theorem LocationIndex.forall₂_pushUnique {α β : Type} [BEq β] {R : α → β → Prop}
    (index : LocationIndex) (locate : β → Location) {nodes : List α} {items : List β} {node : α}
    {item : β} (h : List.Forall₂ R nodes items) (hitem : R node item)
    (hsame : ∀ other member, R other member → (member == item) = true → other = node)
    (hnode : node ∉ nodes) :
    List.Forall₂ R (nodes ++ [node]) (index.pushUnique locate items item).2.1 := by
  unfold pushUnique
  dsimp only
  split
  · rename_i hholds
    obtain ⟨member, hmember, hbeq⟩ := List.any_eq_true.mp (mem_of_holds hholds)
    obtain ⟨other, hother, hrecord⟩ := exists_of_forall₂ h hmember
    rw [hsame other member hrecord hbeq] at hother
    exact absurd hother hnode
  · exact List.rel_append h (.cons hitem .nil)

/-- What of a class an outline shows. -/
def Class.core (c : Class) : String × Location × Bool × List Operation :=
  (c.name, c.location, c.isInner, c.operations)

namespace Class

theorem core_addSuperclasses (names : List String) (c : Class) :
    (names.foldl addSuperclass c).core = c.core :=
  foldl_keeps (g := core) (by intros; rfl) names c

theorem core_addAnnotations (annotations : List Annotation) (c : Class) :
    (annotations.foldl addAnnotation c).core = c.core :=
  foldl_keeps (g := core) (by intros; rfl) annotations c

end Class

namespace SyntaxTree

variable {t : SyntaxTree} {kinds : List String}

/-- No two nodes of these kinds cover the same bytes. -/
def DistinctSpans (t : SyntaxTree) (kinds : List String) : Prop :=
  ∀ a < t.size, ∀ b < t.size,
    t.kind a ∈ kinds ∧ t.kind b ∈ kinds ∧ t.range a = t.range b → a = b

instance : Decidable (t.DistinctSpans kinds) :=
  inferInstanceAs (Decidable (∀ a < t.size, ∀ b < t.size,
    t.kind a ∈ kinds ∧ t.kind b ∈ kinds ∧ t.range a = t.range b → a = b))

theorem DistinctSpans.eq (h : t.DistinctSpans kinds) (hkinds : "" ∉ kinds) {a b : NodeId}
    (ha : t.kind a ∈ kinds) (hb : t.kind b ∈ kinds) (hrange : t.range a = t.range b) : a = b :=
  h a (lt_size_of_kind (ne_of_mem_of_not_mem ha hkinds)) b
    (lt_size_of_kind (ne_of_mem_of_not_mem hb hkinds)) ⟨ha, hb, hrange⟩

end SyntaxTree

/-- What of an operation an outline shows. -/
def Operation.core (o : Operation) : String × Location × Option String :=
  (o.name, o.location, o.className)

namespace Extract

open SyntaxTree (root Under)

/-! ## Records -/

section

variable (role : NodeId → Role) (f : File)

/-- The operation is the one that the node declares, in the class of this name or outside of
classes. -/
structure RecordsOperation (owner : Option String) (j : NodeId) (o : Operation) : Prop where
  location : f.locate j .methodDeclaration = .ok o.location
  name : (role j).name? owner.isSome = some o.name
  className : o.className = owner

/-- The class is the one that the node opens, its members apart. -/
structure RecordsHead (k : NodeId) (c : Class) : Prop where
  opens : role k = .opens
  location : f.locate k .classDeclaration = .ok c.location
  name : f.tree.fieldText? k "name" = some c.name
  isInner : c.isInner = true ↔ ∃ outer, Reached role f.tree (some outer) k

/-- The class is the one that the node opens, with the operations that are declared in it. -/
structure RecordsClass (k : NodeId) (c : Class) : Prop extends RecordsHead role f k c where
  operations : List.Forall₂ (RecordsOperation role f (some c.name))
    (operationNodes role f.tree (some k)) c.operations

/-- The model is the outline of the tree. -/
structure Exact (m : CodeModel) : Prop where
  classes : List.Forall₂ (RecordsClass role f) (classNodes role f.tree) m.classes
  operations : List.Forall₂ (RecordsOperation role f none) (operationNodes role f.tree none)
    m.operations

/-- The classes by name, whether they are inner, and the names of their operations; then the names
of the other operations. -/
def outlineNames (m : CodeModel) : List (String × Bool × List String) × List String :=
  (m.classes.map fun c => (c.name, c.isInner, c.operations.map Operation.name),
    m.operations.map Operation.name)

/-- No two classes and no two operations cover the same bytes. -/
structure DistinctRanges : Prop where
  classes : ∀ a b, role a = .opens → role b = .opens → f.tree.range a = f.tree.range b → a = b
  operations : ∀ inside a b, ((role a).name? inside).isSome = true →
    ((role b).name? inside).isSome = true → f.tree.range a = f.tree.range b → a = b

end

variable {role : NodeId → Role} {f : File}

/-- What is located at the same place covers the same bytes. -/
theorem range_eq_of_locate {a b : NodeId} {kind : ElementKind} {location : Location}
    (ha : f.locate a kind = .ok location) (hb : f.locate b kind = .ok location) :
    f.tree.range a = f.tree.range b := by
  have hspan : ∀ {i : NodeId}, f.locate i kind = .ok location →
      f.tree.startPoint i = location.start ∧ f.tree.stopPoint i = location.stop := by
    intro i hi
    unfold File.locate Location.new at hi
    split at hi
    · cases hi
    · split at hi
      · cases hi
        exact ⟨rfl, rfl⟩
      · cases hi
  obtain ⟨hstart, hstop⟩ := hspan ha
  obtain ⟨hstart', hstop'⟩ := hspan hb
  exact Prod.ext (f.tree.pointAt_injective (hstart.trans hstart'.symm))
    (f.tree.pointAt_injective (hstop.trans hstop'.symm))

/-- A record shows nothing but the core of its class. -/
theorem name_and_operations_of_core {c c' : Class} (hcore : c'.core = c.core) :
    c'.name = c.name ∧ c'.operations = c.operations :=
  ⟨congrArg (fun core => core.1) hcore, congrArg (fun core => core.2.2.2) hcore⟩

theorem RecordsHead.of_core {k : NodeId} {c c' : Class} (h : RecordsHead role f k c)
    (hcore : c'.core = c.core) : RecordsHead role f k c' := by
  simp only [Class.core, Prod.mk.injEq] at hcore
  obtain ⟨hname, hlocation, hinner, -⟩ := hcore
  refine ⟨h.opens, ?_, ?_, ?_⟩
  · rw [hlocation]
    exact h.location
  · rw [hname]
    exact h.name
  · rw [hinner]
    exact h.isInner

/-! ## What has been recorded so far -/

variable (role f) in
/-- The operations recorded so far where `c` is open. Outside of classes they are those of the
model. While a class is open they are those of the class, and the model has the `others`. -/
def Recorded : Option NodeId → List Operation → List NodeId → State → Prop
  | none, _, nodes, s => s.context.currentClass = none ∧
    List.Forall₂ (RecordsOperation role f none) nodes s.model.operations
  | some k, others, nodes, s => s.model.operations = others ∧
    ∃ c, s.context.currentClass = some c ∧ RecordsHead role f k c ∧
      List.Forall₂ (RecordsOperation role f (some c.name)) nodes c.operations

variable (role f) in
/-- The nodes whose operations and classes have been recorded so far. -/
structure Gathered (c : Option NodeId) (others : List Operation) (nodes closed : List NodeId)
    (s : State) : Prop where
  operations : Recorded role f c others nodes s
  classes : List.Forall₂ (RecordsClass role f) closed s.model.classes

/-- A change of the state that an outline does not show. -/
structure Untouched (s s' : State) : Prop where
  classes : s'.model.classes = s.model.classes
  operations : s'.model.operations = s.model.operations
  currentClass : s'.context.currentClass.map Class.core = s.context.currentClass.map Class.core

theorem Untouched.refl (s : State) : Untouched s s :=
  ⟨rfl, rfl, rfl⟩

theorem Untouched.trans {s s' s'' : State} (h : Untouched s s') (h' : Untouched s' s'') :
    Untouched s s'' where
  classes := h'.classes.trans h.classes
  operations := h'.operations.trans h.operations
  currentClass := h'.currentClass.trans h.currentClass

section

variable {c : Option NodeId} {others : List Operation} {nodes closed : List NodeId} {s s' : State}

theorem Recorded.of_eq (h : Recorded role f c others nodes s)
    (hoperations : s'.model.operations = s.model.operations)
    (hcore : s'.context.currentClass.map Class.core = s.context.currentClass.map Class.core) :
    Recorded role f c others nodes s' := by
  cases c with
  | none =>
    obtain ⟨hnone, hnodes⟩ := h
    rw [hnone, Option.map_none, Option.map_eq_none_iff] at hcore
    rw [← hoperations] at hnodes
    exact ⟨hcore, hnodes⟩
  | some k =>
    obtain ⟨hothers, c, hc, hhead, hnodes⟩ := h
    rw [hc, Option.map_some, Option.map_eq_some_iff] at hcore
    obtain ⟨c', hc', hcore⟩ := hcore
    refine ⟨hoperations.trans hothers, c', hc', hhead.of_core hcore, ?_⟩
    obtain ⟨hname, hsame⟩ := name_and_operations_of_core hcore
    rw [hname, hsame]
    exact hnodes

theorem Gathered.inClass (h : Gathered role f c others nodes closed s) :
    s.context.inClass = c.isSome := by
  unfold Context.inClass
  cases c with
  | none =>
    rw [h.operations.1]
    rfl
  | some k =>
    obtain ⟨-, c, hc, -⟩ := h.operations
    rw [hc]
    rfl

theorem Gathered.of_untouched (h : Gathered role f c others nodes closed s) (hs : Untouched s s') :
    Gathered role f c others nodes closed s' where
  operations := h.operations.of_eq hs.operations hs.currentClass
  classes := by
    rw [hs.classes]
    exact h.classes

end

/-! ## Recording an operation -/

/-- The state after an operation is recorded. -/
def State.record (s : State) (o : Operation) : State :=
  if s.context.inClass then
    { s with context :=
        { s.context with currentClass := s.context.currentClass.map (·.addOperation o) } }
  else { s with model := s.model.addOperation o }

theorem run_recordOperation (o : Operation) (s : State) :
    (recordOperation o).run.run s = (.ok (), s.record o) := by
  have hcontext : getContext.run.run s = (.ok s.context, s) := rfl
  unfold recordOperation State.record
  rw [run_bind_of_ok hcontext]
  split <;> rfl

theorem RecordsOperation.eq_of_beq (hranges : DistinctRanges role f) {owner : Option String}
    {a b : NodeId} {o o' : Operation} (ho : RecordsOperation role f owner a o)
    (ho' : RecordsOperation role f owner b o') (hsame : (o == o') = true) : a = b := by
  refine hranges.operations owner.isSome a b ?_ ?_ (range_eq_of_locate ho.location ?_)
  · rw [ho.name]
    rfl
  · rw [ho'.name]
    rfl
  · rw [Operation.location_eq_of_beq hsame]
    exact ho'.location

namespace Gathered

variable {c : Option NodeId} {others : List Operation} {nodes closed : List NodeId} {s : State}

/-- An operation is recorded behind the others where it is declared. -/
theorem record (hranges : DistinctRanges role f) (h : Gathered role f c others nodes closed s)
    {j : NodeId} {o : Operation} (hlocation : f.locate j .methodDeclaration = .ok o.location)
    (hname : (role j).name? c.isSome = some o.name) (hclass : o.className = none)
    (hj : j ∉ nodes) : Gathered role f c others (nodes ++ [j]) closed (s.record o) := by
  unfold State.record
  rw [h.inClass]
  cases c with
  | none =>
    obtain ⟨hnone, hnodes⟩ := h.operations
    have ho : RecordsOperation role f none j o := ⟨hlocation, hname, hclass⟩
    exact ⟨⟨hnone, LocationIndex.forall₂_pushUnique _ _ hnodes ho
      (fun _ _ hother => hother.eq_of_beq hranges ho) hj⟩, h.classes⟩
  | some k =>
    obtain ⟨hothers, c, hc, hhead, hnodes⟩ := h.operations
    have ho : RecordsOperation role f (some c.name) j { o with className := some c.name } :=
      ⟨hlocation, hname, rfl⟩
    refine ⟨⟨hothers, c.addOperation o, ?_, ?_, ?_⟩, h.classes⟩
    · exact congrArg (Option.map (·.addOperation o)) hc
    · exact ⟨hhead.opens, hhead.location, hhead.name, hhead.isInner⟩
    · exact LocationIndex.forall₂_pushUnique _ _ hnodes ho
        (fun _ _ hother => hother.eq_of_beq hranges ho) hj

end Gathered

/-! ## Classes -/

theorem RecordsClass.eq_of_beq (hranges : DistinctRanges role f) {a b : NodeId} {c c' : Class}
    (hc : RecordsClass role f a c) (hc' : RecordsClass role f b c') (hsame : (c == c') = true) :
    a = b := by
  refine hranges.classes a b hc.opens hc'.opens (range_eq_of_locate hc.location ?_)
  rw [Class.location_eq_of_beq hsame]
  exact hc'.location

/-- A class as it stands before its body is walked. -/
structure Fresh (f : File) (i : NodeId) (inside : Bool) (c : Class) : Prop where
  location : f.locate i .classDeclaration = .ok c.location
  name : f.tree.fieldText? i "name" = some c.name
  isInner : c.isInner = inside
  operations : c.operations = []

namespace Gathered

variable {c₀ : Option NodeId} {others : List Operation} {nodes closed closed' : List NodeId}
  {s inner : State} {i : NodeId} {opened : Class} {visibility : Visibility} {finish : Class → Class}

/-- A class is open, with nothing in it yet. -/
theorem openClass (hwell : f.tree.WellFormed) (h : Gathered role f c₀ others nodes closed s)
    (hi : Reached role f.tree c₀ i) (hrole : role i = .opens)
    (hopened : Fresh f i c₀.isSome opened) :
    Gathered role f (some i) s.model.operations [] closed
      ((Enclosure.classBody opened visibility finish).opened s) := by
  refine ⟨⟨rfl, opened, rfl, ⟨hrole, hopened.location, hopened.name, ?_⟩, ?_⟩, h.classes⟩
  · rw [hopened.isInner]
    constructor
    · intro hinside
      obtain ⟨outer, rfl⟩ := Option.isSome_iff_exists.mp hinside
      exact ⟨outer, hi⟩
    · rintro ⟨outer, houter⟩
      rw [hi.context_unique hwell houter]
      rfl
  · rw [hopened.operations]
    exact .nil

/-- A class that is closed is recorded behind those recorded before, and the class around it is open
again. -/
theorem closeClass (hranges : DistinctRanges role f) (h : Gathered role f c₀ others nodes closed s)
    (hinner : Gathered role f (some i) s.model.operations (operationNodes role f.tree (some i))
      closed' inner)
    (hfinish : ∀ c, (finish c).core = c.core) (hi : i ∉ closed') :
    Gathered role f c₀ others nodes (closed' ++ [i])
      ((Enclosure.classBody opened visibility finish).closed s inner) := by
  obtain ⟨hothers, c, hc, hhead, hoperations⟩ := hinner.operations
  have hmodel : ((Enclosure.classBody opened visibility finish).closed s inner).model =
      inner.model.addClass (finish c) := Enclosure.model_closed_class hc
  have hrecords : RecordsClass role f i (finish c) := by
    obtain ⟨hname, hsame⟩ := name_and_operations_of_core (hfinish c)
    refine ⟨hhead.of_core (hfinish c), ?_⟩
    rw [hname, hsame]
    exact hoperations
  refine ⟨h.operations.of_eq ?_ rfl, ?_⟩
  · rw [hmodel]
    exact hothers
  rw [hmodel]
  exact LocationIndex.forall₂_pushUnique _ _ hinner.classes hrecords
    (fun _ _ hother => hother.eq_of_beq hranges hrecords) hi

end Gathered

end Extract

end Refactor
