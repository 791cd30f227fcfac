import Refactor.Proofs.Points
import Refactor.Syntax.Query

/-!
# Grown trees

What holds of every tree that was grown node by node, whatever its shape.

- `WellFormed`: a node stands behind its parent, the children of a node are the nodes that have it
  for a parent, in the order of the table, and ranges lie within the source. Entering a node keeps
  this (`WellFormed.grow`), so it holds of every grown tree (`Grown.wellFormed`).
- `startPoint_le_stopPoint`: a node does not end before it starts, since a later offset has a later
  point.
- `lt_of_mem_children`: children lie behind, so going down comes to an end.
-/

namespace Refactor

/-- A named node as it is entered: its kind and field, its range, and the node that it hangs on. -/
def nodeOf (kind : String) (field : Option String) (start stop : Nat) (parent : Option NodeId) :
    SyntaxNode :=
  { kind := kind, field := field, named := true, start := start, stop := stop, parent := parent }

namespace SyntaxTree

/-! ## Entering a node -/

section

variable (t : SyntaxTree) (node : SyntaxNode)

theorem size_attach : (t.attach node).size = t.size + 1 := by
  unfold attach size
  cases node.parent <;> simp

theorem node?_attach (i : NodeId) :
    (t.attach node).node? i =
      if i = t.size then some node
      else (t.node? i).map fun other =>
        if node.parent = some i then { other with children := other.children ++ [t.size] }
        else other := by
  unfold attach node? size
  cases hparent : node.parent with
  | none => simp [Array.getElem?_push]
  | some parent =>
    simp only [Array.getElem?_push, Array.size_modify, Array.getElem?_modify, Option.some.injEq]
    by_cases hi : parent = i
    · simp [hi]
    · simp [hi]

theorem node?_eq_none {i : NodeId} : t.node? i = none ↔ t.size ≤ i := by
  unfold node? size
  exact Array.getElem?_eq_none_iff

theorem parent?_attach (i : NodeId) :
    (t.attach node).parent? i = if i = t.size then node.parent else t.parent? i := by
  unfold parent?
  rw [node?_attach]
  by_cases hi : i = t.size
  · simp [hi]
  · rw [if_neg hi, if_neg hi]
    cases t.node? i with
    | none => rfl
    | some other =>
      simp only [Option.map_some, Option.bind_some]
      split <;> rfl

theorem range_attach (i : NodeId) :
    (t.attach node).range i = if i = t.size then (node.start, node.stop) else t.range i := by
  unfold range
  rw [node?_attach]
  by_cases hi : i = t.size
  · simp [hi]
  · rw [if_neg hi, if_neg hi]
    cases t.node? i with
    | none => rfl
    | some other =>
      simp only [Option.map_some, Option.getD_some]
      split <;> rfl

/-- A node is entered behind the other children of its parent. -/
theorem children_attach {i : NodeId} (hi : i < t.size) :
    (t.attach node).children i =
      t.children i ++ if node.parent = some i then [t.size] else [] := by
  unfold children
  rw [node?_attach, if_neg (Nat.ne_of_lt hi)]
  cases hnode : t.node? i with
  | none => exact absurd ((t.node?_eq_none).mp hnode) (Nat.not_le.mpr hi)
  | some other =>
    simp only [Option.map_some, Option.getD_some]
    split <;> simp

theorem children_attach_size : (t.attach node).children t.size = node.children := by
  unfold children
  simp [node?_attach]

end

/-! ## Growing -/

/-- The trees that are grown from nothing over a source. A node that is refused changes nothing. -/
inductive Grown : SyntaxTree → Prop
  | start (source : String) : Grown { source := source }
  | grow {t t' : SyntaxTree} (h : Grown t) {node : SyntaxNode} (hnode : t.grow node = .ok t') :
    Grown t'

/-- Adding several nodes is growing. -/
theorem Grown.growAll {t t' : SyntaxTree} (h : Grown t) {nodes : List SyntaxNode}
    (hnodes : t.growAll nodes = .ok t') : Grown t' := by
  induction nodes generalizing t with
  | nil =>
    obtain rfl := Except.ok.inj hnodes
    exact h
  | cons node nodes ih =>
    rw [SyntaxTree.growAll, List.foldlM_cons] at hnodes
    cases hnode : t.grow node with
    | error e =>
      rw [hnode] at hnodes
      cases hnodes
    | ok mid =>
      rw [hnode] at hnodes
      exact ih (h.grow hnode) hnodes

/-- Whether nodes can be entered one after the other, behind so many others and over a source of so
many bytes. -/
def fit (bytes : Nat) : Nat → List SyntaxNode → Bool
  | _, [] => true
  | count, node :: rest =>
    (node.start ≤ node.stop && node.stop ≤ bytes) && node.parent.all (· < count) &&
      node.children.isEmpty && fit bytes (count + 1) rest

/-- A node with its range in the source and its parent in the table is entered. -/
theorem grow_eq_attach {t : SyntaxTree} {node : SyntaxNode} (hstart : node.start ≤ node.stop)
    (hstop : node.stop ≤ t.sourceSize)
    (hparent : ∀ parent, node.parent = some parent → parent < t.size) :
    t.grow node = .ok (t.attach { node with children := [] }) := by
  rw [grow, if_neg (by omega)]
  split
  · rename_i parent hsome
    exact if_pos (hparent parent hsome)
  · rfl

/-- Nodes that fit are entered without being refused. -/
theorem Grown.attachAll {t : SyntaxTree} (h : Grown t) {nodes : List SyntaxNode}
    (hfit : fit t.sourceSize t.size nodes = true) : Grown (nodes.foldl SyntaxTree.attach t) := by
  induction nodes generalizing t with
  | nil => exact h
  | cons node nodes ih =>
    simp only [fit, Bool.and_eq_true, decide_eq_true_eq, List.isEmpty_iff] at hfit
    obtain ⟨⟨⟨hrange, hparent⟩, hchildren⟩, hrest⟩ := hfit
    have hnode : t.grow node = .ok (t.attach node) := by
      have hsame : { node with children := [] } = node := by rw [← hchildren]
      rw [grow_eq_attach hrange.1 hrange.2, hsame]
      intro parent hsome
      simpa [hsome] using hparent
    refine ih (h.grow hnode) ?_
    rw [t.size_attach]
    exact hrest

/-- A table in which every node stands behind its parent and is known to it. -/
structure WellFormed (t : SyntaxTree) : Prop where
  range_le : ∀ i < t.size, (t.range i).1 ≤ (t.range i).2 ∧ (t.range i).2 ≤ t.sourceSize
  parent_lt : ∀ i parent, t.parent? i = some parent → parent < i
  children_eq : ∀ i, t.children i =
    (List.range t.size).filter fun child => t.parent? child = some i

/-- What is accepted has its range in the source and a parent in the table. -/
theorem exists_attach_of_grow {t t' : SyntaxTree} {node : SyntaxNode} (h : t.grow node = .ok t') :
    node.start ≤ node.stop ∧ node.stop ≤ t.sourceSize ∧
      (∀ parent, node.parent = some parent → parent < t.size) ∧
      t' = t.attach { node with children := [] } := by
  unfold grow at h
  split at h
  · cases h
  · rename_i hrange
    refine ⟨by omega, by omega, ?_⟩
    split at h
    · rename_i parent hparent
      split at h
      · rename_i hlt
        refine ⟨fun other hother => ?_, (Except.ok.inj h).symm⟩
        rw [← Option.some.inj (hparent.symm.trans hother)]
        exact hlt
      · cases h
    · rename_i hparent
      refine ⟨fun other hother => ?_, (Except.ok.inj h).symm⟩
      cases hparent.symm.trans hother

theorem wellFormed_start (source : String) : WellFormed { source := source } where
  range_le := fun i hi => absurd hi (Nat.not_lt_zero i)
  parent_lt := fun i parent hparent => by simp [parent?, node?] at hparent
  children_eq := fun i => by simp [children, node?, size]

theorem WellFormed.attach {t : SyntaxTree} (h : WellFormed t) {node : SyntaxNode}
    (hstart : node.start ≤ node.stop) (hstop : node.stop ≤ t.sourceSize)
    (hparent : ∀ parent, node.parent = some parent → parent < t.size)
    (hchildren : node.children = []) : WellFormed (t.attach node) where
  range_le := by
    intro i hi
    rw [range_attach]
    rw [size_attach] at hi
    by_cases heq : i = t.size
    · rw [if_pos heq]
      exact ⟨hstart, hstop⟩
    · rw [if_neg heq]
      exact h.range_le i (by omega)
  parent_lt := by
    intro i parent hi
    rw [parent?_attach] at hi
    split at hi
    · rename_i heq
      rw [heq]
      exact hparent parent hi
    · exact h.parent_lt i parent hi
  children_eq := by
    intro i
    -- The listing of the table gains the new node at its end.
    have hlisted : ((List.range (t.attach node).size).filter fun child =>
        (t.attach node).parent? child = some i) =
        ((List.range t.size).filter fun child => t.parent? child = some i) ++
          if node.parent = some i then [t.size] else [] := by
      rw [size_attach, List.range_succ, List.filter_append]
      congr 1
      · refine List.filter_congr fun child hchild => ?_
        rw [parent?_attach, if_neg (Nat.ne_of_lt (List.mem_range.mp hchild))]
      · by_cases hnode : node.parent = some i
        · simp [parent?_attach, hnode]
        · simp [parent?_attach, hnode]
    rw [hlisted, ← h.children_eq]
    rcases Nat.lt_trichotomy i t.size with hlt | rfl | hgt
    · exact t.children_attach node hlt
    · have hnone : t.children t.size = [] := by
        simp [children, (t.node?_eq_none).mpr (Nat.le_refl _)]
      have hself : node.parent ≠ some t.size := fun hself =>
        Nat.lt_irrefl _ (hparent t.size hself)
      rw [children_attach_size, hchildren, hnone, if_neg hself, List.append_nil]
    · have hnone : (t.attach node).children i = [] := by
        have hsize : (t.attach node).size ≤ i := by rw [size_attach]; omega
        simp [children, ((t.attach node).node?_eq_none).mpr hsize]
      have hnone' : t.children i = [] := by
        simp [children, (t.node?_eq_none).mpr (Nat.le_of_lt hgt)]
      have hself : node.parent ≠ some i := fun hself =>
        Nat.lt_asymm hgt (hparent i hself)
      rw [hnone, hnone', if_neg hself, List.append_nil]

theorem WellFormed.grow {t t' : SyntaxTree} (h : WellFormed t) {node : SyntaxNode}
    (hnode : t.grow node = .ok t') : WellFormed t' := by
  obtain ⟨hstart, hstop, hparent, rfl⟩ := exists_attach_of_grow hnode
  exact h.attach hstart hstop hparent rfl

/-- **Every grown tree is well formed.** -/
theorem Grown.wellFormed {t : SyntaxTree} (h : Grown t) : WellFormed t := by
  induction h with
  | start source => exact wellFormed_start source
  | grow _ hnode ih => exact ih.grow hnode

/-! ## Nodes of the table -/

section

variable {t : SyntaxTree} {i j : NodeId} {nodes : List NodeId}

theorem lt_size_of_kind (h : t.kind i ≠ "") : i < t.size := by
  refine Nat.not_le.mp fun hsize => h ?_
  rw [kind, (t.node?_eq_none).mpr hsize]
  rfl

theorem lt_size_of_isNamed (h : t.isNamed i = true) : i < t.size := by
  refine Nat.not_le.mp fun hsize => ?_
  rw [isNamed, (t.node?_eq_none).mpr hsize] at h
  cases h

theorem lt_size_of_field? {field : String} (h : t.field? i = some field) : i < t.size := by
  refine Nat.not_le.mp fun hsize => ?_
  rw [field?, (t.node?_eq_none).mpr hsize] at h
  cases h

theorem lt_size_of_mem_namedChildren (h : j ∈ t.namedChildren i) : j < t.size :=
  lt_size_of_isNamed (List.mem_filter.mp h).2

theorem lt_size_of_mem_childrenInField {field : String} (h : j ∈ t.childrenInField i field) :
    j < t.size :=
  lt_size_of_field? (eq_of_beq (List.mem_filter.mp h).2)

theorem lt_size_of_childInField? {field : String} (h : t.childInField? i field = some j) :
    j < t.size := by
  have hj := List.find?_some h
  exact lt_size_of_field? (eq_of_beq hj)

/-- Whatever is picked by its kind is in the table. -/
theorem lt_size_of_mem_filter {kind : String} (hkind : kind ≠ "")
    (h : j ∈ nodes.filter fun node => t.kind node == kind) : j < t.size := by
  have hj : t.kind j = kind := eq_of_beq (List.mem_filter.mp h).2
  exact lt_size_of_kind (hj ▸ hkind)

theorem lt_size_of_childOfKind? {kind : String} (hkind : kind ≠ "")
    (h : t.childOfKind? i kind = some j) : j < t.size := by
  have hj := List.find?_some h
  exact lt_size_of_kind (eq_of_beq hj ▸ hkind)

end

/-! ## Going down -/

namespace WellFormed

variable {t : SyntaxTree} (h : WellFormed t)

include h

/-- A node does not end before it starts. -/
theorem startPoint_le_stopPoint (i : NodeId) : t.startPoint i ≤ t.stopPoint i := by
  refine t.pointAt_mono ?_
  by_cases hi : i < t.size
  · exact (h.range_le i hi).1
  · have hnone := (t.node?_eq_none).mpr (Nat.not_lt.mp hi)
    simp [range, hnone]

theorem mem_children {i child : NodeId} :
    child ∈ t.children i ↔ child < t.size ∧ t.parent? child = some i := by
  rw [h.children_eq, List.mem_filter, List.mem_range, decide_eq_true_eq]

theorem lt_of_mem_children {i child : NodeId} (hchild : child ∈ t.children i) :
    i < child ∧ child < t.size := by
  obtain ⟨hsize, hparent⟩ := h.mem_children.mp hchild
  exact ⟨h.parent_lt child i hparent, hsize⟩

end WellFormed

end SyntaxTree

end Refactor
