import Refactor.Proofs.ReadingOrder

/-!
# Offering nodes

A tree is grown by offering it nodes one after the other. A node is taken in if its range lies in
the source and its parent is in the table (`Takes`); any other one is refused. One offer enters the
node at the end of the table (`offer_of_takes`) or leaves the table as it was
(`offer_of_not_takes`), so the table stays a grown one whatever it is offered
(`Grown.offerAll`).

In a grown table a node stands behind its parent, so climbing from parent to parent comes to an end
by itself and not for want of steps (`ancestors_eq`), and it leads to smaller and smaller places
(`ancestors_pairwise`).

**Theorem (`offerAll_keeps`).** After any sequence of offers the table is well formed, points follow
the offsets, the next offer is answered by the next place or changes nothing, and the nodes above a
node are a decreasing chain of parents.
-/

namespace Refactor.SyntaxTree

variable {t : SyntaxTree} {node : SyntaxNode}

/-! ## One offer -/

/-- What a table takes in: a range within the source, and a parent that is in the table. -/
structure Takes (t : SyntaxTree) (node : SyntaxNode) : Prop where
  start_le : node.start ≤ node.stop
  stop_le : node.stop ≤ t.sourceSize
  parent_lt : ∀ parent, node.parent = some parent → parent < t.size

theorem offer_of_takes (h : Takes t node) :
    t.offer node = (t.attach { node with children := [] }, .ok t.size) := by
  unfold offer
  rw [grow_eq_attach h.start_le h.stop_le h.parent_lt]

/-- What is refused leaves the table as it was. -/
theorem offer_of_not_takes (h : ¬ Takes t node) : ∃ e, t.offer node = (t, .error e) := by
  unfold offer
  cases hgrow : t.grow node with
  | ok grown =>
    obtain ⟨hstart, hstop, hparent, -⟩ := exists_attach_of_grow hgrow
    exact absurd ⟨hstart, hstop, hparent⟩ h
  | error e => exact ⟨e, rfl⟩

theorem Grown.offer (h : Grown t) (node : SyntaxNode) : Grown (t.offer node).1 := by
  unfold SyntaxTree.offer
  cases hgrow : t.grow node with
  | ok grown => exact h.grow hgrow
  | error e => exact h

theorem source_offer (t : SyntaxTree) (node : SyntaxNode) : (t.offer node).1.source = t.source := by
  by_cases h : Takes t node
  · rw [offer_of_takes h]
    rfl
  · obtain ⟨e, he⟩ := offer_of_not_takes h
    rw [he]

/-! ## Many offers -/

/-- The table after the nodes have been offered one after the other. -/
def offerAll (t : SyntaxTree) (nodes : List SyntaxNode) : SyntaxTree :=
  nodes.foldl (fun t node => (t.offer node).1) t

theorem Grown.offerAll (h : Grown t) (nodes : List SyntaxNode) : Grown (t.offerAll nodes) := by
  induction nodes generalizing t with
  | nil => exact h
  | cons node nodes ih => exact ih (h.offer node)

theorem source_offerAll (t : SyntaxTree) (nodes : List SyntaxNode) :
    (t.offerAll nodes).source = t.source := by
  induction nodes generalizing t with
  | nil => rfl
  | cons node nodes ih => exact (ih _).trans (t.source_offer node)

/-! ## Climbing -/

namespace WellFormed

variable (h : WellFormed t)

include h

/-- As many steps as there are places before a node lead to the end. -/
theorem climb_succ {steps i : Nat} (hi : i ≤ steps) : t.climb (steps + 1) i = t.climb steps i := by
  induction steps generalizing i with
  | zero =>
    rw [climb, climb]
    cases hparent : t.parent? i with
    | none => rfl
    | some parent =>
      have hlt := Nat.lt_of_lt_of_le (h.parent_lt i parent hparent) hi
      exact absurd hlt (Nat.not_lt_zero parent)
  | succ steps ih =>
    rw [climb, climb]
    cases hparent : t.parent? i with
    | none => rfl
    | some parent =>
      have hlt := Nat.lt_of_lt_of_le (h.parent_lt i parent hparent) hi
      dsimp only
      rw [ih (Nat.le_of_lt_succ hlt)]

/-- The nodes above a node are its parent and the nodes above that. -/
theorem ancestors_eq (i : NodeId) :
    t.ancestors i = (t.parent? i).elim [] fun parent => parent :: t.ancestors parent := by
  unfold ancestors
  cases hsize : t.size with
  | zero =>
    cases hparent : t.parent? i with
    | none => rfl
    | some parent => exact absurd (lt_size_of_parent? hparent) (by simp [hsize])
  | succ steps =>
    rw [climb]
    cases hparent : t.parent? i with
    | none => rfl
    | some parent =>
      have hi : i < steps + 1 := hsize ▸ lt_size_of_parent? hparent
      have hlt := Nat.lt_trans (h.parent_lt i parent hparent) hi
      dsimp only [Option.elim_some]
      rw [h.climb_succ (Nat.le_of_lt_succ hlt)]

theorem ancestors_pairwise (i : NodeId) : (i :: t.ancestors i).Pairwise (· > ·) := by
  induction i using Nat.strongRecOn with
  | ind i ih =>
    rw [h.ancestors_eq]
    cases hparent : t.parent? i with
    | none => exact List.pairwise_singleton _ _
    | some parent =>
      have hlt := h.parent_lt i parent hparent
      have habove := ih parent hlt
      refine List.pairwise_cons.mpr ⟨fun a ha => ?_, habove⟩
      rcases List.mem_cons.mp ha with rfl | ha
      · exact hlt
      · exact Nat.lt_trans ((List.pairwise_cons.mp habove).1 a ha) hlt

end WellFormed

/-! ## What every table keeps -/

/-- **Whatever a table was offered, it is well formed**: parents stand before their children, the
children of a node are the nodes with this parent in the order of the table, and ranges lie in the
source. A later offset has a later point, so no node ends before it starts. The next offer gets the
next place or leaves the table as it is. The nodes above a node are its parent, the parent's parent
and so on, at smaller and smaller places. -/
theorem offerAll_keeps (source : String) (nodes : List SyntaxNode) :
    let t := offerAll { source := source } nodes
    t.source = source ∧ WellFormed t ∧
    (∀ m n, m ≤ n → t.pointAt m ≤ t.pointAt n) ∧
    (∀ i, t.startPoint i ≤ t.stopPoint i) ∧
    (∀ node, Takes t node → (t.offer node).2 = .ok t.size ∧ (t.offer node).1.size = t.size + 1 ∧
      (t.offer node).1.node? t.size = some { node with children := [] }) ∧
    (∀ node, ¬ Takes t node → ∃ e, t.offer node = (t, .error e)) ∧
    ∀ i, t.ancestors i = ((t.parent? i).elim [] fun parent => parent :: t.ancestors parent) ∧
      (i :: t.ancestors i).Pairwise (· > ·) := by
  intro t
  have hformed : WellFormed t := ((Grown.start source).offerAll nodes).wellFormed
  refine ⟨source_offerAll _ nodes, hformed, fun m n hmn => t.pointAt_mono hmn,
    hformed.startPoint_le_stopPoint, fun node hnode => ?_, fun node hnode => ?_, fun i => ?_⟩
  · rw [offer_of_takes hnode]
    refine ⟨rfl, t.size_attach _, ?_⟩
    rw [t.node?_attach, if_pos rfl]
  · exact offer_of_not_takes hnode
  · exact ⟨hformed.ancestors_eq i, hformed.ancestors_pairwise i⟩

/-- Nodes over `f(é)` and `x` on the next line. The second one ends behind the source, and the
fourth hangs on a node that is not there. -/
def offeredNodes : List SyntaxNode :=
  [nodeOf "module" none 0 7 none,
    nodeOf "call" none 0 9 (some 0),
    nodeOf "call" none 0 5 (some 0),
    nodeOf "name" none 0 1 (some 7),
    nodeOf "name" none 2 4 (some 1),
    nodeOf "name" none 6 7 (some 0)]

/-- Two of six nodes are refused, one for its range and one for its parent. -/
theorem offerAll_keeps_refused :
    let t := offerAll { source := "f(é)\nx" } offeredNodes
    let fitting := nodeOf "tail" none 7 7 (some 3)
    let orphan := nodeOf "tail" none 7 7 (some 4)
    t.size = 4 ∧ t.children 0 = [1, 3] ∧ t.ancestors 2 = [1, 0] ∧ WellFormed t ∧
      (3 ≤ 6 ∧ t.pointAt 3 ≤ t.pointAt 6) ∧
      (Takes t fitting ∧ (t.offer fitting).1.node? 4 = some fitting) ∧
      (¬ Takes t orphan ∧ ∃ e, t.offer orphan = (t, .error e)) ∧
      (2 :: t.ancestors 2).Pairwise (· > ·) := by
  intro t fitting orphan
  obtain ⟨-, hformed, hpoints, -, htaken, hrefused, hancestors⟩ :=
    offerAll_keeps "f(é)\nx" offeredNodes
  have hsize : t.size = 4 := by decide +kernel
  have htakes : Takes t fitting := by
    refine ⟨by decide, by decide +kernel, fun parent hparent => ?_⟩
    rw [hsize, ← Option.some.inj hparent]
    decide
  have hnot : ¬ Takes t orphan := by
    intro h
    exact absurd (hsize ▸ h.parent_lt 4 rfl) (by decide)
  refine ⟨hsize, by decide +kernel, by decide +kernel, hformed,
    ⟨by decide, hpoints 3 6 (by decide)⟩, ⟨htakes, ?_⟩, ⟨hnot, hrefused _ hnot⟩, (hancestors 2).2⟩
  rw [← hsize]
  exact (htaken _ htakes).2.2

end Refactor.SyntaxTree
