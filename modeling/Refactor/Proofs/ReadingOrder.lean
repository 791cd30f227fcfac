import Mathlib.Data.List.Nodup
import Refactor.Proofs.Listing

/-!
# Reading order and closing order

In a well-formed tree the nodes below a node are listed in reading order: the node, then child by
child what is below each of them (`below_eq`). These are the nodes from which climbing leads to it
(`mem_below`), each of them once (`nodup_below`).

The same nodes in the order in which they come to an end are `closing`: child by child what is below
each of them, then the node itself (`closing_eq`).
-/

namespace Refactor.SyntaxTree

/-- The node behind everything below it, to a depth. -/
def closingTo (t : SyntaxTree) : Nat → NodeId → List NodeId
  | 0, _ => []
  | depth + 1, i => (t.children i).flatMap (t.closingTo depth) ++ [i]

/-- The node and everything below it, in the order in which nodes come to an end. -/
def closing (t : SyntaxTree) (i : NodeId) : List NodeId :=
  t.closingTo t.size i

variable {t : SyntaxTree}

/-! ## Listings -/

namespace Listing

variable {enter : NodeId → Bool} {worklist others listed listed' : List NodeId}

/-- Worklists are worked off one after the other. -/
theorem append (h : Listing t enter worklist listed) (h' : Listing t enter others listed') :
    Listing t enter (worklist ++ others) (listed ++ listed') := by
  induction h with
  | done => exact h'
  | take hi _ ih =>
    rw [List.append_assoc] at ih
    exact .take hi ih
  | drop hi _ ih => exact .drop hi ih

theorem unique (h : Listing t enter worklist listed) (h' : Listing t enter worklist listed') :
    listed = listed' := by
  induction h generalizing listed' with
  | done =>
    cases h'
    rfl
  | take hi _ ih =>
    cases h' with
    | take _ hrest => rw [ih hrest]
    | drop hnot _ =>
      rw [hi] at hnot
      cases hnot
  | drop hi _ ih =>
    cases h' with
    | take htake _ =>
      rw [hi] at htake
      cases htake
    | drop _ hrest => exact ih hrest

end Listing

/-! ## Climbing -/

theorem lt_size_of_parent? {i parent : NodeId} (h : t.parent? i = some parent) : i < t.size := by
  refine Nat.not_le.mp fun hsize => ?_
  rw [parent?, (t.node?_eq_none).mpr hsize] at h
  cases h

/-- Of two nodes above the same one, one is above the other. -/
theorem under_or_under {a b j : NodeId} (ha : Under t a j) (hb : Under t b j) :
    Under t a b ∨ Under t b a := by
  induction ha with
  | self => exact .inr hb
  | step hparent ha ih =>
    cases hb with
    | self => exact .inl (.step hparent ha)
    | step hparent' hb =>
      obtain rfl := Option.some.inj (hparent.symm.trans hparent')
      exact ih hb

namespace WellFormed

variable (h : WellFormed t)

include h

/-- Climbing to a node passes through one of its children. -/
theorem exists_child_of_under {i j : NodeId} (hij : Under t i j) :
    j = i ∨ ∃ a ∈ t.children i, Under t a j := by
  induction hij with
  | self => exact .inl rfl
  | step hparent _ ih =>
    rcases ih with rfl | ⟨a, ha, hunder⟩
    · exact .inr ⟨_, h.mem_children.mpr ⟨lt_size_of_parent? hparent, hparent⟩, .self⟩
    · exact .inr ⟨a, ha, .step hparent hunder⟩

/-- What passes from children to their parent holds of every node. -/
theorem children_induction {P : NodeId → Prop}
    (hstep : ∀ i < t.size, (∀ j ∈ t.children i, P j) → P i) {i : Nat} (hi : i < t.size) : P i := by
  induction hrest : t.size - i using Nat.strongRecOn generalizing i with
  | ind rest ih =>
    refine hstep i hi fun (j : Nat) hj => ?_
    have hbehind : i < j ∧ j < t.size := h.lt_of_mem_children hj
    exact ih (t.size - j) (by omega) hbehind.2 rfl

/-! ## Reading order -/

theorem listing_flatMap (enter : NodeId → Bool) {nodes : List NodeId}
    (hnodes : ∀ i ∈ nodes, i < t.size) :
    Listing t enter nodes (nodes.flatMap fun i => t.taken enter t.size [i]) := by
  induction nodes with
  | nil => exact .done
  | cons i nodes ih =>
    rw [List.forall_mem_cons] at hnodes
    exact (h.listing_taken enter hnodes.1).append (ih hnodes.2)

/-- Of a node that is refused nothing is taken. Otherwise the node is taken first, then child by
child what is taken of each of them. -/
theorem taken_eq (enter : NodeId → Bool) {i : NodeId} (hi : i < t.size) :
    t.taken enter t.size [i] =
      if enter i then i :: (t.children i).flatMap fun j => t.taken enter t.size [j] else [] := by
  refine (h.listing_taken enter hi).unique ?_
  by_cases henter : enter i = true
  · rw [if_pos henter]
    refine .take henter ?_
    rw [List.append_nil]
    exact h.listing_flatMap enter fun j hj => (h.lt_of_mem_children hj).2
  · rw [if_neg henter]
    exact .drop (Bool.eq_false_iff.mpr henter) .done

/-- **A node is read first, then child by child what is below each of them.** -/
theorem below_eq {i : NodeId} (hi : i < t.size) :
    t.below i = i :: (t.children i).flatMap t.below :=
  h.taken_eq (fun _ => true) hi

theorem mem_below {i j : NodeId} (hi : i < t.size) : j ∈ t.below i ↔ Under t i j := by
  refine h.children_induction (P := fun i => j ∈ t.below i ↔ Under t i j) (fun i hi ih => ?_) hi
  rw [h.below_eq hi, List.mem_cons, List.mem_flatMap]
  constructor
  · rintro (rfl | ⟨a, ha, hj⟩)
    · exact .self
    · exact (h.under_of_mem_children ha).trans ((ih a ha).mp hj)
  · intro hunder
    rcases h.exists_child_of_under hunder with rfl | ⟨a, ha, hunder⟩
    · exact .inl rfl
    · exact .inr ⟨a, ha, (ih a ha).mpr hunder⟩

theorem nodup_below {i : NodeId} (hi : i < t.size) : (t.below i).Nodup := by
  refine h.children_induction (P := fun i => (t.below i).Nodup) (fun i hi ih => ?_) hi
  have hmem : ∀ {a j : NodeId}, a ∈ t.children i → j ∈ t.below a → Under t a j := fun ha hj =>
    (h.mem_below (h.lt_of_mem_children ha).2).mp hj
  rw [h.below_eq hi, List.nodup_cons, List.nodup_flatMap]
  refine ⟨fun hself => ?_, ih, ?_⟩
  · obtain ⟨a, ha, hi⟩ := List.mem_flatMap.mp hself
    exact Nat.not_lt.mpr (h.le_of_under (hmem ha hi)) (h.lt_of_mem_children ha).1
  · refine (h.apart_children i).imp_of_mem fun {a b} ha hb hapart j hja hjb => ?_
    exact (under_or_under (hmem ha hja) (hmem hb hjb)).elim hapart.1 hapart.2

/-- What is listed below a node is listed within what is below a node above it, in every listing
that goes child by child. -/
theorem sublist_of_under {listing : NodeId → List NodeId}
    (hlisting : ∀ i < t.size, ((t.children i).flatMap listing).Sublist (listing i)) {i j : NodeId}
    (hij : Under t i j) : (listing j).Sublist (listing i) := by
  induction hij with
  | self => exact .refl _
  | @step j parent hparent _ ih =>
    have hj : j ∈ t.children parent := h.mem_children.mpr ⟨lt_size_of_parent? hparent, hparent⟩
    have hbehind := h.lt_of_mem_children hj
    have hchild : (listing j).Sublist ((t.children parent).flatMap listing) :=
      List.sublist_flatten_of_mem (List.mem_map_of_mem hj)
    exact (hchild.trans (hlisting parent (Nat.lt_trans hbehind.1 hbehind.2))).trans ih

theorem below_sublist {i j : NodeId} (hij : Under t i j) : (t.below j).Sublist (t.below i) := by
  refine h.sublist_of_under (fun i hi => ?_) hij
  rw [h.below_eq hi]
  exact List.sublist_cons_self _ _

/-! ## Closing order -/

/-- A depth that reaches the end of the table is deep enough. -/
theorem closingTo_succ {depth i : Nat} (hi : i < t.size) (hdepth : t.size ≤ depth + i) :
    t.closingTo (depth + 1) i = t.closingTo depth i := by
  induction depth generalizing i with
  | zero => omega
  | succ depth ih =>
    rw [closingTo, closingTo]
    congr 1
    refine List.flatMap_congr fun (j : Nat) hj => ?_
    have hbehind : i < j ∧ j < t.size := h.lt_of_mem_children hj
    exact ih hbehind.2 (by omega)

theorem closing_eq {i : Nat} (hi : i < t.size) :
    t.closing i = (t.children i).flatMap t.closing ++ [i] := by
  obtain ⟨depth, hdepth⟩ : ∃ depth, t.size = depth + 1 := ⟨t.size - 1, by omega⟩
  unfold closing
  rw [hdepth, closingTo]
  congr 1
  refine List.flatMap_congr fun (j : Nat) hj => ?_
  have hbehind : i < j ∧ j < t.size := h.lt_of_mem_children hj
  exact (h.closingTo_succ hbehind.2 (by omega)).symm

theorem closing_perm_below {i : NodeId} (hi : i < t.size) : (t.closing i).Perm (t.below i) := by
  refine h.children_induction (P := fun i => (t.closing i).Perm (t.below i)) (fun i hi ih => ?_) hi
  rw [h.closing_eq hi, h.below_eq hi]
  exact List.perm_append_comm.trans ((List.Perm.flatMap_left _ ih).cons i)

theorem mem_closing {i j : NodeId} (hi : i < t.size) : j ∈ t.closing i ↔ Under t i j :=
  (h.closing_perm_below hi).mem_iff.trans (h.mem_below hi)

theorem nodup_closing {i : NodeId} (hi : i < t.size) : (t.closing i).Nodup :=
  (h.closing_perm_below hi).nodup_iff.mpr (h.nodup_below hi)

theorem closing_sublist {i j : NodeId} (hij : Under t i j) :
    (t.closing j).Sublist (t.closing i) := by
  refine h.sublist_of_under (fun i hi => ?_) hij
  rw [h.closing_eq hi]
  exact List.sublist_append_left _ _

/-- A node comes to an end before the nodes above it. -/
theorem pair_sublist_closing {i a b : NodeId} (hia : Under t i a) (ha : a < t.size)
    (hab : Under t a b) (hne : b ≠ a) : [b, a].Sublist (t.closing i) := by
  refine List.Sublist.trans ?_ (h.closing_sublist hia)
  have hb : b ∈ (t.children a).flatMap t.closing := by
    obtain ⟨child, hchild, hunder⟩ := (h.exists_child_of_under hab).resolve_left hne
    exact List.mem_flatMap.mpr ⟨child, hchild,
      (h.mem_closing (h.lt_of_mem_children hchild).2).mpr hunder⟩
  rw [h.closing_eq ha]
  exact (List.singleton_sublist.mpr hb).append (.refl [a])

end WellFormed

end Refactor.SyntaxTree
