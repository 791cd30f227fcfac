import Mathlib.Data.Finset.Card
import Mathlib.Data.Finset.Range
import Refactor.Proofs.Arena

/-!
# Listing the nodes below a node

A worklist is listed by taking its first node and putting the node's children before the rest.
`Listing` says so without counting steps, so a worklist that has a listing is worked off at some
time. In a well-formed tree the number of nodes is a sufficient number of steps
(`WellFormed.listing_taken`).

The reason is that no node is taken twice. The nodes of a worklist stay apart: none of them lies
below another. What is left to take are the nodes below the worklist, and each step takes one away.
-/

namespace Refactor.SyntaxTree

/-- What working off a worklist gives, however many steps it takes. -/
inductive Listing (t : SyntaxTree) (enter : NodeId → Bool) : List NodeId → List NodeId → Prop
  | done : Listing t enter [] []
  | take {i : NodeId} {rest listed : List NodeId} (hi : enter i = true)
      (h : Listing t enter (t.children i ++ rest) listed) :
    Listing t enter (i :: rest) (i :: listed)
  | drop {i : NodeId} {rest listed : List NodeId} (hi : enter i = false)
      (h : Listing t enter rest listed) :
    Listing t enter (i :: rest) listed

/-! ## Below a node -/

/-- Climbing from `j` leads to `i`. -/
inductive Under (t : SyntaxTree) (i : NodeId) : NodeId → Prop
  | self : Under t i i
  | step {j parent : NodeId} (hparent : t.parent? j = some parent) (h : Under t i parent) :
    Under t i j

theorem Under.trans {t : SyntaxTree} {a b j : NodeId} (hab : Under t a b) (hb : Under t b j) :
    Under t a j := by
  induction hb with
  | self => exact hab
  | step hparent _ ih => exact .step hparent ih

/-- No node of the worklist lies below another one. -/
def Apart (t : SyntaxTree) (worklist : List NodeId) : Prop :=
  worklist.Pairwise fun a b => ¬ Under t a b ∧ ¬ Under t b a

open Classical in
/-- What is left to take: the nodes below the worklist. -/
noncomputable def remaining (t : SyntaxTree) (worklist : List NodeId) : Finset NodeId :=
  (Finset.range t.size).filter fun j => ∃ i ∈ worklist, Under t i j

theorem mem_remaining {t : SyntaxTree} {worklist : List NodeId} {j : NodeId} :
    j ∈ t.remaining worklist ↔ j < t.size ∧ ∃ i ∈ worklist, Under t i j := by
  simp only [remaining, Finset.mem_filter, Finset.mem_range]

namespace WellFormed

variable {t : SyntaxTree} (h : WellFormed t)

include h

theorem le_of_under {i j : NodeId} (hij : Under t i j) : i ≤ j := by
  induction hij with
  | self => exact Nat.le_refl _
  | step hparent _ ih => exact Nat.le_trans ih (Nat.le_of_lt (h.parent_lt _ _ hparent))

theorem under_of_mem_children {i child : NodeId} (hchild : child ∈ t.children i) :
    Under t i child :=
  .step (h.mem_children.mp hchild).2 .self

/-- What lies above a child and is not the child itself lies above its parent. -/
theorem under_parent {a i child : NodeId} (hchild : child ∈ t.children i)
    (ha : Under t a child) : a = child ∨ Under t a i := by
  cases ha with
  | self => exact .inl rfl
  | step hparent habove =>
    obtain rfl := Option.some.inj (hparent.symm.trans (h.mem_children.mp hchild).2)
    exact .inr habove

theorem apart_children (i : NodeId) : Apart t (t.children i) := by
  have hincreasing : (t.children i).Pairwise (· < ·) := by
    rw [h.children_eq]
    exact List.pairwise_lt_range.filter _
  refine hincreasing.imp_of_mem fun {a b} ha hb hlt => ?_
  have hne : ∀ {c d : NodeId}, c ∈ t.children i → d ∈ t.children i → c ≠ d → ¬ Under t c d := by
    intro c d hc hd hcd hunder
    have habove := (h.under_parent hd hunder).resolve_left hcd
    exact Nat.not_lt.mpr (h.le_of_under habove) (h.lt_of_mem_children hc).1
  exact ⟨hne ha hb (Nat.ne_of_lt hlt), hne hb ha (Nat.ne_of_gt hlt)⟩

/-- The nodes stay apart when the children of the first one take its place. -/
theorem apart_step {i : NodeId} {rest : List NodeId} (hapart : Apart t (i :: rest)) :
    Apart t (t.children i ++ rest) := by
  obtain ⟨hfirst, hrest⟩ := List.pairwise_cons.mp hapart
  refine List.pairwise_append.mpr ⟨h.apart_children i, hrest, fun child hchild other hother => ?_⟩
  obtain ⟨hbelow, habove⟩ := hfirst other hother
  have hunder := h.under_of_mem_children hchild
  refine ⟨fun hother' => hbelow (hunder.trans hother'), fun hother' => ?_⟩
  rcases h.under_parent hchild hother' with rfl | hother'
  · exact hbelow hunder
  · exact habove hother'

/-- Taking the first node leaves fewer nodes to take. -/
theorem card_remaining_lt {i : NodeId} {rest next : List NodeId} (hi : i < t.size)
    (hapart : Apart t (i :: rest)) (hnext : ∀ j ∈ next, j ∈ t.children i ∨ j ∈ rest) :
    (t.remaining next).card < (t.remaining (i :: rest)).card := by
  refine Finset.card_lt_card (Finset.ssubset_iff_of_subset ?_ |>.mpr ⟨i, ?_, ?_⟩)
  · intro j hj
    obtain ⟨hsize, a, ha, hunder⟩ := mem_remaining.mp hj
    refine mem_remaining.mpr ⟨hsize, ?_⟩
    rcases hnext a ha with hchild | hrest
    · exact ⟨i, List.mem_cons_self, (h.under_of_mem_children hchild).trans hunder⟩
    · exact ⟨a, List.mem_cons_of_mem _ hrest, hunder⟩
  · exact mem_remaining.mpr ⟨hi, i, List.mem_cons_self, .self⟩
  · intro hmem
    obtain ⟨-, a, ha, hunder⟩ := mem_remaining.mp hmem
    rcases hnext a ha with hchild | hrest
    · exact Nat.not_lt.mpr (h.le_of_under hunder) (h.lt_of_mem_children hchild).1
    · exact ((List.pairwise_cons.mp hapart).1 a hrest).2 hunder

/-- As many steps as there are nodes left to take suffice. -/
theorem listing_taken_of_card_le (enter : NodeId → Bool) {steps : Nat} {worklist : List NodeId}
    (hsize : ∀ i ∈ worklist, i < t.size) (hapart : Apart t worklist)
    (hsteps : (t.remaining worklist).card ≤ steps) :
    Listing t enter worklist (t.taken enter steps worklist) := by
  induction steps generalizing worklist with
  | zero =>
    cases worklist with
    | nil => exact .done
    | cons i rest =>
      have hmem : i ∈ t.remaining (i :: rest) :=
        mem_remaining.mpr ⟨hsize i List.mem_cons_self, i, List.mem_cons_self, .self⟩
      exact absurd (Finset.card_pos.mpr ⟨i, hmem⟩) (Nat.not_lt.mpr hsteps)
  | succ steps ih =>
    cases worklist with
    | nil => exact .done
    | cons i rest =>
      have hi := hsize i List.mem_cons_self
      rw [taken]
      by_cases henter : enter i = true
      · rw [if_pos henter]
        refine .take henter (ih (fun j hj => ?_) (h.apart_step hapart) ?_)
        · rcases List.mem_append.mp hj with hchild | hrest
          · exact (h.lt_of_mem_children hchild).2
          · exact hsize j (List.mem_cons_of_mem _ hrest)
        · have hless := h.card_remaining_lt hi hapart fun j hj => List.mem_append.mp hj
          omega
      · rw [if_neg henter]
        refine .drop (Bool.eq_false_iff.mpr henter)
          (ih (fun j hj => hsize j (List.mem_cons_of_mem _ hj)) (List.pairwise_cons.mp hapart).2 ?_)
        have hless := h.card_remaining_lt hi hapart fun j hj => .inr hj
        omega

/-- **The number of nodes is a sufficient number of steps.** -/
theorem listing_taken (enter : NodeId → Bool) {i : NodeId} (hi : i < t.size) :
    Listing t enter [i] (t.taken enter t.size [i]) := by
  refine h.listing_taken_of_card_le enter (fun j hj => ?_) (List.pairwise_singleton _ _) ?_
  · rw [List.mem_singleton.mp hj]
    exact hi
  · have hsub : t.remaining [i] ⊆ Finset.range t.size := fun j hj =>
      Finset.mem_range.mpr (mem_remaining.mp hj).1
    exact (Finset.card_le_card hsub).trans_eq (Finset.card_range t.size)

end WellFormed

end Refactor.SyntaxTree
