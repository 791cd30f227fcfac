import Refactor.Proofs.FileModels
import Refactor.Proofs.ReadingOrder

/-!
# Searching below a node

What lies below a node is searched with a worklist. Three searches are made: for the first node of
a kind, for all nodes of a kind, and for those that no barrier hides. Here they are compared with
the order in which a tree is read, given by recursion: a node, then what is below its first child,
and so on (`preorder`).

- `preorder_eq_below`: the worklist takes the nodes in that order.
- `Search`: the search for one node, which ends at the first match. It ends wherever the listing of
  the worklist ends, and finds the first match of the listing (`Listing.search`).
- `taken_eq_filter`: a worklist that refuses nodes takes those to which every step down is allowed
  (`Reached`).

**Theorem (`descendants_follow_preorder`).** In a tree that was built the searches come to an end,
list no node twice, and give the nodes of the kind in preorder: the first of them, all of them, and
all but the barriers below the start with everything below them.
-/

namespace Refactor.SyntaxTree

/-- The node before everything below it, to a depth. -/
def preorderTo (t : SyntaxTree) : Nat → NodeId → List NodeId
  | 0, _ => []
  | depth + 1, i => i :: (t.children i).flatMap (t.preorderTo depth)

/-- The node and everything below it, in the order in which nodes begin. -/
def preorder (t : SyntaxTree) (i : NodeId) : List NodeId :=
  t.preorderTo t.size i

/-- Whether a node is, or stands below, a barrier below the start. -/
def isHidden (t : SyntaxTree) (start : NodeId) (barriers : List String) (i : NodeId) : Bool :=
  (t.preorder start).tail.any fun barrier =>
    barriers.contains (t.kind barrier) && (t.preorder barrier).contains i

variable {t : SyntaxTree}

/-! ## The first match -/

/-- What looking for a match along a worklist gives. -/
inductive Search (t : SyntaxTree) (isMatch : NodeId → Bool) : List NodeId → Option NodeId → Prop
  | exhausted : Search t isMatch [] none
  | found {i : NodeId} {rest : List NodeId} (hi : isMatch i = true) :
    Search t isMatch (i :: rest) (some i)
  | next {i : NodeId} {rest : List NodeId} {result : Option NodeId} (hi : isMatch i = false)
      (h : Search t isMatch (t.children i ++ rest) result) :
    Search t isMatch (i :: rest) result

/-- A search ends where the worklist is worked off, or before. -/
theorem Listing.search {worklist listed : List NodeId}
    (h : Listing t (fun _ => true) worklist listed) (isMatch : NodeId → Bool) :
    Search t isMatch worklist (listed.find? isMatch) := by
  induction h with
  | done => exact .exhausted
  | @take i rest listed _ _ ih =>
    by_cases hi : isMatch i = true
    · rw [List.find?_cons_of_pos hi]
      exact .found hi
    · rw [List.find?_cons_of_neg hi]
      exact .next (Bool.eq_false_iff.mpr hi) ih
  | drop hi => cases hi

/-! ## Worklists that refuse nodes -/

theorem lt_size_of_under {i j : NodeId} (hi : i < t.size) (hij : Under t i j) : j < t.size := by
  cases hij with
  | self => exact hi
  | step hparent => exact lt_size_of_parent? hparent

/-- On the way down from `start` to `i` no node is refused. -/
def Reached (t : SyntaxTree) (enter : NodeId → Bool) (start i : NodeId) : Prop :=
  ∀ j, Under t start j → Under t j i → enter j = true

namespace WellFormed

variable (h : WellFormed t)

include h

theorem under_antisymm {i j : NodeId} (hij : Under t i j) (hji : Under t j i) : i = j :=
  Nat.le_antisymm (h.le_of_under hij) (h.le_of_under hji)

theorem preorderTo_eq_below {depth i : Nat} (hi : i < t.size) (hdepth : t.size ≤ depth + i) :
    t.preorderTo depth i = t.below i := by
  induction depth generalizing i with
  | zero => omega
  | succ depth ih =>
    rw [preorderTo, h.below_eq hi]
    congr 1
    refine List.flatMap_congr fun (j : Nat) hj => ?_
    have hbehind : i < j ∧ j < t.size := h.lt_of_mem_children hj
    exact ih hbehind.2 (by omega)

/-- **The worklist takes nodes in preorder.** -/
theorem preorder_eq_below {i : NodeId} (hi : i < t.size) : t.preorder i = t.below i :=
  h.preorderTo_eq_below hi (Nat.le_add_right _ _)

theorem preorder_eq {i : NodeId} (hi : i < t.size) :
    t.preorder i = i :: (t.children i).flatMap t.preorder := by
  rw [h.preorder_eq_below hi, h.below_eq hi]
  congr 1
  refine List.flatMap_congr fun j hj => ?_
  rw [h.preorder_eq_below (h.lt_of_mem_children hj).2]

/-- A node below a child is reached from the parent if it is reached from the child. -/
theorem reached_child {enter : NodeId → Bool} {i child j : NodeId} (hi : enter i = true)
    (hchild : child ∈ t.children i) (hj : Under t child j) :
    Reached t enter i j ↔ Reached t enter child j := by
  have hbelow := h.under_of_mem_children hchild
  constructor
  · intro hreached b hb hbj
    exact hreached b (hbelow.trans hb) hbj
  · intro hreached b hib hbj
    -- On the way from the parent the first node is the parent, and all others are below the child.
    rcases under_or_under hbj hj with hb | hb
    · rcases h.under_parent hchild hb with rfl | hbi
      · exact hreached b .self hbj
      · rwa [← h.under_antisymm hib hbi]
    · exact hreached b hb hbj

open Classical in
/-- **A worklist takes the nodes that it can reach**, in preorder. -/
theorem taken_eq_filter (enter : NodeId → Bool) {i : NodeId} (hi : i < t.size) :
    t.taken enter t.size [i] = (t.below i).filter fun j => Reached t enter i j := by
  refine h.children_induction (P := fun i => t.taken enter t.size [i] =
    (t.below i).filter fun j => Reached t enter i j) (fun i hi ih => ?_) hi
  rw [h.taken_eq enter hi]
  by_cases henter : enter i = true
  · have hself : Reached t enter i i := by
      intro b hib hbi
      rwa [← h.under_antisymm hib hbi]
    rw [if_pos henter, h.below_eq hi, List.filter_cons_of_pos (by simpa using hself),
      List.filter_flatMap]
    congr 1
    refine List.flatMap_congr fun child hchild => ?_
    rw [ih child hchild]
    refine List.filter_congr fun j hj => ?_
    have hunder := (h.mem_below (h.lt_of_mem_children hchild).2).mp hj
    simp only [h.reached_child henter hchild hunder]
  · rw [if_neg henter, eq_comm, List.filter_eq_nil_iff]
    intro j hj hreached
    exact henter (of_decide_eq_true hreached i .self ((h.mem_below hi).mp hj))

/-! ## Barriers -/

/-- What comes behind a node in preorder is what lies below it. -/
theorem mem_tail_preorder {i j : NodeId} (hi : i < t.size) :
    j ∈ (t.preorder i).tail ↔ Under t i j ∧ j ≠ i := by
  have hnodup := h.nodup_below hi
  rw [← h.preorder_eq_below hi, h.preorder_eq hi, List.nodup_cons] at hnodup
  have hmem : j ∈ t.preorder i ↔ Under t i j := by rw [h.preorder_eq_below hi, h.mem_below hi]
  rw [h.preorder_eq hi, List.mem_cons] at hmem
  rw [h.preorder_eq hi, List.tail_cons, ← hmem]
  constructor
  · intro hj
    exact ⟨.inr hj, fun heq => hnodup.1 (heq ▸ hj)⟩
  · rintro ⟨rfl | hj, hne⟩
    · exact absurd rfl hne
    · exact hj

theorem isHidden_iff {start i : NodeId} {barriers : List String} (hstart : start < t.size) :
    t.isHidden start barriers i = true ↔
      ∃ b, (Under t start b ∧ b ≠ start) ∧ t.kind b ∈ barriers ∧ Under t b i := by
  have hmem : ∀ b, Under t start b → (i ∈ t.preorder b ↔ Under t b i) := by
    intro b hb
    have hsize := lt_size_of_under hstart hb
    rw [h.preorder_eq_below hsize, h.mem_below hsize]
  simp only [isHidden, List.any_eq_true, h.mem_tail_preorder hstart, Bool.and_eq_true,
    List.contains_iff_mem]
  constructor
  · rintro ⟨b, hb, hkind, hi⟩
    exact ⟨b, hb, hkind, (hmem b hb.1).mp hi⟩
  · rintro ⟨b, hb, hkind, hi⟩
    exact ⟨b, hb, hkind, (hmem b hb.1).mpr hi⟩

/-- A node is reached past the barriers just if none hides it. -/
theorem reached_iff_not_isHidden {start i : NodeId} {barriers : List String}
    (hstart : start < t.size) :
    Reached t (fun j => j == start || !barriers.contains (t.kind j)) start i ↔
      t.isHidden start barriers i = false := by
  rw [Bool.eq_false_iff, Ne, h.isHidden_iff hstart]
  constructor
  · rintro hreached ⟨b, ⟨hb, hne⟩, hkind, hi⟩
    have henter := hreached b hb hi
    simp [hne, hkind] at henter
  · intro hnone b hb hi
    by_cases hne : b = start
    · simp [hne]
    · have hkind : t.kind b ∉ barriers := fun hkind => hnone ⟨b, ⟨hb, hne⟩, hkind, hi⟩
      simp [hkind]

open Classical in
theorem belowWithin_eq_filter {start : NodeId} (hstart : start < t.size) (barriers : List String) :
    t.belowWithin start barriers =
      (t.preorder start).filter fun i => !t.isHidden start barriers i := by
  rw [belowWithin, h.taken_eq_filter _ hstart, h.preorder_eq_below hstart]
  refine List.filter_congr fun i _ => ?_
  rw [Bool.eq_iff_iff, decide_eq_true_iff, h.reached_iff_not_isHidden hstart, Bool.not_eq_true']

end WellFormed

/-! ## The three searches -/

/-- **Searches follow the preorder.** The nodes of a kind below a node are those of its preorder,
the first one is the first of these, and barriers hide themselves and everything below them. Each
search comes to an end, and no node is listed twice. -/
theorem descendants_follow_preorder (h : Built t) {i : NodeId} (hi : i < t.size) (kind : String)
    (barriers : List String) :
    t.preorder i = i :: (t.children i).flatMap t.preorder ∧
    t.descendants i kind = (t.preorder i).filter (fun j => t.kind j == kind) ∧
    t.firstDescendant? i kind = ((t.preorder i).filter fun j => t.kind j == kind).head? ∧
    t.descendantsWithin i kind barriers =
      (t.preorder i).filter (fun j => t.kind j == kind && !t.isHidden i barriers j) ∧
    Listing t (fun _ => true) [i] (t.below i) ∧
    Search t (fun j => t.kind j == kind) [i] (t.firstDescendant? i kind) ∧
    Listing t (fun j => j == i || !barriers.contains (t.kind j)) [i] (t.belowWithin i barriers) ∧
    (t.descendants i kind).Nodup ∧ (t.descendantsWithin i kind barriers).Nodup := by
  have hformed := h.wellFormed
  have hlisting := hformed.listing_taken (fun _ => true) hi
  have hnodup : (t.preorder i).Nodup := hformed.preorder_eq_below hi ▸ hformed.nodup_below hi
  have hall : t.descendants i kind = (t.preorder i).filter fun j => t.kind j == kind := by
    rw [descendants, hformed.preorder_eq_below hi]
  have hwithin : t.descendantsWithin i kind barriers =
      (t.preorder i).filter fun j => t.kind j == kind && !t.isHidden i barriers j := by
    rw [descendantsWithin, hformed.belowWithin_eq_filter hi, List.filter_filter]
  refine ⟨hformed.preorder_eq hi, hall, ?_, hwithin, hlisting, hlisting.search _,
    hformed.listing_taken _ hi, ?_, ?_⟩
  · rw [firstDescendant?, hformed.preorder_eq_below hi, List.head?_filter]
  · rw [hall]
    exact hnodup.filter _
  · rw [hwithin]
    exact hnodup.filter _

/-- A call with two arguments and a name behind it. The call's own name comes last in the table and
one comment hangs nowhere. -/
def lateName : SyntaxTree :=
  [nodeOf "module" none 0 10 none,
    nodeOf "call" none 0 8 (some 0),
    nodeOf "arguments" none 2 8 (some 1),
    nodeOf "comment" none 9 9 none,
    nodeOf "name" none 9 10 (some 0),
    nodeOf "name" none 3 4 (some 2),
    nodeOf "name" none 6 7 (some 2),
    nodeOf "name" none 0 2 (some 1)].foldl SyntaxTree.attach { source := "ff(a, b)\nx" }

theorem descendants_follow_preorder_lateName :
    lateName.Built ∧ 0 < lateName.size ∧ lateName.preorder 0 = [0, 1, 2, 5, 6, 7, 4] ∧
      lateName.descendants 0 "name" = [5, 6, 7, 4] ∧
      lateName.descendants 0 "name" =
        (lateName.preorder 0).filter (fun j => lateName.kind j == "name") ∧
      lateName.descendantsWithin 0 "name" ["arguments"] = [7, 4] ∧
      lateName.descendantsWithin 0 "name" ["arguments"] = (lateName.preorder 0).filter (fun j =>
        lateName.kind j == "name" && !lateName.isHidden 0 ["arguments"] j) ∧
      Search lateName (fun j => lateName.kind j == "name") [0]
        (lateName.firstDescendant? 0 "name") := by
  have hbuilt : lateName.Built := built_attachAll (by decide +kernel) (by decide +kernel)
  have hroot : 0 < lateName.size := hbuilt.root_lt_size
  obtain ⟨-, hall, -, hwithin, -, hsearch, -⟩ :=
    descendants_follow_preorder hbuilt hroot "name" ["arguments"]
  exact ⟨hbuilt, hroot, by decide +kernel, by decide +kernel, hall, by decide +kernel, hwithin,
    hsearch⟩

end Refactor.SyntaxTree
