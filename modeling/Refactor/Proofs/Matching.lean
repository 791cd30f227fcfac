import Mathlib.Algebra.BigOperators.Group.Finset.Basic
import Mathlib.Data.Multiset.UnionInter
import Refactor.Diff.Alignment

/-!
# Alignments are maximum matchings

A *matching* of two lists pairs positions of equal elements and uses no position twice.

**Theorem (`pairs_matching`, `length_pairs`).** The pairs of an alignment are a matching, and
there are `overlap` many of them: every element counts as often as in the list that has it less
often. No matching has more (`Matching.length_le`).

Two relations say what the steps of the two passes can do, and all facts about the passes are
inductions on them: `Chain` for the walk along a common subsequence, `Picks` for the greedy rest.

The proof does not look at which common subsequence was found. Let `M` be the elements that a
matching takes, and `U`, `V` what it leaves of the two lists, all as multisets, so that the lists
are `U + M` and `V + M`. Going on greedily pairs all of `U ∩ V`, and
`(U ∩ V) + M = (U + M) ∩ (V + M)`.
-/

namespace Refactor.Alignment

variable {α : Type}

/-! ## Matchings -/

/-- Pairs of positions of equal elements, no position in two of them. -/
structure Matching (as bs : List α) (pairs : List (Nat × Nat)) : Prop where
  equal : ∀ pair ∈ pairs, ∃ a, as[pair.1]? = some a ∧ bs[pair.2]? = some a
  left : (pairs.map Prod.fst).Nodup
  right : (pairs.map Prod.snd).Nodup

/-- The elements at the given positions. -/
def elementsAt (items : List α) (positions : List Nat) : List α :=
  positions.filterMap (items[·]?)

/-- All elements of a list, read by their positions. -/
theorem elementsAt_range (items : List α) :
    elementsAt items (List.range items.length) = items := by
  induction items with
  | nil => rfl
  | cons item items ih =>
    unfold elementsAt at ih ⊢
    rw [List.length_cons, List.range_succ_eq_map, List.filterMap_cons_some (by rfl),
      List.filterMap_map]
    exact congrArg (item :: ·) ih

theorem Matching.elementsAt_eq {as bs : List α} {pairs : List (Nat × Nat)}
    (h : Matching as bs pairs) :
    elementsAt as (pairs.map Prod.fst) = elementsAt bs (pairs.map Prod.snd) := by
  unfold elementsAt
  rw [List.filterMap_map, List.filterMap_map]
  refine List.filterMap_congr fun pair hpair => ?_
  obtain ⟨a, ha, hb⟩ := h.equal pair hpair
  simp only [Function.comp_apply, ha, hb]

theorem Matching.length_elementsAt {as bs : List α} {pairs : List (Nat × Nat)}
    (h : Matching as bs pairs) : (elementsAt as (pairs.map Prod.fst)).length = pairs.length := by
  unfold elementsAt
  rw [List.filterMap_map, List.filterMap_length_eq_length]
  intro pair hpair
  obtain ⟨a, ha, -⟩ := h.equal pair hpair
  simp only [Function.comp_apply, ha, Option.isSome_some]

/-! ## What positions take and leave -/

theorem mem_unpaired {positions : List Nat} {items : List α} {item : α × Nat} :
    item ∈ unpaired positions items ↔ items[item.2]? = some item.1 ∧ item.2 ∉ positions := by
  simp [unpaired, List.mem_zipIdx_iff_getElem?]

theorem nodup_zipIdx_positions (items : List α) : (items.zipIdx.map Prod.snd).Nodup := by
  rw [List.zipIdx_map_snd]
  exact List.nodup_range'

theorem nodup_reverse_positions (items : List α) : (items.zipIdx.reverse.map Prod.snd).Nodup := by
  rw [List.map_reverse, List.nodup_reverse]
  exact nodup_zipIdx_positions items

theorem nodup_unpaired_positions (positions : List Nat) (items : List α) :
    ((unpaired positions items).map Prod.snd).Nodup :=
  (nodup_zipIdx_positions items).sublist (List.filter_sublist.map Prod.snd)

/-- The elements at distinct positions, gathered in the order of the list. -/
theorem elementsAt_perm_filter {items : List α} {positions : List Nat} (hnodup : positions.Nodup)
    (hvalid : ∀ i ∈ positions, ∃ a, items[i]? = some a) :
    (elementsAt items positions).Perm
      ((items.zipIdx.filter fun item => positions.contains item.2).map Prod.fst) := by
  set taken := items.zipIdx.filter fun item => positions.contains item.2 with htaken
  have hmem : ∀ item, item ∈ taken ↔ items[item.2]? = some item.1 ∧ item.2 ∈ positions := by
    intro item
    simp [htaken, List.mem_zipIdx_iff_getElem?]
  have hperm : positions.Perm (taken.map Prod.snd) := by
    refine (List.perm_ext_iff_of_nodup hnodup
      ((nodup_zipIdx_positions items).sublist (List.filter_sublist.map Prod.snd))).mpr fun i => ?_
    constructor
    · intro hi
      obtain ⟨a, ha⟩ := hvalid i hi
      exact List.mem_map.mpr ⟨(a, i), (hmem (a, i)).mpr ⟨ha, hi⟩, rfl⟩
    · intro hi
      obtain ⟨item, hitem, rfl⟩ := List.mem_map.mp hi
      exact ((hmem item).mp hitem).2
  have hread : elementsAt items (taken.map Prod.snd) = taken.map Prod.fst := by
    unfold elementsAt
    rw [List.filterMap_map, ← List.filterMap_eq_map]
    exact List.filterMap_congr fun item hitem => ((hmem item).mp hitem).1
  rw [← hread]
  exact hperm.filterMap (items[·]?)

/-- Distinct positions split a list into what they leave and what they take. -/
theorem unpaired_add_elementsAt {items : List α} {positions : List Nat} (hnodup : positions.Nodup)
    (hvalid : ∀ i ∈ positions, ∃ a, items[i]? = some a) :
    (((unpaired positions items).map Prod.fst : List α) : Multiset α) + elementsAt items positions =
      items := by
  have hsplit := (List.filter_append_perm (fun item : α × Nat => positions.contains item.2)
    items.zipIdx).map Prod.fst
  rw [List.map_append, List.zipIdx_map_fst] at hsplit
  rw [Multiset.coe_add, Multiset.coe_eq_coe]
  exact (List.perm_append_comm.trans
    ((elementsAt_perm_filter hnodup hvalid).append_right _)).trans hsplit

/-- Taking an item out of a list of items at distinct positions takes its element out. -/
theorem map_fst_perm_cons_filter {free : List (α × Nat)} (hnodup : (free.map Prod.snd).Nodup)
    {b : α} {j : Nat} (hmem : (b, j) ∈ free) :
    (free.map Prod.fst).Perm (b :: (free.filter fun item => item.2 ≠ j).map Prod.fst) := by
  obtain ⟨before, after, rfl⟩ := List.append_of_mem hmem
  rw [List.map_append, List.map_cons, List.nodup_append] at hnodup
  obtain ⟨-, hafter, hdisjoint⟩ := hnodup
  have hbefore : before.filter (fun item => item.2 ≠ j) = before := by
    refine List.filter_eq_self.mpr fun item hitem => decide_eq_true ?_
    exact hdisjoint item.2 (List.mem_map_of_mem hitem) j List.mem_cons_self
  have hafter' : after.filter (fun item => item.2 ≠ j) = after := by
    refine List.filter_eq_self.mpr fun item hitem => decide_eq_true ?_
    intro heq
    exact (List.nodup_cons.mp hafter).1 (List.mem_map.mpr ⟨item, hitem, heq⟩)
  rw [List.filter_append, List.filter_cons_of_neg (by simp), hbefore, hafter', List.map_append,
    List.map_append, List.map_cons]
  exact List.perm_middle

/-! ## Chains -/

/-- Pairs of positions of equal elements that go forward in both lists of items. -/
inductive Chain : List (α × Nat) → List (α × Nat) → List (Nat × Nat) → Prop
  | stop (as bs : List (α × Nat)) : Chain as bs []
  | take {as bs : List (α × Nat)} {pairs : List (Nat × Nat)} (a : α) (i j : Nat) :
      Chain as bs pairs → Chain ((a, i) :: as) ((a, j) :: bs) ((i, j) :: pairs)
  | skipLeft {as bs : List (α × Nat)} {pairs : List (Nat × Nat)} (item : α × Nat) :
      Chain as bs pairs → Chain (item :: as) bs pairs
  | skipRight {as bs : List (α × Nat)} {pairs : List (Nat × Nat)} (item : α × Nat) :
      Chain as bs pairs → Chain as (item :: bs) pairs

theorem Chain.mem {as bs : List (α × Nat)} {pairs : List (Nat × Nat)} (h : Chain as bs pairs)
    {pair : Nat × Nat} (hpair : pair ∈ pairs) : ∃ a, (a, pair.1) ∈ as ∧ (a, pair.2) ∈ bs := by
  induction h with
  | stop as bs => cases hpair
  | take a i j _ ih =>
    rcases List.mem_cons.mp hpair with rfl | hpair
    · exact ⟨a, List.mem_cons_self, List.mem_cons_self⟩
    · obtain ⟨b, hleft, hright⟩ := ih hpair
      exact ⟨b, List.mem_cons_of_mem _ hleft, List.mem_cons_of_mem _ hright⟩
  | skipLeft item _ ih =>
    obtain ⟨b, hleft, hright⟩ := ih hpair
    exact ⟨b, List.mem_cons_of_mem _ hleft, hright⟩
  | skipRight item _ ih =>
    obtain ⟨b, hleft, hright⟩ := ih hpair
    exact ⟨b, hleft, List.mem_cons_of_mem _ hright⟩

theorem Chain.sublists {as bs : List (α × Nat)} {pairs : List (Nat × Nat)}
    (h : Chain as bs pairs) :
    (pairs.map Prod.fst).Sublist (as.map Prod.snd) ∧
      (pairs.map Prod.snd).Sublist (bs.map Prod.snd) := by
  induction h with
  | stop as bs => exact ⟨List.nil_sublist _, List.nil_sublist _⟩
  | take a i j _ ih => exact ⟨ih.1.cons_cons i, ih.2.cons_cons j⟩
  | skipLeft item _ ih => exact ⟨ih.1.cons item.2, ih.2⟩
  | skipRight item _ ih => exact ⟨ih.1, ih.2.cons item.2⟩

/-! ## Greedy picks -/

/-- The pairs that items make greedily with free ones: each takes a free item of the same element,
or there is none. -/
inductive Picks : List (α × Nat) → List (α × Nat) → List (Nat × Nat) → Prop
  | done (free : List (α × Nat)) : Picks [] free []
  | take {rest free : List (α × Nat)} {pairs : List (Nat × Nat)} {a : α} {j : Nat} (i : Nat) :
      (a, j) ∈ free → Picks rest (free.filter fun item => item.2 ≠ j) pairs →
      Picks ((a, i) :: rest) free ((i, j) :: pairs)
  | pass {rest free : List (α × Nat)} {pairs : List (Nat × Nat)} {a : α} (i : Nat) :
      a ∉ free.map Prod.fst → Picks rest free pairs → Picks ((a, i) :: rest) free pairs

namespace Picks

variable {items free : List (α × Nat)} {pairs : List (Nat × Nat)}

theorem mem (h : Picks items free pairs) {pair : Nat × Nat} (hpair : pair ∈ pairs) :
    ∃ a, (a, pair.1) ∈ items ∧ (a, pair.2) ∈ free := by
  induction h with
  | done free => cases hpair
  | @take rest free pairs a j i hfree _ ih =>
    rcases List.mem_cons.mp hpair with rfl | hpair
    · exact ⟨a, List.mem_cons_self, hfree⟩
    · obtain ⟨b, hleft, hright⟩ := ih hpair
      exact ⟨b, List.mem_cons_of_mem _ hleft, List.mem_of_mem_filter hright⟩
  | pass i _ _ ih =>
    obtain ⟨b, hleft, hright⟩ := ih hpair
    exact ⟨b, List.mem_cons_of_mem _ hleft, hright⟩

theorem left_sublist (h : Picks items free pairs) :
    (pairs.map Prod.fst).Sublist (items.map Prod.snd) := by
  induction h with
  | done free => exact List.nil_sublist _
  | take i _ _ ih => exact ih.cons_cons i
  | pass i _ _ ih => exact ih.cons i

theorem right_nodup (h : Picks items free pairs) : (pairs.map Prod.snd).Nodup := by
  induction h with
  | done free => exact List.nodup_nil
  | @take rest free pairs a j i _ hpicks ih =>
    rw [List.map_cons, List.nodup_cons]
    refine ⟨fun hj => ?_, ih⟩
    -- A later pair at `j` would be one with an item that was taken out.
    obtain ⟨pair, hpair, hsnd⟩ := List.mem_map.mp hj
    obtain ⟨b, -, hfree⟩ := hpicks.mem hpair
    rw [hsnd] at hfree
    simp at hfree
  | pass i _ _ ih => exact ih

/-- Greedily, everything that the lists have in common is paired. -/
theorem length_eq [DecidableEq α] (h : Picks items free pairs)
    (hnodup : (free.map Prod.snd).Nodup) :
    pairs.length = Multiset.card
      (((items.map Prod.fst : List α) : Multiset α) ∩ (free.map Prod.fst : List α)) := by
  induction h with
  | done free => simp
  | @take rest free pairs a j i hmem _ ih =>
    have hfree : ((free.map Prod.fst : List α) : Multiset α) =
        a ::ₘ ((free.filter fun item => item.2 ≠ j).map Prod.fst : List α) :=
      Multiset.coe_eq_coe.mpr (map_fst_perm_cons_filter hnodup hmem)
    rw [List.length_cons, ih (hnodup.sublist (List.filter_sublist.map Prod.snd)), List.map_cons,
      ← Multiset.cons_coe, hfree, Multiset.cons_inter_of_pos _ (Multiset.mem_cons_self _ _),
      Multiset.erase_cons_head, Multiset.card_cons]
  | pass i habsent _ ih =>
    rw [ih hnodup, List.map_cons, ← Multiset.cons_coe, Multiset.cons_inter_of_neg]
    exact fun hmem => habsent (Multiset.mem_coe.mp hmem)

end Picks

theorem greedy_picks [DecidableEq α] (items free : List (α × Nat)) :
    Picks items free (greedy items free) := by
  induction items generalizing free with
  | nil => exact .done free
  | cons item rest ih =>
    obtain ⟨a, i⟩ := item
    rw [greedy]
    cases hfind : free.find? fun item => a == item.1 with
    | none =>
      refine .pass i (fun hmem => ?_) (ih free)
      obtain ⟨item, hitem, rfl⟩ := List.mem_map.mp hmem
      exact List.find?_eq_none.mp hfind item hitem (beq_self_eq_true item.1)
    | some found =>
      obtain ⟨b, j⟩ := found
      obtain rfl : a = b := by simpa using List.find?_some hfind
      exact .take i (List.mem_of_find?_eq_some hfind) (ih _)

section
variable {as bs : List α} {pairs : List (Nat × Nat)}

theorem Matching.unpaired_left (h : Matching as bs pairs) :
    (((unpaired (pairs.map Prod.fst) as).map Prod.fst : List α) : Multiset α) +
      elementsAt as (pairs.map Prod.fst) = as := by
  refine unpaired_add_elementsAt h.left fun i hi => ?_
  obtain ⟨pair, hpair, rfl⟩ := List.mem_map.mp hi
  obtain ⟨a, ha, -⟩ := h.equal pair hpair
  exact ⟨a, ha⟩

theorem Matching.unpaired_right (h : Matching as bs pairs) :
    (((unpaired (pairs.map Prod.snd) bs).map Prod.fst : List α) : Multiset α) +
      elementsAt as (pairs.map Prod.fst) = bs := by
  rw [h.elementsAt_eq]
  refine unpaired_add_elementsAt h.right fun j hj => ?_
  obtain ⟨pair, hpair, rfl⟩ := List.mem_map.mp hj
  obtain ⟨a, -, ha⟩ := h.equal pair hpair
  exact ⟨a, ha⟩

/-! ## The bound -/

variable [DecidableEq α]

/-- How many elements two lists have in common: each counts as often as in the list that has it
less often. -/
def overlap (as bs : List α) : Nat :=
  ∑ a ∈ as.toFinset, min (as.count a) (bs.count a)

theorem overlap_eq_card (as bs : List α) :
    overlap as bs = Multiset.card ((as : Multiset α) ∩ bs) := by
  have hsub : ∀ a ∈ (as : Multiset α) ∩ bs, a ∈ as.toFinset := fun a ha =>
    List.mem_toFinset.mpr (Multiset.mem_inter.mp ha).1
  rw [← Multiset.sum_count_eq_card hsub, overlap]
  simp only [Multiset.count_inter, Multiset.coe_count]

/-- The order of the elements does not matter. -/
theorem overlap_perm {as' bs' : List α} (has : as'.Perm as) (hbs : bs'.Perm bs) :
    overlap as' bs' = overlap as bs := by
  rw [overlap_eq_card, overlap_eq_card, Multiset.coe_eq_coe.mpr has, Multiset.coe_eq_coe.mpr hbs]

theorem overlap_le_left (as bs : List α) : overlap as bs ≤ as.length := by
  rw [overlap_eq_card, ← Multiset.coe_card]
  exact Multiset.card_le_card Multiset.inter_le_left

theorem overlap_le_right (as bs : List α) : overlap as bs ≤ bs.length := by
  rw [overlap_eq_card, ← Multiset.coe_card]
  exact Multiset.card_le_card Multiset.inter_le_right

/-- A list has all of itself in common with itself. -/
theorem overlap_self (as : List α) : overlap as as = as.length := by
  rw [overlap_eq_card, ← Multiset.coe_card]
  congr 1
  exact Multiset.ext.mpr fun a => by rw [Multiset.count_inter, min_self]

/-- What a matching takes and what it leaves add up to all that the lists have in common. -/
theorem Matching.card_unpaired_inter (h : Matching as bs pairs) :
    Multiset.card ((((unpaired (pairs.map Prod.fst) as).map Prod.fst : List α) : Multiset α) ∩
      ((unpaired (pairs.map Prod.snd) bs).map Prod.fst : List α)) + pairs.length =
      overlap as bs := by
  rw [overlap_eq_card, ← h.length_elementsAt, ← Multiset.coe_card, ← Multiset.card_add,
    Multiset.inter_add_distrib, h.unpaired_left, h.unpaired_right]

/-- **No matching is larger than the overlap.** -/
theorem Matching.length_le (h : Matching as bs pairs) : pairs.length ≤ overlap as bs := by
  rw [← h.card_unpaired_inter]
  exact Nat.le_add_left _ _

/-! ## Going on greedily -/

/-- Any matching is completed greedily. -/
theorem Matching.append_greedy (h : Matching as bs pairs) :
    Matching as bs (pairs ++ greedy (unpaired (pairs.map Prod.fst) as)
      (unpaired (pairs.map Prod.snd) bs)) := by
  have hpicks := greedy_picks (unpaired (pairs.map Prod.fst) as) (unpaired (pairs.map Prod.snd) bs)
  refine ⟨fun pair hpair => ?_, ?_, ?_⟩
  · rcases List.mem_append.mp hpair with hpair | hpair
    · exact h.equal pair hpair
    · obtain ⟨a, ha, hb⟩ := hpicks.mem hpair
      exact ⟨a, (mem_unpaired.mp ha).1, (mem_unpaired.mp hb).1⟩
  · rw [List.map_append, List.nodup_append']
    refine ⟨h.left, (nodup_unpaired_positions _ as).sublist hpicks.left_sublist, ?_⟩
    intro i hi hi'
    obtain ⟨pair, hpair, rfl⟩ := List.mem_map.mp hi'
    obtain ⟨a, ha, -⟩ := hpicks.mem hpair
    exact (mem_unpaired.mp ha).2 hi
  · rw [List.map_append, List.nodup_append']
    refine ⟨h.right, hpicks.right_nodup, ?_⟩
    intro j hj hj'
    obtain ⟨pair, hpair, rfl⟩ := List.mem_map.mp hj'
    obtain ⟨a, -, hb⟩ := hpicks.mem hpair
    exact (mem_unpaired.mp hb).2 hj

/-! ## Along a common subsequence -/

theorem trace_chain (as bs : List (α × Nat)) (table : List (List Nat)) :
    Chain as bs (trace as bs table) := by
  fun_induction trace as bs table with
  | case1 a i as b j bs row below up left hgt hab ih =>
    obtain rfl : a = b := by simpa using hab
    simp only [List.map_subtype, List.unattach_attach, BEq.rfl, ↓reduceIte] at ih ⊢
    exact .take a i j ih
  | case2 a i as b j bs row below up left hgt hab ih =>
    -- A table may ask for a pair that is not one; the walk then goes on without it.
    simp only [List.map_subtype, List.unattach_attach, hab, Bool.false_eq_true, ↓reduceIte] at ih ⊢
    exact (ih.skipRight (b, j)).skipLeft (a, i)
  | case3 a i as b j bs row below up left hgt hup ih => exact ih.skipLeft (a, i)
  | case4 a i as b j bs row below up left hgt hup ih => exact ih.skipRight (b, j)
  | case5 as bs table hshort => exact .stop as bs

theorem ordered_matching (as bs : List α) : Matching as bs (ordered as bs) := by
  have hchain := trace_chain as.zipIdx.reverse bs.zipIdx.reverse (lengths as.reverse bs.reverse)
  refine ⟨fun pair hpair => ?_, ?_, ?_⟩
  · obtain ⟨a, ha, hb⟩ := hchain.mem (List.mem_reverse.mp hpair)
    rw [List.mem_reverse, List.mem_zipIdx_iff_getElem?] at ha hb
    exact ⟨a, ha, hb⟩
  · rw [ordered, List.map_reverse, List.nodup_reverse]
    exact (nodup_reverse_positions as).sublist hchain.sublists.1
  · rw [ordered, List.map_reverse, List.nodup_reverse]
    exact (nodup_reverse_positions bs).sublist hchain.sublists.2

end

/-! ## Both passes -/

theorem pairs_matching [DecidableEq α] (as bs : List α) : Matching as bs (pairs as bs) :=
  (ordered_matching as bs).append_greedy

/-- **An alignment pairs all that two lists have in common.** -/
theorem length_pairs [DecidableEq α] (as bs : List α) : (pairs as bs).length = overlap as bs := by
  rw [pairs, List.length_append, (greedy_picks _ _).length_eq (nodup_unpaired_positions _ bs),
    Nat.add_comm]
  exact (ordered_matching as bs).card_unpaired_inter

end Refactor.Alignment
