import Mathlib.Data.List.NodupEquivFin
import Mathlib.Order.Bounds.Basic
import Refactor.Proofs.BodyScore

/-!
# Longest common subsequences

Pairs of positions go *forward* in two lists if they are positions of equal elements and increase
strictly in both lists. Such pairs are a common subsequence with its places.

**Theorem (`ordered_forward`, `Forward.length_le_ordered`).** The pairs of the first pass of an
alignment go forward, and no pairs that go forward are more.

The first entry of the table is the greatest length of a common subsequence (`le_topLength`,
`exists_common`), and the tails of a table are the tables of the tails, so this holds of all
entries. The walk is described by one equation (`trace_table`) that speaks of first entries only.
Where the first entry exceeds both neighbours, the elements are equal; where it does not, it is the
greater of the two, which is where the walk goes. So the walk collects as many pairs as the first
entry says.

In particular the walk never stands on elements that differ when it takes a pair: it would be the
same walk if it did not look at them (`askedFor_eq_ordered`).
-/

namespace Refactor.Alignment

variable {α : Type}

/-! ## Pairs that go forward -/

/-- Pairs of positions of equal elements that increase strictly in both lists. -/
structure Forward (as bs : List α) (pairs : List (Nat × Nat)) : Prop where
  equal : ∀ pair ∈ pairs, ∃ a, as[pair.1]? = some a ∧ bs[pair.2]? = some a
  left : (pairs.map Prod.fst).Pairwise (· < ·)
  right : (pairs.map Prod.snd).Pairwise (· < ·)

instance [DecidableEq α] (as bs : List α) (pairs : List (Nat × Nat)) :
    Decidable (Forward as bs pairs) :=
  decidable_of_iff
    ((∀ pair ∈ pairs, as[pair.1]?.isSome = true ∧ as[pair.1]? = bs[pair.2]?) ∧
      (pairs.map Prod.fst).Pairwise (· < ·) ∧ (pairs.map Prod.snd).Pairwise (· < ·))
    ⟨fun ⟨hequal, hleft, hright⟩ => ⟨fun pair hpair => by
        obtain ⟨a, ha⟩ := Option.isSome_iff_exists.mp (hequal pair hpair).1
        exact ⟨a, ha, (hequal pair hpair).2 ▸ ha⟩, hleft, hright⟩,
      fun h => ⟨fun pair hpair => by
        obtain ⟨a, ha, hb⟩ := h.equal pair hpair
        exact ⟨by rw [ha, Option.isSome_some], ha.trans hb.symm⟩, h.left, h.right⟩⟩

theorem Forward.matching {as bs : List α} {pairs : List (Nat × Nat)} (h : Forward as bs pairs) :
    Matching as bs pairs :=
  ⟨h.equal, h.left.imp Nat.ne_of_lt, h.right.imp Nat.ne_of_lt⟩

/-- The elements at increasing positions are a subsequence. -/
theorem elementsAt_sublist {items : List α} {positions : List Nat}
    (hlt : positions.Pairwise (· < ·)) (hvalid : ∀ i ∈ positions, ∃ a, items[i]? = some a) :
    (elementsAt items positions).Sublist items := by
  have hsubset : positions ⊆ List.range items.length := by
    intro i hi
    obtain ⟨a, ha⟩ := hvalid i hi
    exact List.mem_range.mpr (List.getElem?_eq_some_iff.mp ha).1
  have hnodup : positions.Nodup := hlt.imp Nat.ne_of_lt
  have hsublist : positions.Sublist (List.range items.length) :=
    List.sublist_of_subperm_of_pairwise (List.subperm_of_subset hnodup hsubset) hlt
      List.pairwise_lt_range
  have helements : (elementsAt items positions).Sublist
      (elementsAt items (List.range items.length)) := hsublist.filterMap (items[·]?)
  rwa [elementsAt_range] at helements

/-- Pairs that go forward make a common subsequence. -/
theorem Forward.exists_common {as bs : List α} {pairs : List (Nat × Nat)}
    (h : Forward as bs pairs) :
    ∃ common : List α, common.Sublist as ∧ common.Sublist bs ∧ common.length = pairs.length := by
  refine ⟨elementsAt as (pairs.map Prod.fst), ?_, ?_, h.matching.length_elementsAt⟩
  · refine elementsAt_sublist h.left fun i hi => ?_
    obtain ⟨pair, hpair, rfl⟩ := List.mem_map.mp hi
    obtain ⟨a, ha, -⟩ := h.equal pair hpair
    exact ⟨a, ha⟩
  · rw [h.matching.elementsAt_eq]
    refine elementsAt_sublist h.right fun j hj => ?_
    obtain ⟨pair, hpair, rfl⟩ := List.mem_map.mp hj
    obtain ⟨a, -, ha⟩ := h.equal pair hpair
    exact ⟨a, ha⟩

/-! ## The first entry -/

section

variable [DecidableEq α]

/-- The first entry of the table, for both lists as a whole. -/
def topLength (as bs : List α) : Nat :=
  ((lengths as bs).headD []).headD 0

theorem headD_map_tail (table : List (List Nat)) :
    (table.map List.tail).headD [] = (table.headD []).tail := by
  cases table <;> rfl

/-- Without its first column the table is that of the tail. -/
theorem map_tail_lengths (as bs : List α) (b : α) :
    (lengths as (b :: bs)).map List.tail = lengths as bs := by
  induction as with
  | nil => rfl
  | cons a as ih =>
    change lengthRow a bs ((lengths as (b :: bs)).headD []).tail ::
        (lengths as (b :: bs)).map List.tail =
      lengthRow a bs ((lengths as bs).headD []) :: lengths as bs
    rw [← headD_map_tail, ih]

theorem tail_headD_lengths (as bs : List α) (b : α) :
    ((lengths as (b :: bs)).headD []).tail = (lengths as bs).headD [] := by
  rw [← headD_map_tail, map_tail_lengths]

@[simp] theorem topLength_nil_left (bs : List α) : topLength [] bs = 0 :=
  rfl

@[simp] theorem topLength_nil_right (as : List α) : topLength as [] = 0 := by
  cases as <;> rfl

theorem topLength_cons_cons (a b : α) (as bs : List α) :
    topLength (a :: as) (b :: bs) =
      if a = b then topLength as bs + 1
      else max (topLength as (b :: bs)) (topLength (a :: as) bs) := by
  have hboth : topLength as bs = ((lengths as (b :: bs)).headD []).tail.headD 0 := by
    rw [tail_headD_lengths, topLength]
  have hright : topLength (a :: as) bs =
      (lengthRow a bs ((lengths as (b :: bs)).headD []).tail).headD 0 := by
    rw [tail_headD_lengths]
    rfl
  rw [hboth, hright]
  simp only [topLength, lengths, lengthRow, List.headD_cons, beq_iff_eq]

/-- A common subsequence is no longer than the first entry. -/
theorem le_topLength {common as bs : List α} (has : common.Sublist as) (hbs : common.Sublist bs) :
    common.length ≤ topLength as bs := by
  induction as generalizing common bs with
  | nil =>
    rw [List.sublist_nil.mp has]
    exact Nat.zero_le _
  | cons a as ihas =>
    induction bs generalizing common with
    | nil =>
      rw [List.sublist_nil.mp hbs]
      exact Nat.zero_le _
    | cons b bs ihbs =>
      rw [topLength_cons_cons]
      by_cases hab : a = b
      · -- Whatever comes first, the rest is common to both tails.
        rw [if_pos hab]
        have htail : common.tail.length ≤ topLength as bs := ihas has.tail hbs.tail
        rw [List.length_tail] at htail
        omega
      · rw [if_neg hab]
        rcases List.sublist_cons_iff.mp has with has' | ⟨rest, rfl, -⟩
        · exact Nat.le_trans (ihas has' hbs) (Nat.le_max_left _ _)
        · rcases List.sublist_cons_iff.mp hbs with hbs' | ⟨rest', heq, -⟩
          · exact Nat.le_trans (ihbs has hbs') (Nat.le_max_right _ _)
          · exact absurd (List.cons.inj heq).1 hab

/-- Some common subsequence is as long as the first entry. -/
theorem exists_common (as bs : List α) :
    ∃ common : List α, common.Sublist as ∧ common.Sublist bs ∧
      common.length = topLength as bs := by
  induction as generalizing bs with
  | nil => exact ⟨[], List.nil_sublist _, List.nil_sublist _, rfl⟩
  | cons a as ihas =>
    induction bs with
    | nil => exact ⟨[], List.nil_sublist _, List.nil_sublist _, rfl⟩
    | cons b bs ihbs =>
      rw [topLength_cons_cons]
      by_cases hab : a = b
      · subst hab
        obtain ⟨common, has, hbs, hlength⟩ := ihas bs
        exact ⟨a :: common, has.cons_cons a, hbs.cons_cons a, by simp [hlength]⟩
      · rw [if_neg hab]
        rcases Nat.le_total (topLength as (b :: bs)) (topLength (a :: as) bs) with hle | hle
        · obtain ⟨common, has, hbs, hlength⟩ := ihbs
          exact ⟨common, has, hbs.cons b, by rw [hlength, Nat.max_eq_right hle]⟩
        · obtain ⟨common, has, hbs, hlength⟩ := ihas (b :: bs)
          exact ⟨common, has.cons a, hbs, by rw [hlength, Nat.max_eq_left hle]⟩

theorem topLength_mono {as as' bs bs' : List α} (has : as.Sublist as') (hbs : bs.Sublist bs') :
    topLength as bs ≤ topLength as' bs' := by
  obtain ⟨common, hcommon, hcommon', hlength⟩ := exists_common as bs
  rw [← hlength]
  exact le_topLength (hcommon.trans has) (hcommon'.trans hbs)

theorem topLength_reverse (as bs : List α) :
    topLength as.reverse bs.reverse = topLength as bs := by
  refine Nat.le_antisymm ?_ ?_
  · obtain ⟨common, has, hbs, hlength⟩ := exists_common as.reverse bs.reverse
    rw [← hlength, ← List.length_reverse]
    exact le_topLength (List.reverse_reverse as ▸ has.reverse)
      (List.reverse_reverse bs ▸ hbs.reverse)
  · obtain ⟨common, has, hbs, hlength⟩ := exists_common as bs
    rw [← hlength, ← List.length_reverse]
    exact le_topLength has.reverse hbs.reverse

/-- **Where the first entry exceeds both neighbours, the elements are equal.** -/
theorem eq_of_exceeds {a b : α} {as bs : List α}
    (h : max (topLength as (b :: bs)) (topLength (a :: as) bs) < topLength (a :: as) (b :: bs)) :
    a = b := by
  by_contra hab
  rw [topLength_cons_cons, if_neg hab] at h
  exact Nat.lt_irrefl _ h

/-- Where it does not, it is the greater of the two. -/
theorem eq_max_of_not_exceeds {a b : α} {as bs : List α}
    (h : ¬ max (topLength as (b :: bs)) (topLength (a :: as) bs) <
      topLength (a :: as) (b :: bs)) :
    topLength (a :: as) (b :: bs) = max (topLength as (b :: bs)) (topLength (a :: as) bs) :=
  Nat.le_antisymm (Nat.not_lt.mp h) (Nat.max_le.mpr
    ⟨topLength_mono (List.sublist_cons_self a as) (List.Sublist.refl _),
      topLength_mono (List.Sublist.refl _) (List.sublist_cons_self b bs)⟩)

/-! ## The walk -/

/-- The table for two lists of items. -/
def tableOf (as bs : List (α × Nat)) : List (List Nat) :=
  lengths (as.map Prod.fst) (bs.map Prod.fst)

section

variable {check : α → α → Bool}

omit [DecidableEq α] in
theorem trace_nil_left (bs : List (α × Nat)) (table : List (List Nat)) :
    @trace α ⟨check⟩ [] bs table = [] := by
  unfold trace
  rfl

omit [DecidableEq α] in
theorem trace_nil_right (as : List (α × Nat)) (table : List (List Nat)) :
    @trace α ⟨check⟩ as [] table = [] := by
  unfold trace
  cases as <;> rfl

/-- **One step of the walk.** The check that it makes on the elements of a pair plays no part, if
equal elements pass it. -/
theorem trace_table (hcheck : ∀ a, check a a = true) (a b : α) (i j : Nat)
    (as bs : List (α × Nat)) :
    let left := as.map Prod.fst
    let right := bs.map Prod.fst
    let up := topLength left (b :: right)
    let side := topLength (a :: left) right
    @trace α ⟨check⟩ ((a, i) :: as) ((b, j) :: bs) (tableOf ((a, i) :: as) ((b, j) :: bs)) =
      if max up side < topLength (a :: left) (b :: right) then
        (i, j) :: @trace α ⟨check⟩ as bs (tableOf as bs)
      else if side < up then @trace α ⟨check⟩ as ((b, j) :: bs) (tableOf as ((b, j) :: bs))
      else @trace α ⟨check⟩ ((a, i) :: as) bs (tableOf ((a, i) :: as) bs) := by
  intro left right up side
  have htable : tableOf ((a, i) :: as) ((b, j) :: bs) =
      lengthRow a (b :: right) ((lengths left (b :: right)).headD []) ::
        lengths left (b :: right) := rfl
  have hside : (lengthRow a (b :: right) ((lengths left (b :: right)).headD [])).tail.headD 0 =
      side :=
    congrArg (List.headD · 0) (tail_headD_lengths (a :: left) right b)
  have hboth : (lengths left (b :: right)).map List.tail = tableOf as bs :=
    map_tail_lengths left right b
  have hright : (lengthRow a (b :: right) ((lengths left (b :: right)).headD []) ::
      lengths left (b :: right)).map List.tail = tableOf ((a, i) :: as) bs :=
    map_tail_lengths (a :: left) right b
  rw [htable]
  conv_lhs => unfold trace
  dsimp only
  rw [hside, hboth, hright]
  refine ite_congr rfl (fun hexceeds => ?_) fun _ => rfl
  have hab : a = b := eq_of_exceeds hexceeds
  exact if_pos (hab ▸ hcheck a)

/-- The walk takes as many pairs as the first entry says. -/
theorem length_trace (hcheck : ∀ a, check a a = true) (as bs : List (α × Nat)) :
    (@trace α ⟨check⟩ as bs (tableOf as bs)).length =
      topLength (as.map Prod.fst) (bs.map Prod.fst) := by
  induction as generalizing bs with
  | nil => rw [trace_nil_left, List.map_nil, topLength_nil_left, List.length_nil]
  | cons item as ihas =>
    obtain ⟨a, i⟩ := item
    induction bs with
    | nil => rw [trace_nil_right, List.map_nil, topLength_nil_right, List.length_nil]
    | cons item bs ihbs =>
      obtain ⟨b, j⟩ := item
      rw [trace_table hcheck, List.map_cons, List.map_cons]
      split
      · rename_i hexceeds
        rw [List.length_cons, ihas, topLength_cons_cons, if_pos (eq_of_exceeds hexceeds)]
      · rename_i hexceeds
        rw [eq_max_of_not_exceeds hexceeds]
        split
        · rename_i hup
          rw [ihas, List.map_cons, Nat.max_eq_left (Nat.le_of_lt hup)]
        · rename_i hup
          rw [ihbs, List.map_cons, Nat.max_eq_right (Nat.not_lt.mp hup)]

/-- **The walk is the same whether or not it looks at the elements of a pair.** -/
theorem trace_unchecked (check : α → α → Bool) (hcheck : ∀ a, check a a = true)
    (as bs : List (α × Nat)) :
    @trace α ⟨fun _ _ => true⟩ as bs (tableOf as bs) = @trace α ⟨check⟩ as bs (tableOf as bs) := by
  induction as generalizing bs with
  | nil => rw [trace_nil_left, trace_nil_left]
  | cons item as ihas =>
    obtain ⟨a, i⟩ := item
    induction bs with
    | nil => rw [trace_nil_right, trace_nil_right]
    | cons item bs ihbs =>
      obtain ⟨b, j⟩ := item
      rw [trace_table hcheck, trace_table fun _ => rfl, ihas, ihas, ihbs]

end

/-! ## The first pass -/

/-- The pairs that the table asks for, taken without a look at the elements. -/
def askedFor (as bs : List α) : List (Nat × Nat) :=
  (@trace α ⟨fun _ _ => true⟩ as.zipIdx.reverse bs.zipIdx.reverse
    (lengths as.reverse bs.reverse)).reverse

theorem tableOf_reverse (as bs : List α) :
    tableOf as.zipIdx.reverse bs.zipIdx.reverse = lengths as.reverse bs.reverse := by
  rw [tableOf, List.map_reverse, List.map_reverse, List.zipIdx_map_fst, List.zipIdx_map_fst]

theorem askedFor_eq_ordered (as bs : List α) : askedFor as bs = ordered as bs := by
  unfold askedFor ordered
  rw [← tableOf_reverse]
  have hrefl : ∀ a : α, decide (a = a) = true := fun _ => decide_eq_true rfl
  exact congrArg List.reverse (trace_unchecked (fun a b => decide (a = b)) hrefl _ _)

theorem length_ordered (as bs : List α) : (ordered as bs).length = topLength as bs := by
  rw [← askedFor_eq_ordered, askedFor, ← tableOf_reverse, List.length_reverse,
    length_trace fun _ => rfl, List.map_reverse, List.map_reverse, List.zipIdx_map_fst,
    List.zipIdx_map_fst, topLength_reverse]

omit [DecidableEq α] in
theorem increasing_positions (items : List α) :
    (items.zipIdx.map Prod.snd).Pairwise (· < ·) := by
  rw [List.zipIdx_map_snd]
  exact List.pairwise_lt_range'

/-- **The pairs of the first pass go forward.** -/
theorem ordered_forward (as bs : List α) : Forward as bs (ordered as bs) := by
  obtain ⟨hleft, hright⟩ :=
    (trace_chain as.zipIdx.reverse bs.zipIdx.reverse (lengths as.reverse bs.reverse)).sublists
  rw [List.map_reverse] at hleft hright
  refine ⟨(ordered_matching as bs).equal, ?_, ?_⟩
  · rw [ordered, List.map_reverse]
    exact (increasing_positions as).sublist (by simpa using hleft.reverse)
  · rw [ordered, List.map_reverse]
    exact (increasing_positions bs).sublist (by simpa using hright.reverse)

/-- **No pairs that go forward are more.** -/
theorem Forward.length_le_ordered {as bs : List α} {pairs : List (Nat × Nat)}
    (h : Forward as bs pairs) : pairs.length ≤ (ordered as bs).length := by
  obtain ⟨common, has, hbs, hlength⟩ := h.exists_common
  rw [length_ordered, ← hlength]
  exact le_topLength has hbs

/-! ## All entries -/

/-- The entry of the table for the first `i` elements of one list and the first `j` of the
other. -/
def entry (as bs : List α) (i j : Nat) : Nat :=
  (((lengths as.reverse bs.reverse)[as.length - i]?.getD [])[bs.length - j]?).getD 0

theorem getD_row (as bs : List α) (i : Nat) (hi : i ≤ as.length) :
    (lengths as bs)[i]?.getD [] = (lengths (as.drop i) bs).headD [] := by
  induction as generalizing i with
  | nil =>
    obtain rfl : i = 0 := Nat.le_zero.mp hi
    rfl
  | cons a as ih =>
    cases i with
    | zero => rfl
    | succ i => exact ih i (Nat.le_of_succ_le_succ hi)

theorem getD_column (as bs : List α) (j : Nat) (hj : j ≤ bs.length) :
    ((lengths as bs).headD [])[j]?.getD 0 = topLength as (bs.drop j) := by
  induction bs generalizing j with
  | nil =>
    obtain rfl : j = 0 := Nat.le_zero.mp hj
    cases as <;> rfl
  | cons b bs ih =>
    cases j with
    | zero =>
      simp only [List.drop_zero, topLength, List.headD_eq_head?_getD, List.head?_eq_getElem?]
    | succ j =>
      rw [List.drop_succ_cons, ← ih j (Nat.le_of_succ_le_succ hj), ← tail_headD_lengths as bs b,
        List.getElem?_tail]

theorem entry_eq (as bs : List α) (i j : Nat) :
    entry as bs i j = topLength (as.take i).reverse (bs.take j).reverse := by
  rw [entry, getD_row _ _ _ (by simp), getD_column _ _ _ (by simp), List.reverse_take,
    List.reverse_take]

/-- **Every entry is the greatest number of pairs that go forward in two starts of the lists.** -/
theorem isGreatest_entry (as bs : List α) (i j : Nat) :
    IsGreatest {n | ∃ pairs, Forward (as.take i) (bs.take j) pairs ∧ pairs.length = n}
      (entry as bs i j) := by
  rw [entry_eq, topLength_reverse, ← length_ordered]
  refine ⟨⟨_, ordered_forward _ _, rfl⟩, ?_⟩
  rintro n ⟨pairs, hpairs, rfl⟩
  exact hpairs.length_le_ordered

/-- An entry that exceeds both neighbours stands for two equal elements. -/
theorem getElem?_eq_of_entry {as bs : List α} {i j : Nat} (hi : i < as.length)
    (hj : j < bs.length)
    (h : max (entry as bs i (j + 1)) (entry as bs (i + 1) j) < entry as bs (i + 1) (j + 1)) :
    as[i]? = bs[j]? := by
  have has : (as.take (i + 1)).reverse = as[i] :: (as.take i).reverse := by
    rw [List.take_succ_eq_append_getElem hi, List.reverse_append]
    rfl
  have hbs : (bs.take (j + 1)).reverse = bs[j] :: (bs.take j).reverse := by
    rw [List.take_succ_eq_append_getElem hj, List.reverse_append]
    rfl
  rw [entry_eq, entry_eq, entry_eq, has, hbs] at h
  rw [List.getElem?_eq_getElem hi, List.getElem?_eq_getElem hj, eq_of_exceeds h]

end

end Refactor.Alignment

namespace Refactor.Diff

open Refactor.Alignment

/-! ## Statements in order -/

/-- **The first statements that are recorded are a longest common subsequence.** They stand at
positions that increase strictly in both bodies, and no increasing pairs of positions of
corresponding statements are more. Each entry of the table is the greatest number of such pairs in
two starts of the bodies, one that exceeds both neighbours stands on statements that correspond, and
so no pair that the table asks for is left out. -/
theorem matchStatements_ordered (renames : Renaming) (old new : List String) :
    let renamed := old.map (renameStatement renames)
    let first := ordered renamed new
    List.Forall₂ (Records renames old new)
        ((matchStatements renames old new).take first.length) first ∧
      Forward renamed new first ∧
      (∀ pairs, Forward renamed new pairs → pairs.length ≤ first.length) ∧
      (∀ i j, IsGreatest
        {n | ∃ pairs, Forward (renamed.take i) (new.take j) pairs ∧ pairs.length = n}
        (entry renamed new i j)) ∧
      (∀ i j, i < renamed.length → j < new.length →
        max (entry renamed new i (j + 1)) (entry renamed new (i + 1) j) <
          entry renamed new (i + 1) (j + 1) → renamed[i]? = new[j]?) ∧
      first = askedFor renamed new := by
  intro renamed first
  refine ⟨?_, ordered_forward renamed new, fun _ h => h.length_le_ordered,
    isGreatest_entry renamed new, fun _ _ hi hj h => getElem?_eq_of_entry hi hj h,
    (askedFor_eq_ordered renamed new).symm⟩
  have hrecords := List.forall₂_take first.length (matchStatements_records renames old new)
  rwa [pairs, List.take_left] at hrecords

/-- Four statements of each body correspond. One of them has moved to the front and is left to the
second pass, so three are found in order. -/
theorem matchStatements_ordered_moved :
    let renames : Renaming := TextMap.ofList [("x", "n")]
    let old := ["a = load(x)", "check(x)", "return a", "log(x)"]
    let new := ["log(n)", "a = load(n)", "check(n)", "return a"]
    let renamed := old.map (renameStatement renames)
    (matchStatements renames old new).length = 4 ∧
      Forward renamed new [(0, 1), (1, 2), (2, 3)] ∧ (ordered renamed new).length = 3 ∧
      max (entry renamed new 1 3) (entry renamed new 2 2) < entry renamed new 2 3 ∧
      renamed[1]? = new[2]? := by
  intro renames old new renamed
  obtain ⟨-, -, hlongest, -, hexceeds, -⟩ := matchStatements_ordered renames old new
  have hpairs : Forward renamed new [(0, 1), (1, 2), (2, 3)] := by decide +kernel
  have hentry : max (entry renamed new 1 3) (entry renamed new 2 2) < entry renamed new 2 3 := by
    decide +kernel
  refine ⟨?_, hpairs, ?_, hentry, hexceeds 1 2 (by decide) (by decide) hentry⟩
  · rw [length_matchStatements]
    decide +kernel
  · refine Nat.le_antisymm ?_ (hlongest _ hpairs)
    rw [length_ordered]
    decide +kernel

end Refactor.Diff
