/-!
# Aligning two lists

Pairs of equal elements of two lists: first along a longest common subsequence, then whatever
else can be paired, each element of the first list with the first free one of the second.

The longest common subsequence is found from the ends of the lists. Both are therefore taken in
reverse, so that what lies before an element is the tail of a list: `lengths` holds the length
of a longest common subsequence for every pair of tails, and `trace` walks that table, taking a
pair wherever the length exceeds what either list gives without its first element.

Elements are paired by their positions, so that equal elements stay apart.
-/

namespace Refactor.Alignment

variable {α : Type} [BEq α]

/-! ## Longest common subsequences -/

/-- The row of lengths for `a :: as` against every tail of a list, given the row for `as`. -/
def lengthRow (a : α) : List α → List Nat → List Nat
  | [], _ => [0]
  | b :: bs, below =>
    let rest := lengthRow a bs below.tail
    (if a == b then below.tail.headD 0 + 1 else max (below.headD 0) (rest.headD 0)) :: rest

/-- The table of lengths for every tail of one list against every tail of the other. -/
def lengths : List α → List α → List (List Nat)
  | [], bs => [List.replicate (bs.length + 1) 0]
  | a :: as, bs =>
    let below := lengths as bs
    lengthRow a bs (below.headD []) :: below

/-- The pairs along a longest common subsequence, from the front of both lists, with the table
for what is left of them. When both lists give the same length without their first element, the
second list goes on. -/
def trace : List (α × Nat) → List (α × Nat) → List (List Nat) → List (Nat × Nat)
  | (a, i) :: as, (b, j) :: bs, row :: below =>
    let up := (below.headD []).headD 0
    let left := row.tail.headD 0
    if row.headD 0 > max up left then
      let rest := trace as bs (below.map List.tail)
      if a == b then (i, j) :: rest else rest
    else if up > left then trace as ((b, j) :: bs) below
    else trace ((a, i) :: as) bs ((row :: below).map List.tail)
  | _, _, _ => []
termination_by as bs => as.length + bs.length

/-- The pairs of positions along a longest common subsequence, in order. -/
def ordered (as bs : List α) : List (Nat × Nat) :=
  (trace as.zipIdx.reverse bs.zipIdx.reverse (lengths as.reverse bs.reverse)).reverse

/-! ## What is left -/

/-- Pairs each element with the first free one that is equal. -/
def greedy : List (α × Nat) → List (α × Nat) → List (Nat × Nat)
  | [], _ => []
  | (a, i) :: as, free =>
    match free.find? fun item => a == item.1 with
    | some (_, j) => (i, j) :: greedy as (free.filter fun item => item.2 ≠ j)
    | none => greedy as free

/-- The elements whose positions are not among the given ones. -/
def unpaired (positions : List Nat) (items : List α) : List (α × Nat) :=
  items.zipIdx.filter fun item => !positions.contains item.2

/-- The pairs of positions: first in order, then whatever else can be paired. -/
def pairs (as bs : List α) : List (Nat × Nat) :=
  let first := ordered as bs
  first ++ greedy (unpaired (first.map Prod.fst) as) (unpaired (first.map Prod.snd) bs)

end Refactor.Alignment
