import Mathlib.Order.Bounds.Basic
import Refactor.Text.EditDistance

/-!
# The least number of edits

An *edit* inserts, deletes or replaces one character anywhere in a text, and edits are made one
after the other, in any order and at any places.

**Theorem (`isLeast_editDistance`).** The edit distance of two texts is the least number of edits
that lead from one to the other. So it is a metric.

The distance is computed in two rows that change places. It is compared with a recursive `cost`,
which looks at the first characters, while the rows go on at the last ones: `cost_concat_concat`
says that the cost may be counted from the back too. The invariant of the rows is `CountsTo`. It
says nothing of the entries that are still to be written, since these are left over from an older
row, and no entry is read before it is written (`CountsTo.fillRow`).

That no sequence of edits is shorter does not go by the shape of the sequence. One edit changes the
cost to any text by at most one (`Edit.cost_le`), so `n` edits that end in `b` start at most `n`
away from it.
-/

namespace Refactor.Text

/-! ## Edits -/

/-- A character is inserted, deleted or replaced by another one. -/
inductive Edit : List Char → List Char → Prop
  | insert (before after : List Char) (c : Char) : Edit (before ++ after) (before ++ c :: after)
  | delete (before after : List Char) (c : Char) : Edit (before ++ c :: after) (before ++ after)
  | substitute (before after : List Char) {c d : Char} (hne : c ≠ d) :
      Edit (before ++ c :: after) (before ++ d :: after)

/-- A number of edits, one after the other. -/
inductive Edits : Nat → List Char → List Char → Prop
  | done (text : List Char) : Edits 0 text text
  | step {n : Nat} {a b c : List Char} : Edit a b → Edits n b c → Edits (n + 1) a c

theorem Edit.symm {a b : List Char} (h : Edit a b) : Edit b a := by
  cases h with
  | insert before after c => exact .delete before after c
  | delete before after c => exact .insert before after c
  | substitute before after hne => exact .substitute before after hne.symm

theorem Edit.cons {a b : List Char} (h : Edit a b) (first : Char) :
    Edit (first :: a) (first :: b) := by
  cases h with
  | insert before after c => exact .insert (first :: before) after c
  | delete before after c => exact .delete (first :: before) after c
  | substitute before after hne => exact .substitute (first :: before) after hne

theorem Edit.reverse {a b : List Char} (h : Edit a b) : Edit a.reverse b.reverse := by
  cases h with
  | insert before after c =>
    rw [List.reverse_append, List.reverse_append, List.reverse_cons, List.append_assoc]
    exact .insert after.reverse before.reverse c
  | delete before after c =>
    rw [List.reverse_append, List.reverse_append, List.reverse_cons, List.append_assoc]
    exact .delete after.reverse before.reverse c
  | @substitute before after c d hne =>
    rw [List.reverse_append, List.reverse_append, List.reverse_cons, List.reverse_cons,
      List.append_assoc, List.append_assoc]
    exact .substitute after.reverse before.reverse hne

namespace Edits

variable {m n : Nat} {a b c : List Char}

theorem trans (h : Edits m a b) (h' : Edits n b c) : Edits (m + n) a c := by
  induction h with
  | done text => rwa [Nat.zero_add]
  | step hedit _ ih =>
    rw [Nat.add_right_comm]
    exact .step hedit (ih h')

theorem symm (h : Edits n a b) : Edits n b a := by
  induction h with
  | done text => exact .done text
  | step hedit _ ih => exact ih.trans (.step hedit.symm (.done _))

theorem cons (h : Edits n a b) (first : Char) : Edits n (first :: a) (first :: b) := by
  induction h with
  | done text => exact .done (first :: text)
  | step hedit _ ih => exact .step (hedit.cons first) ih

theorem reverse (h : Edits n a b) : Edits n a.reverse b.reverse := by
  induction h with
  | done text => exact .done text.reverse
  | step hedit _ ih => exact .step hedit.reverse ih

theorem eq_of_zero (h : Edits 0 a b) : a = b := by
  cases h
  rfl

end Edits

/-! ## The cost of two texts -/

/-- The least number of edits when texts are compared from the front: a shortest way keeps or
replaces the first character, deletes it, or inserts one in front. -/
def cost : List Char → List Char → Nat
  | [], right => right.length
  | c :: left, [] => left.length + 1
  | c :: left, d :: right =>
    min (cost left right + if c = d then 0 else 1)
      (min (cost left (d :: right) + 1) (cost (c :: left) right + 1))

@[simp] theorem cost_nil_left (right : List Char) : cost [] right = right.length := by
  rw [cost]

@[simp] theorem cost_nil_right (left : List Char) : cost left [] = left.length := by
  cases left with
  | nil => rw [cost_nil_left]
  | cons c left => rw [cost, List.length_cons]

theorem cost_cons_cons (c d : Char) (left right : List Char) :
    cost (c :: left) (d :: right) =
      min (cost left right + if c = d then 0 else 1)
        (min (cost left (d :: right) + 1) (cost (c :: left) right + 1)) := by
  rw [cost]

theorem cost_self (text : List Char) : cost text text = 0 := by
  induction text with
  | nil => exact cost_nil_left []
  | cons c text ih =>
    rw [cost_cons_cons, ih, if_pos rfl]
    omega

/-! ## What one edit changes -/

section

variable (c d : Char) (left right : List Char)

theorem cost_cons_left_le : cost (c :: left) right ≤ cost left right + 1 := by
  cases right with
  | nil => simp
  | cons e right =>
    rw [cost_cons_cons]
    omega

theorem cost_cons_right_le : cost left (d :: right) ≤ cost left right + 1 := by
  cases left with
  | nil => simp
  | cons e left =>
    rw [cost_cons_cons]
    omega

theorem cost_le_cons_left : cost left right ≤ cost (c :: left) right + 1 := by
  induction right with
  | nil =>
    rw [cost_nil_right, cost_nil_right, List.length_cons]
    omega
  | cons e right ih =>
    have hright := cost_cons_right_le e left right
    rw [cost_cons_cons]
    omega

theorem cost_substitute_le :
    cost (c :: left) right ≤ cost (d :: left) right + 1 := by
  induction right with
  | nil => simp
  | cons e right ih =>
    rw [cost_cons_cons, cost_cons_cons]
    split <;> split <;> omega

end

/-- A change to the end of a text counts for no more with something in front. -/
theorem cost_append_le {left left' : List Char}
    (h : ∀ right, cost left right ≤ cost left' right + 1) (before right : List Char) :
    cost (before ++ left) right ≤ cost (before ++ left') right + 1 := by
  induction before generalizing right with
  | nil => exact h right
  | cons c before ih =>
    rw [List.cons_append, List.cons_append]
    induction right with
    | nil =>
      have hrest := ih []
      rw [cost_nil_right, cost_nil_right] at hrest ⊢
      exact Nat.succ_le_succ hrest
    | cons e right ihright =>
      have hrest := ih right
      have hdelete := ih (e :: right)
      rw [cost_cons_cons, cost_cons_cons]
      omega

/-- **One edit changes the cost to any text by at most one.** -/
theorem Edit.cost_le {a b : List Char} (h : Edit a b) (right : List Char) :
    cost a right ≤ cost b right + 1 := by
  cases h with
  | insert before after c =>
    exact cost_append_le (cost_le_cons_left c after) before right
  | delete before after c =>
    exact cost_append_le (cost_cons_left_le c after) before right
  | @substitute before after c d hne =>
    exact cost_append_le (cost_substitute_le c d after) before right

theorem Edits.cost_le {n : Nat} {a b : List Char} (h : Edits n a b) : cost a b ≤ n := by
  induction h with
  | done text => rw [cost_self]
  | @step n a b c hedit _ ih =>
    have hstep := hedit.cost_le c
    omega

/-! ## A shortest way -/

theorem edits_cost (a b : List Char) : Edits (cost a b) a b := by
  induction a generalizing b with
  | nil =>
    induction b with
    | nil =>
      rw [cost_nil_left]
      exact .done []
    | cons d b ih =>
      rw [cost_nil_left] at ih ⊢
      exact .step (.insert [] [] d) (ih.cons d)
  | cons c a iha =>
    induction b with
    | nil =>
      have hrest := iha []
      rw [cost_nil_right] at hrest ⊢
      exact .step (.delete [] a c) hrest
    | cons d b ihb =>
      -- Whichever of the three is least tells the first edit.
      obtain hkeep | hdelete | hinsert :
          cost (c :: a) (d :: b) = cost a b + (if c = d then 0 else 1) ∨
            cost (c :: a) (d :: b) = cost a (d :: b) + 1 ∨
            cost (c :: a) (d :: b) = cost (c :: a) b + 1 := by
        rw [cost_cons_cons]
        omega
      · rw [hkeep]
        by_cases hcd : c = d
        · subst hcd
          rw [if_pos rfl]
          exact (iha b).cons c
        · rw [if_neg hcd]
          exact .step (.substitute [] a hcd) ((iha b).cons d)
      · rw [hdelete]
        exact .step (.delete [] a c) (iha (d :: b))
      · rw [hinsert]
        exact .step (.insert [] (c :: a) d) (ihb.cons d)

/-! ## The cost from the back -/

theorem cost_reverse_le (a b : List Char) : cost a.reverse b.reverse ≤ cost a b :=
  (edits_cost a b).reverse.cost_le

theorem cost_reverse (a b : List Char) : cost a.reverse b.reverse = cost a b := by
  have hback := cost_reverse_le a.reverse b.reverse
  rw [List.reverse_reverse, List.reverse_reverse] at hback
  exact Nat.le_antisymm (cost_reverse_le a b) hback

/-- Texts can as well be compared from the back, which is how the rows go on. -/
theorem cost_concat_concat (c d : Char) (left right : List Char) :
    cost (left ++ [c]) (right ++ [d]) =
      min (cost left right + if c = d then 0 else 1)
        (min (cost left (right ++ [d]) + 1) (cost (left ++ [c]) right + 1)) := by
  rw [← cost_reverse (left ++ [c]) (right ++ [d]), ← cost_reverse left right,
    ← cost_reverse left (right ++ [d]), ← cost_reverse (left ++ [c]) right]
  simp only [List.reverse_append, List.reverse_singleton, List.singleton_append]
  exact cost_cons_cons c d left.reverse right.reverse

/-! ## The two rows -/

section

variable {left right : List Char} {previous current : DistanceRow right} {c : Char} {k : Nat}

/-- The entries up to `k` are the costs from `left` to the prefixes. What the entries after `k` are
is left open: they may be those of an older row. -/
def CountsTo (left : List Char) (k : Nat) (row : DistanceRow right) : Prop :=
  ∀ (j : Nat) (hj : j < right.length + 1), j ≤ k → row[j] = cost left (right.take j)

theorem countsTo_set_zero (row : DistanceRow right) (left : List Char) :
    CountsTo left 0 (row.set 0 left.length (Nat.succ_pos _)) := by
  intro j hj hle
  obtain rfl : j = 0 := Nat.le_zero.mp hle
  rw [Vector.getElem_set_self, List.take_zero, cost_nil_right]

theorem CountsTo.fillEntry (hprevious : CountsTo left right.length previous)
    (hk : k < right.length) (hcurrent : CountsTo (left ++ [c]) k current) :
    CountsTo (left ++ [c]) (k + 1) (fillEntry c previous k hk current) := by
  intro j hj hle
  unfold Text.fillEntry
  by_cases hjk : j ≤ k
  · rw [Vector.getElem_set_ne _ _ (by omega)]
    exact hcurrent j hj hjk
  · obtain rfl : j = k + 1 := by omega
    rw [Vector.getElem_set_self, hprevious k (by omega) (by omega),
      hprevious (k + 1) (by omega) (by omega), hcurrent k (by omega) (Nat.le_refl k),
      ← List.take_append_getElem hk, cost_concat_concat, Nat.min_assoc]

/-- **Only entries that are already written are read**, so a row is filled whatever is in it. -/
theorem CountsTo.fillRow (hprevious : CountsTo left right.length previous)
    (hcurrent : CountsTo (left ++ [c]) 0 current) :
    CountsTo (left ++ [c]) right.length (fillRow c previous current) := by
  have hfilled : ∀ k (hk : k ≤ right.length),
      CountsTo (left ++ [c]) k
        (k.fold (fun j hj => Text.fillEntry c previous j (by omega)) current) := by
    intro k
    induction k with
    | zero => exact fun _ => hcurrent
    | succ k ih =>
      intro hk
      rw [Nat.fold_succ]
      exact hprevious.fillEntry hk (ih (by omega))
  exact hfilled right.length (Nat.le_refl _)

theorem countsTo_read {rows : DistanceRows right} (h : CountsTo left right.length rows.previous)
    (c : Char) : CountsTo (left ++ [c]) right.length (rows.read (c, left.length)).previous := by
  have hfirst := countsTo_set_zero rows.current (left ++ [c])
  rw [List.length_append, List.length_singleton] at hfirst
  exact h.fillRow hfirst

theorem countsTo_start (right : List Char) :
    CountsTo [] right.length (DistanceRows.start right).previous := by
  intro j hj _
  unfold DistanceRows.start
  rw [Vector.getElem_range, cost_nil_left, List.length_take]
  omega

/-- **After any number of characters the row `previous` has the costs of what was read.** -/
theorem countsTo_foldl {rows : DistanceRows right} (text : List Char)
    (h : CountsTo left right.length rows.previous) :
    CountsTo (left ++ text) right.length
      ((text.zipIdx left.length).foldl DistanceRows.read rows).previous := by
  induction text generalizing left rows with
  | nil =>
    rw [List.append_nil]
    exact h
  | cons c text ih =>
    have hrest := ih (countsTo_read h c)
    rw [List.length_append, List.length_singleton, List.append_assoc] at hrest
    exact hrest

end

theorem distance_eq_cost (left right : List Char) : distance left right = cost left right := by
  have hrows := countsTo_foldl left (countsTo_start right)
  have hlast := hrows right.length (Nat.lt_succ_self _) (Nat.le_refl _)
  rw [List.take_length] at hlast
  exact hlast

theorem isLeast_distance (a b : List Char) : IsLeast {n | Edits n a b} (distance a b) := by
  rw [distance_eq_cost]
  exact ⟨edits_cost a b, fun _ h => h.cost_le⟩

/-! ## Distances of texts -/

/-- **The edit distance is the least number of edits that lead from one text to the other.** Hence
it is zero for equal texts only, the same in both directions, and no way over a third text is
shorter. -/
theorem isLeast_editDistance (a b c : String) :
    IsLeast {n | Edits n a.toList b.toList} (editDistance a b) ∧
      (editDistance a b = 0 ↔ a = b) ∧
      editDistance a b = editDistance b a ∧
      editDistance a c ≤ editDistance a b + editDistance b c := by
  refine ⟨isLeast_distance _ _, ?_⟩
  simp only [editDistance, distance_eq_cost]
  refine ⟨⟨fun hzero => ?_, fun heq => ?_⟩, ?_, ?_⟩
  · have hnone := edits_cost a.toList b.toList
    rw [hzero] at hnone
    exact String.toList_inj.mp hnone.eq_of_zero
  · rw [heq, cost_self]
  · exact Nat.le_antisymm (edits_cost _ _).symm.cost_le (edits_cost _ _).symm.cost_le
  · exact ((edits_cost _ _).trans (edits_cost _ _)).cost_le

example : editDistance "kitten" "sitting" = 3 ∧ editDistance "日本" "日本語" = 1 := by decide

end Refactor.Text
