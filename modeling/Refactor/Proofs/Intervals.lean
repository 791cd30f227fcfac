import Refactor.Location
import Refactor.Proofs.Arena

/-!
# Locations are intervals

**Theorem (`interval_algebra`).** Every location can be made from its parts. Two locations overlap
exactly if they share a point of one file. Containment is a preorder in which only the kinds of
equivalent locations may differ, and the merge of two locations is their join in it. Starting before
is a strict order. The lengths are true differences: nothing is cut off at zero.

An interval does not end before it starts, so a location contains another one if it starts no later
and ends no earlier (`contains_iff`): the four comparisons that are made come down to two. Of two
intervals that meet, the later start lies in both (`overlaps_iff`).
-/

namespace Refactor

namespace Point

theorem le_earlier_iff {p a b : Point} : p ≤ earlier a b ↔ p ≤ a ∧ p ≤ b := by
  unfold earlier
  split
  · rename_i h
    exact ⟨fun hp => ⟨le_trans hp (le_of_lt h), hp⟩, And.right⟩
  · rename_i h
    exact ⟨fun hp => ⟨hp, le_trans hp (not_lt.mp h)⟩, And.left⟩

theorem later_le_iff {p a b : Point} : later a b ≤ p ↔ a ≤ p ∧ b ≤ p := by
  unfold later
  split
  · rename_i h
    exact ⟨fun hp => ⟨hp, le_trans (le_of_lt h) hp⟩, And.left⟩
  · rename_i h
    exact ⟨fun hp => ⟨le_trans (not_lt.mp h) hp, hp⟩, And.right⟩

theorem lt_trans {a b c : Point} (h : a < b) (h' : b < c) : a < c :=
  lt_of_lt_of_le h (le_of_lt h')

end Point

namespace Location

variable {a b c : Location}

/-- Every location is made from its own parts, and from no others. -/
theorem new_eq_ok_iff {file : String} {start stop : Point} {kind : ElementKind} {l : Location} :
    new file start stop kind = .ok l ↔
      file = l.file ∧ start = l.start ∧ stop = l.stop ∧ kind = l.kind := by
  constructor
  · intro h
    unfold new at h
    split at h
    · cases h
    · split at h
      · cases h
        exact ⟨rfl, rfl, rfl, rfl⟩
      · cases h
  · rintro ⟨rfl, rfl, rfl, rfl⟩
    rw [new, dif_neg l.file_ne, dif_pos l.start_le]

/-! ## Points in common -/

theorem containsPoint_iff {l : Location} {p : Point} :
    l.containsPoint p ↔ l.start ≤ p ∧ p ≤ l.stop := by
  simp only [containsPoint, Bool.and_eq_true, decide_eq_true_eq]

theorem containsPoint_start (l : Location) : l.containsPoint l.start :=
  containsPoint_iff.mpr ⟨Point.le_refl _, l.start_le⟩

theorem containsPoint_stop (l : Location) : l.containsPoint l.stop :=
  containsPoint_iff.mpr ⟨l.start_le, Point.le_refl _⟩

/-- **Locations overlap exactly if they share a point of one file.** -/
theorem overlaps_iff :
    a.overlaps b ↔ a.file = b.file ∧ ∃ p, a.containsPoint p ∧ b.containsPoint p := by
  simp only [overlaps, Bool.and_eq_true, Bool.or_eq_true, beq_iff_eq]
  refine and_congr_right fun _ => ⟨?_, ?_⟩
  · rintro (((h | h) | h) | h)
    · exact ⟨b.start, h, b.containsPoint_start⟩
    · exact ⟨b.stop, h, b.containsPoint_stop⟩
    · exact ⟨a.start, a.containsPoint_start, h⟩
    · exact ⟨a.stop, a.containsPoint_stop, h⟩
  · rintro ⟨p, ha, hb⟩
    obtain ⟨hstart, hstop⟩ := containsPoint_iff.mp ha
    obtain ⟨hstart', hstop'⟩ := containsPoint_iff.mp hb
    -- The later start is no later than the point in common, so it lies in both.
    rcases Point.le_total a.start b.start with hle | hle
    · exact .inl (.inl (.inl (containsPoint_iff.mpr ⟨hle, Point.le_trans hstart' hstop⟩)))
    · exact .inl (.inr (containsPoint_iff.mpr ⟨hle, Point.le_trans hstart hstop'⟩))

theorem overlaps_comm (a b : Location) : a.overlaps b = b.overlaps a := by
  rw [Bool.eq_iff_iff, overlaps_iff, overlaps_iff, eq_comm]
  simp only [and_comm]

/-! ## Containment -/

theorem contains_iff :
    a.contains b ↔ a.file = b.file ∧ a.start ≤ b.start ∧ b.stop ≤ a.stop := by
  simp only [contains, Bool.and_eq_true, beq_iff_eq, containsPoint_iff, and_assoc]
  refine and_congr_right fun _ => ⟨fun h => ⟨h.1, h.2.2.2⟩, fun h => ⟨h.1, ?_, ?_, h.2⟩⟩
  · exact Point.le_trans b.start_le h.2
  · exact Point.le_trans h.1 b.start_le

theorem contains_refl (l : Location) : l.contains l :=
  contains_iff.mpr ⟨rfl, Point.le_refl _, Point.le_refl _⟩

theorem contains_trans (h : a.contains b) (h' : b.contains c) : a.contains c := by
  obtain ⟨hfile, hstart, hstop⟩ := contains_iff.mp h
  obtain ⟨hfile', hstart', hstop'⟩ := contains_iff.mp h'
  exact contains_iff.mpr
    ⟨hfile.trans hfile', Point.le_trans hstart hstart', Point.le_trans hstop' hstop⟩

/-- Locations that contain each other are the same but for their kinds. -/
theorem contains_antisymm (h : a.contains b) (h' : b.contains a) :
    a.file = b.file ∧ a.start = b.start ∧ a.stop = b.stop := by
  obtain ⟨hfile, hstart, hstop⟩ := contains_iff.mp h
  obtain ⟨-, hstart', hstop'⟩ := contains_iff.mp h'
  exact ⟨hfile, Point.le_antisymm hstart hstart', Point.le_antisymm hstop' hstop⟩

/-- **The merge is the join**: what contains it is what contains both. -/
theorem exists_merge (h : a.file = b.file) :
    ∃ m, a.merge b = .ok m ∧ ∀ l : Location, l.contains m ↔ l.contains a ∧ l.contains b := by
  refine ⟨_, by rw [merge, if_pos h], fun l => ?_⟩
  simp only [contains_iff, Point.le_earlier_iff, Point.later_le_iff, ← h]
  constructor
  · rintro ⟨hfile, ⟨hstart, hstart'⟩, hstop, hstop'⟩
    exact ⟨⟨hfile, hstart, hstop⟩, hfile, hstart', hstop'⟩
  · rintro ⟨⟨hfile, hstart, hstop⟩, -, hstart', hstop'⟩
    exact ⟨hfile, ⟨hstart, hstart'⟩, hstop, hstop'⟩

/-! ## Order -/

theorem isBefore_iff :
    a.isBefore b ↔ a.file < b.file ∨ a.file = b.file ∧ a.start < b.start := by
  unfold isBefore
  split
  · rename_i h
    rw [h, decide_eq_true_eq]
    exact ⟨fun hlt => .inr ⟨rfl, hlt⟩,
      fun hor => hor.elim (fun hlt => absurd hlt (String.lt_irrefl _)) And.right⟩
  · rename_i h
    simp [h]

theorem not_isBefore_self (l : Location) : ¬ l.isBefore l := by
  rw [isBefore_iff]
  rintro (h | ⟨-, h⟩)
  · exact String.lt_irrefl _ h
  · exact Point.lt_irrefl _ h

theorem isBefore_trans (h : a.isBefore b) (h' : b.isBefore c) : a.isBefore c := by
  rw [isBefore_iff] at *
  rcases h with h | ⟨hfile, h⟩
  · rcases h' with h' | ⟨hfile', -⟩
    · exact .inl (String.lt_trans h h')
    · exact .inl (hfile' ▸ h)
  · rcases h' with h' | ⟨hfile', h'⟩
    · exact .inl (hfile ▸ h')
    · exact .inr ⟨hfile.trans hfile', Point.lt_trans h h'⟩

/-! ## Lengths -/

theorem row_le (l : Location) : l.start.row ≤ l.stop.row := by
  have h := l.start_le
  rw [Point.le_def] at h
  omega

theorem column_le {l : Location} (h : l.start.row = l.stop.row) :
    l.start.column ≤ l.stop.column := by
  have hle := l.start_le
  rw [Point.le_def] at hle
  omega

/-- The columns are compared only where an interval ends in the row where it starts. -/
theorem columnLength_cases (l : Location) :
    (l.start.row = l.stop.row ∧ l.start.column ≤ l.stop.column ∧
        ∃ width, l.columnLength = .ok width ∧ l.start.column + width = l.stop.column) ∨
      l.start.row ≠ l.stop.row ∧ ∃ e, l.columnLength = .error e := by
  by_cases h : l.start.row = l.stop.row
  · have hle := column_le h
    refine .inl ⟨h, hle, _, by rw [columnLength, if_pos h], ?_⟩
    exact Nat.add_sub_cancel' hle
  · exact .inr ⟨h, _, by rw [columnLength, if_neg h]⟩

theorem add_rowLength (l : Location) : l.start.row + l.rowLength = l.stop.row + 1 := by
  rw [rowLength, ← Nat.add_assoc, Nat.add_sub_cancel' l.row_le]

/-- **Locations are intervals** with respect to overlap, containment, merge, order and length. -/
theorem interval_algebra (a b c : Location) :
    (∀ file start stop kind, new file start stop kind = .ok a ↔
        file = a.file ∧ start = a.start ∧ stop = a.stop ∧ kind = a.kind) ∧
      (a.overlaps b ↔ a.file = b.file ∧ ∃ p, a.containsPoint p ∧ b.containsPoint p) ∧
      a.overlaps b = b.overlaps a ∧
      (a.contains a ∧ (a.contains b → b.contains c → a.contains c) ∧
        (a.contains b → b.contains a → a.file = b.file ∧ a.start = b.start ∧ a.stop = b.stop)) ∧
      (a.file = b.file → ∃ m, a.merge b = .ok m ∧ m.start ≤ m.stop ∧
        m.contains a ∧ m.contains b ∧ ∀ l : Location, l.contains a → l.contains b → l.contains m) ∧
      (a.file ≠ b.file → a.merge b = .error (.differentFiles a.file b.file)) ∧
      (¬ a.isBefore a ∧ (a.isBefore b → b.isBefore c → a.isBefore c)) ∧
      (a.start.row ≤ a.stop.row ∧ a.start.row + a.rowLength = a.stop.row + 1) ∧
      ((a.start.row = a.stop.row ∧ a.start.column ≤ a.stop.column ∧
          ∃ width, a.columnLength = .ok width ∧ a.start.column + width = a.stop.column) ∨
        a.start.row ≠ a.stop.row ∧ ∃ e, a.columnLength = .error e) := by
  refine ⟨fun _ _ _ _ => new_eq_ok_iff, overlaps_iff, overlaps_comm a b,
    ⟨a.contains_refl, contains_trans, contains_antisymm⟩, fun hfile => ?_, fun hfile => ?_,
    ⟨a.not_isBefore_self, isBefore_trans⟩, ⟨a.row_le, a.add_rowLength⟩, a.columnLength_cases⟩
  · obtain ⟨m, hmerge, hleast⟩ := exists_merge hfile
    obtain ⟨hleft, hright⟩ := (hleast m).mp m.contains_refl
    exact ⟨m, hmerge, m.start_le, hleft, hright, fun l ha hb => (hleast l).mpr ⟨ha, hb⟩⟩
  · rw [merge, if_neg hfile]

/-- An interval of several rows, one inside it, an empty one at the end of that, a comment with the
span of the first and one in another file. -/
theorem interval_algebra_nested :
    ∃ outer inner empty twin other : Location,
      new "a.py" ⟨1, 4⟩ ⟨4, 2⟩ .methodDeclaration = .ok outer ∧
      new "a.py" ⟨1, 9⟩ ⟨3, 1⟩ .comment = .ok inner ∧
      new "a.py" ⟨3, 1⟩ ⟨3, 1⟩ .comment = .ok empty ∧
      new "a.py" ⟨1, 4⟩ ⟨4, 2⟩ .comment = .ok twin ∧
      new "b.py" ⟨1, 4⟩ ⟨4, 2⟩ .comment = .ok other ∧
      (outer.contains inner ∧ inner.contains empty ∧ outer.contains empty) ∧
      (outer.contains twin ∧ twin.contains outer ∧ outer.start = twin.start) ∧
      (outer.isBefore inner ∧ inner.isBefore empty ∧ outer.isBefore empty) ∧
      (∃ m, inner.merge empty = .ok m ∧ outer.contains m) ∧
      outer.merge other = .error (.differentFiles "a.py" "b.py") := by
  let outer : Location := ⟨"a.py", ⟨1, 4⟩, ⟨4, 2⟩, .methodDeclaration, by decide, by decide⟩
  let inner : Location := ⟨"a.py", ⟨1, 9⟩, ⟨3, 1⟩, .comment, by decide, by decide⟩
  let empty : Location := ⟨"a.py", ⟨3, 1⟩, ⟨3, 1⟩, .comment, by decide, by decide⟩
  let twin : Location := { outer with kind := .comment }
  let other : Location := ⟨"b.py", ⟨1, 4⟩, ⟨4, 2⟩, .comment, by decide, by decide⟩
  have hinner : outer.contains inner := contains_iff.mpr ⟨rfl, by decide, by decide⟩
  have hempty : inner.contains empty := contains_iff.mpr ⟨rfl, by decide, by decide⟩
  have htwin : outer.contains twin := contains_iff.mpr ⟨rfl, by decide, by decide⟩
  have houter : twin.contains outer := contains_iff.mpr ⟨rfl, by decide, by decide⟩
  have hbefore : outer.isBefore inner := isBefore_iff.mpr (.inr ⟨rfl, by decide⟩)
  have hbefore' : inner.isBefore empty := isBefore_iff.mpr (.inr ⟨rfl, by decide⟩)
  obtain ⟨-, -, -, ⟨-, htrans, -⟩, -, -, ⟨-, horder⟩, -⟩ := interval_algebra outer inner empty
  obtain ⟨-, -, -, ⟨-, -, hsame⟩, -⟩ := interval_algebra outer twin empty
  obtain ⟨-, -, -, -, hmerge, -⟩ := interval_algebra inner empty outer
  obtain ⟨-, -, -, -, -, hapart, -⟩ := interval_algebra outer other empty
  obtain ⟨m, hm, -, -, -, hleast⟩ := hmerge rfl
  exact ⟨outer, inner, empty, twin, other, rfl, rfl, rfl, rfl, rfl,
    ⟨hinner, hempty, htrans hinner hempty⟩, ⟨htwin, houter, (hsame htwin houter).2.1⟩,
    ⟨hbefore, hbefore', horder hbefore hbefore'⟩,
    ⟨m, hm, hleast outer hinner (htrans hinner hempty)⟩, hapart (by decide)⟩

end Location

end Refactor
