/-!
# Points in a source

A point is a row and a column, both counted from zero and ordered row by row. Users see them
counted from one.
-/

namespace Refactor

/-- A row and a column, counted from zero. -/
structure Point where
  row : Nat
  column : Nat
  deriving DecidableEq, Repr

namespace Point

/-- Row-major order. -/
protected def lt (a b : Point) : Prop :=
  a.row < b.row ∨ (a.row = b.row ∧ a.column < b.column)

/-- Row-major order, equality included. -/
protected def le (a b : Point) : Prop :=
  a.row < b.row ∨ (a.row = b.row ∧ a.column ≤ b.column)

instance : LT Point := ⟨Point.lt⟩

instance : LE Point := ⟨Point.le⟩

instance (a b : Point) : Decidable (a < b) :=
  inferInstanceAs (Decidable (a.row < b.row ∨ (a.row = b.row ∧ a.column < b.column)))

instance (a b : Point) : Decidable (a ≤ b) :=
  inferInstanceAs (Decidable (a.row < b.row ∨ (a.row = b.row ∧ a.column ≤ b.column)))

theorem lt_def {a b : Point} :
    a < b ↔ a.row < b.row ∨ (a.row = b.row ∧ a.column < b.column) := Iff.rfl

theorem le_def {a b : Point} :
    a ≤ b ↔ a.row < b.row ∨ (a.row = b.row ∧ a.column ≤ b.column) := Iff.rfl

theorem le_refl (a : Point) : a ≤ a := by
  rw [le_def]; omega

theorem le_trans {a b c : Point} (h : a ≤ b) (h' : b ≤ c) : a ≤ c := by
  rw [le_def] at *; omega

theorem le_total (a b : Point) : a ≤ b ∨ b ≤ a := by
  rw [le_def, le_def]; omega

theorem le_antisymm {a b : Point} (h : a ≤ b) (h' : b ≤ a) : a = b := by
  cases a; cases b
  simp only [le_def, mk.injEq] at *
  omega

theorem not_lt {a b : Point} : ¬a < b ↔ b ≤ a := by
  rw [lt_def, le_def]; omega

/-- The earlier of two points. -/
def earlier (a b : Point) : Point := if b < a then b else a

/-- The later of two points. -/
def later (a b : Point) : Point := if b < a then a else b

theorem earlier_le_left (a b : Point) : earlier a b ≤ a := by
  unfold earlier
  split
  · rename_i h; rw [lt_def] at h; rw [le_def]; omega
  · exact le_refl a

theorem le_later_left (a b : Point) : a ≤ later a b := by
  unfold later
  split
  · exact le_refl a
  · rename_i h; exact not_lt.mp h

/-- Row and column as users see them, counted from one. -/
def display (p : Point) : String :=
  s!"{p.row + 1}:{p.column + 1}"

end Point

end Refactor
