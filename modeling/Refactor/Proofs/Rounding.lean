import Refactor.Number.Binary64

/-!
# The order of numbers, and rounded shares

Apart from the one that is not a number, numbers are linearly ordered up to the sign of zero.
Every comparison is settled by `position?`, so the laws of the order are those of pairs of
integers.

A share is a quotient of at most one, and rounds to a number between zero and one
(`ofRatio_eq_finite`, `finite_inUnitInterval`). The reason is that one is representable: rounding
to a grid never passes a point of the grid, and one lies on the grid of every smaller number.
-/

namespace Refactor.Binary64

variable {a b c : Binary64}

/-! ## The order -/

theorem exists_position (ha : a ≠ nan) : ∃ p, a.position? = some p := by
  cases a with
  | nan => exact absurd rfl ha
  | infinite negative => exact ⟨_, rfl⟩
  | finite negative units => exact ⟨_, rfl⟩

theorem lt_iff : a.lt b = true ↔ ∃ p q, a.position? = some p ∧ b.position? = some q ∧
    (p.1 < q.1 ∨ p.1 = q.1 ∧ p.2 < q.2) := by
  unfold lt
  split
  · rename_i p q hp hq
    simp [hp, hq]
  · rename_i hnone
    simp only [Bool.false_eq_true, false_iff]
    rintro ⟨p, q, hp, hq, -⟩
    exact hnone p q hp hq

theorem le_iff : a.le b = true ↔ ∃ p q, a.position? = some p ∧ b.position? = some q ∧
    (p.1 < q.1 ∨ p.1 = q.1 ∧ p.2 ≤ q.2) := by
  unfold le
  split
  · rename_i p q hp hq
    simp [hp, hq]
  · rename_i hnone
    simp only [Bool.false_eq_true, false_iff]
    rintro ⟨p, q, hp, hq, -⟩
    exact hnone p q hp hq

theorem ne_nan_of_le_left (h : a.le b = true) : a ≠ nan := by
  rintro rfl
  obtain ⟨p, _, hp, -⟩ := le_iff.mp h
  cases hp

theorem le_of_lt (h : a.lt b = true) : a.le b = true := by
  obtain ⟨p, q, hp, hq, hpq⟩ := lt_iff.mp h
  exact le_iff.mpr ⟨p, q, hp, hq, hpq.imp id fun h => ⟨h.1, Int.le_of_lt h.2⟩⟩

theorem lt_of_not_le (ha : a ≠ nan) (hb : b ≠ nan) (h : ¬ a.le b = true) : b.lt a = true := by
  obtain ⟨p, hp⟩ := exists_position ha
  obtain ⟨q, hq⟩ := exists_position hb
  refine lt_iff.mpr ⟨q, p, hq, hp, ?_⟩
  have hpq : ¬ (p.1 < q.1 ∨ p.1 = q.1 ∧ p.2 ≤ q.2) := fun hpq => h (le_iff.mpr ⟨p, q, hp, hq, hpq⟩)
  omega

theorem le_of_not_lt (ha : a ≠ nan) (hb : b ≠ nan) (h : ¬ a.lt b = true) : b.le a = true := by
  obtain ⟨p, hp⟩ := exists_position ha
  obtain ⟨q, hq⟩ := exists_position hb
  refine le_iff.mpr ⟨q, p, hq, hp, ?_⟩
  have hpq : ¬ (p.1 < q.1 ∨ p.1 = q.1 ∧ p.2 < q.2) := fun hpq => h (lt_iff.mpr ⟨p, q, hp, hq, hpq⟩)
  omega

theorem lt_of_le_of_lt (hab : a.le b = true) (hbc : b.lt c = true) : a.lt c = true := by
  obtain ⟨p, q, hp, hq, hpq⟩ := le_iff.mp hab
  obtain ⟨q', r, hq', hr, hqr⟩ := lt_iff.mp hbc
  cases hq.symm.trans hq'
  exact lt_iff.mpr ⟨p, r, hp, hr, by omega⟩

theorem lt_of_lt_of_le (hab : a.lt b = true) (hbc : b.le c = true) : a.lt c = true := by
  obtain ⟨p, q, hp, hq, hpq⟩ := lt_iff.mp hab
  obtain ⟨q', r, hq', hr, hqr⟩ := le_iff.mp hbc
  cases hq.symm.trans hq'
  exact lt_iff.mpr ⟨p, r, hp, hr, by omega⟩

/-- A number that misses a bound lies below every number that reaches it. -/
theorem lt_of_not_le_of_le (hb : b ≠ nan) (hab : ¬ a.le b = true) (hac : a.le c = true) :
    b.lt c = true :=
  lt_of_lt_of_le (lt_of_not_le (ne_nan_of_le_left hac) hb hab) hac

theorem le_finite {m n : Nat} : (finite false m).le (finite false n) = true ↔ m ≤ n := by
  simp [le, position?]

theorem not_zero_lt_zero : ¬ zero.lt zero = true := by
  decide

/-- Of the numbers without a sign only zero does not exceed zero. -/
theorem eq_zero_of_not_zero_lt {n : Nat} (h : ¬ zero.lt (finite false n) = true) :
    finite false n = zero := by
  have hn : n = 0 := by simpa [zero, lt, position?] using h
  rw [hn, zero]

/-! ## Rounding -/

/-- Rounding never passes a whole number. -/
theorem roundDiv_le {num den k : Nat} (hden : 0 < den) (h : num ≤ k * den) :
    roundDiv num den ≤ k := by
  have hle : num / den ≤ k := Nat.div_le_of_le_mul (by rwa [Nat.mul_comm])
  rcases Nat.lt_or_eq_of_le hle with hlt | heq
  · unfold roundDiv
    dsimp only
    split <;> omega
  · -- The quotient is exact, so nothing is left to round up.
    have hsplit := Nat.div_add_mod num den
    rw [heq, Nat.mul_comm] at hsplit
    have hrest : num % den = 0 := by omega
    unfold roundDiv
    dsimp only
    rw [hrest, if_neg (by omega)]
    exact hle

theorem placeOf_le {units k : Nat} (h : units ≤ Nat.pow 2 k) : placeOf units ≤ k := by
  unfold placeOf
  split
  · omega
  · rename_i hne
    have hlog : units.log2 < k + 1 := by
      rw [Nat.log2_lt hne]
      exact Nat.lt_of_le_of_lt h (Nat.pow_lt_pow_right (by decide) (Nat.lt_succ_self k))
    omega

/-- Rounding to the places of a significand never passes a power of two. -/
theorem roundUnits_le_pow {num den bound k : Nat} (hbound : bound = Nat.pow 2 k) (hden : 0 < den)
    (h : num ≤ den * bound) : roundUnits num den ≤ bound := by
  subst hbound
  have hplace : placeOf (num / den) ≤ k := placeOf_le (Nat.div_le_of_le_mul h)
  have hsplit : Nat.pow 2 k =
      Nat.pow 2 (k - placeOf (num / den)) * Nat.pow 2 (placeOf (num / den)) := by
    show 2 ^ k = 2 ^ (k - placeOf (num / den)) * 2 ^ placeOf (num / den)
    rw [← Nat.pow_add, Nat.sub_add_cancel hplace]
  unfold roundUnits
  dsimp only
  rw [hsplit]
  refine Nat.mul_le_mul_right _ (roundDiv_le (Nat.mul_pos hden (Nat.two_pow_pos _)) ?_)
  rw [Nat.mul_left_comm, ← hsplit]
  exact h

theorem roundDiv_mul (k : Nat) {den : Nat} (hden : 0 < den) : roundDiv (k * den) den = k := by
  unfold roundDiv
  dsimp only
  rw [Nat.mul_mod_left, Nat.mul_div_cancel k hden, if_neg (by omega)]

/-- A power of two is its own nearest representable number. -/
theorem roundUnits_mul_pow {den bound k : Nat} (hbound : bound = Nat.pow 2 k) (hden : 0 < den) :
    roundUnits (den * bound) den = bound := by
  subst hbound
  have hplace : placeOf (Nat.pow 2 k) ≤ k := placeOf_le (Nat.le_refl _)
  have hsplit : Nat.pow 2 k =
      Nat.pow 2 (k - placeOf (Nat.pow 2 k)) * Nat.pow 2 (placeOf (Nat.pow 2 k)) := by
    show 2 ^ k = 2 ^ (k - placeOf (Nat.pow 2 k)) * 2 ^ placeOf (Nat.pow 2 k)
    rw [← Nat.pow_add, Nat.sub_add_cancel hplace]
  have hexact : den * Nat.pow 2 k = Nat.pow 2 (k - placeOf (Nat.pow 2 k)) *
      (den * Nat.pow 2 (placeOf (Nat.pow 2 k))) := by
    rw [Nat.mul_left_comm, ← hsplit]
  have hpos : 0 < den * Nat.pow 2 (placeOf (Nat.pow 2 k)) :=
    Nat.mul_pos hden (Nat.two_pow_pos _)
  unfold roundUnits
  dsimp only
  rw [Nat.mul_div_cancel_left _ hden, hexact, roundDiv_mul _ hpos, ← hsplit]

theorem roundUnits_zero (den : Nat) : roundUnits 0 den = 0 := by
  simp [roundUnits, roundDiv]

/-! ## Shares -/

theorem one_eq : one = finite false oneUnits := by
  decide +kernel

/-- A share rounds to a finite number of at most as many units as one has. -/
theorem ofRatio_eq_finite {num den : Nat} (hden : 0 < den) (h : num ≤ den) :
    ∃ units, units ≤ oneUnits ∧ ofRatio num den = finite false units := by
  obtain ⟨k, hk⟩ : ∃ k, oneUnits = Nat.pow 2 k := ⟨1074, by decide +kernel⟩
  have hle : roundUnits (num * oneUnits) den ≤ oneUnits :=
    roundUnits_le_pow hk hden (Nat.mul_le_mul_right oneUnits h)
  have hlimit : oneUnits < limitUnits := by decide +kernel
  refine ⟨roundUnits (num * oneUnits) den, hle, ?_⟩
  rw [ofRatio, ofUnits, if_pos (Nat.lt_of_le_of_lt hle hlimit)]

theorem finite_inUnitInterval {units : Nat} (h : units ≤ oneUnits) :
    (finite false units).inUnitInterval = true := by
  rw [inUnitInterval, Bool.and_eq_true]
  refine ⟨le_finite.mpr (Nat.zero_le _), ?_⟩
  rw [one_eq]
  exact le_finite.mpr h

/-- No part is no share. -/
theorem ofRatio_zero (den : Nat) : ofRatio 0 den = zero := by
  have hlimit : 0 < limitUnits := by decide +kernel
  rw [ofRatio, Nat.zero_mul, roundUnits_zero, ofUnits, if_pos hlimit, zero]

/-- All parts are one. -/
theorem ofRatio_self {den : Nat} (hden : 0 < den) : ofRatio den den = one := by
  obtain ⟨k, hk⟩ : ∃ k, oneUnits = Nat.pow 2 k := ⟨1074, by decide +kernel⟩
  have hlimit : oneUnits < limitUnits := by decide +kernel
  rw [ofRatio, roundUnits_mul_pow hk hden, ofUnits, if_pos hlimit, one_eq]

end Refactor.Binary64
