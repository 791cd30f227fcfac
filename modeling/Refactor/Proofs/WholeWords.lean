import Mathlib.Data.List.Basic
import Refactor.Statement.Words

/-!
# Replacing whole words

`mapWords` says without pieces and tables what substitution does: each maximal run of word
characters is replaced as a whole, and every other character stays.

- `substitute_eq_mapWords`: substitution replaces the words that are identifiers and in the table.
- `Solid.mapWords`: a line that neither starts nor ends with a blank stays such a line when words
  become words, since no word character is a blank (`isBlank_eq_false`).
-/

namespace Refactor.Text

/-! ## Blanks and words -/

/-- The code points of all blanks. -/
def blankPoints : List Nat :=
  [9, 10, 11, 12, 13, 0x20, 0x85, 0xA0, 0x1680, 0x2000, 0x2001, 0x2002, 0x2003, 0x2004, 0x2005,
    0x2006, 0x2007, 0x2008, 0x2009, 0x200A, 0x2028, 0x2029, 0x202F, 0x205F, 0x3000]

theorem toNat_mem_blankPoints {c : Char} (h : isBlank c = true) : c.toNat ∈ blankPoints := by
  simp only [isBlank, Bool.or_eq_true, Bool.and_eq_true, decide_eq_true_eq, beq_iff_eq] at h
  simp only [blankPoints, List.mem_cons, List.not_mem_nil, or_false]
  omega

/-- No word character is a blank. -/
theorem isBlank_eq_false {c : Char} (h : isWordChar c = true) : isBlank c = false := by
  refine Bool.eq_false_iff.mpr fun hblank => ?_
  have hpoints : ∀ n ∈ blankPoints, isWordChar (Char.ofNat n) = false := by decide +kernel
  have hc := hpoints c.toNat (toNat_mem_blankPoints hblank)
  rw [Char.ofNat_toNat, h] at hc
  cases hc

end Refactor.Text

namespace Refactor.Statement

/-! ## Words -/

/-- A word: one or more word characters. -/
def IsWord (chars : List Char) : Prop :=
  chars ≠ [] ∧ ∀ c ∈ chars, Text.isWordChar c = true

/-- The text with every word replaced as a whole. -/
def mapWords (f : List Char → List Char) : List Char → List Char
  | [] => []
  | c :: cs =>
    if Text.isWordChar c then
      f (c :: cs.takeWhile Text.isWordChar) ++ mapWords f (cs.dropWhile Text.isWordChar)
    else c :: mapWords f cs
termination_by cs => cs.length
decreasing_by
  · have hdrop := (List.dropWhile_sublist Text.isWordChar (l := cs)).length_le
    simp only [List.length_cons]
    omega
  · simp

theorem isWord_cons_takeWhile {c : Char} (h : Text.isWordChar c = true) (cs : List Char) :
    IsWord (c :: cs.takeWhile Text.isWordChar) := by
  refine ⟨List.cons_ne_nil _ _, fun d hd => ?_⟩
  rcases List.mem_cons.mp hd with rfl | hd
  · exact h
  · exact List.all_eq_true.mp List.all_takeWhile d hd

/-- What `pieces` does with a whole word. -/
theorem pieces_cons_of_isWordChar {c : Char} (h : Text.isWordChar c = true) (cs : List Char) :
    pieces (c :: cs) =
      .word (c :: cs.takeWhile Text.isWordChar) :: pieces (cs.dropWhile Text.isWordChar) := by
  induction cs generalizing c with
  | nil => simp [pieces, h]
  | cons d ds ih =>
    by_cases hd : Text.isWordChar d = true
    · rw [pieces, if_pos h, ih hd, List.takeWhile_cons_of_pos hd, List.dropWhile_cons_of_pos hd]
    · rw [List.takeWhile_cons_of_neg hd, List.dropWhile_cons_of_neg hd, pieces, if_pos h]
      simp [pieces, hd]

theorem flatMap_pieces {f : List Char → List Char} {g : Piece → List Char}
    (hword : ∀ chars, g (.word chars) = f chars) (hgap : ∀ c, g (.gap c) = [c])
    (cs : List Char) : (pieces cs).flatMap g = mapWords f cs := by
  fun_induction mapWords f cs with
  | case1 => rfl
  | case2 c cs h ih =>
    rw [pieces_cons_of_isWordChar h, List.flatMap_cons, hword, ih]
  | case3 c cs h ih =>
    rw [pieces, if_neg h, List.flatMap_cons, hgap, ih, List.singleton_append]

/-- What a table replaces a word by. -/
def WordTable.wordFor (table : WordTable) (chars : List Char) : List Char :=
  if isIdentifier chars then (table.lookup chars).getD chars else chars

/-- **Substitution replaces whole words.** -/
theorem substitute_eq_mapWords (table : WordTable) (cs : List Char) :
    substitute table cs = mapWords table.wordFor cs := by
  refine flatMap_pieces (fun chars => ?_) (fun c => rfl) cs
  unfold Piece.lookup? WordTable.wordFor Piece.chars
  by_cases h : isIdentifier chars = true
  · simp [h]
  · simp [h]

/-- Words that are replaced alike make the same text. -/
theorem mapWords_congr {f g : List Char → List Char} (h : ∀ chars, IsWord chars → f chars = g chars)
    (cs : List Char) : mapWords f cs = mapWords g cs := by
  fun_induction mapWords f cs with
  | case1 => rw [mapWords]
  | case2 c cs hc ih => rw [mapWords, if_pos hc, ih, h _ (isWord_cons_takeWhile hc cs)]
  | case3 c cs hc ih => rw [mapWords, if_neg hc, ih]

/-! ## Lines without blanks around them -/

/-- A text that neither starts nor ends with a blank, has something in it, and is one line. -/
structure Solid (cs : List Char) : Prop where
  first : ∃ c, cs.head? = some c ∧ Text.isBlank c = false
  last : ∃ c, cs.getLast? = some c ∧ Text.isBlank c = false
  line : '\n' ∉ cs

variable {f : List Char → List Char}

theorem mem_mapWords (hf : ∀ chars, IsWord chars → IsWord (f chars)) {cs : List Char} {d : Char}
    (h : d ∈ mapWords f cs) : d ∈ cs ∨ Text.isWordChar d = true := by
  fun_induction mapWords f cs with
  | case1 => cases h
  | case2 c cs hc ih =>
    rcases List.mem_append.mp h with h | h
    · exact .inr ((hf _ (isWord_cons_takeWhile hc cs)).2 d h)
    · refine (ih h).imp (fun hd => ?_) id
      exact List.mem_cons_of_mem _ ((List.dropWhile_sublist _).subset hd)
  | case3 c cs hc ih =>
    rcases List.mem_cons.mp h with rfl | h
    · exact .inl List.mem_cons_self
    · exact (ih h).imp (List.mem_cons_of_mem _) id

theorem head?_mapWords (hf : ∀ chars, IsWord chars → IsWord (f chars)) {cs : List Char}
    (h : ∃ c, cs.head? = some c ∧ Text.isBlank c = false) :
    ∃ c, (mapWords f cs).head? = some c ∧ Text.isBlank c = false := by
  obtain ⟨first, hfirst, hblank⟩ := h
  obtain ⟨cs, rfl⟩ : ∃ rest, cs = first :: rest := List.head?_eq_some_iff.mp hfirst
  rw [mapWords]
  by_cases hc : Text.isWordChar first = true
  · rw [if_pos hc]
    obtain ⟨hne, hchars⟩ := hf _ (isWord_cons_takeWhile hc cs)
    obtain ⟨d, ds, hd⟩ := List.exists_cons_of_ne_nil hne
    rw [hd] at hchars ⊢
    exact ⟨d, rfl, Text.isBlank_eq_false (hchars d List.mem_cons_self)⟩
  · rw [if_neg hc]
    exact ⟨first, rfl, hblank⟩

theorem getLast?_mapWords (hf : ∀ chars, IsWord chars → IsWord (f chars)) {cs : List Char}
    (h : ∃ c, cs.getLast? = some c ∧ Text.isBlank c = false) :
    ∃ c, (mapWords f cs).getLast? = some c ∧ Text.isBlank c = false := by
  fun_induction mapWords f cs with
  | case1 =>
    obtain ⟨c, hc, -⟩ := h
    cases hc
  | case2 c cs hc ih =>
    cases hrest : cs.dropWhile Text.isWordChar with
    | nil =>
      -- The word is the last thing in the text.
      obtain ⟨hne, hchars⟩ := hf _ (isWord_cons_takeWhile hc cs)
      rw [mapWords, List.append_nil]
      refine ⟨_, List.getLast?_eq_some_getLast hne, ?_⟩
      exact Text.isBlank_eq_false (hchars _ (List.getLast_mem hne))
    | cons d ds =>
      have hsplit : c :: cs = (c :: cs.takeWhile Text.isWordChar) ++ d :: ds := by
        rw [← hrest, List.cons_append, List.takeWhile_append_dropWhile]
      rw [hsplit, List.getLast?_append_cons] at h
      rw [hrest] at ih
      obtain ⟨last, hlast, hblank⟩ := ih h
      refine ⟨last, ?_, hblank⟩
      rw [List.getLast?_append, hlast, Option.some_or]
  | case3 c cs hc ih =>
    cases cs with
    | nil => simpa [mapWords] using h
    | cons d ds =>
      rw [List.getLast?_cons_cons] at h
      obtain ⟨last, hlast, hblank⟩ := ih h
      refine ⟨last, ?_, hblank⟩
      rw [List.getLast?_cons, hlast, Option.getD_some]

/-- **A solid line stays solid when words become words.** -/
theorem Solid.mapWords (hf : ∀ chars, IsWord chars → IsWord (f chars)) {cs : List Char}
    (h : Solid cs) : Solid (mapWords f cs) where
  first := head?_mapWords hf h.first
  last := getLast?_mapWords hf h.last
  line := fun hmem => (mem_mapWords hf hmem).elim h.line (by decide)

end Refactor.Statement
