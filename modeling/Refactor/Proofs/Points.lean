import Refactor.Proofs.TextCuts
import Refactor.Syntax.Tree

/-!
# Points

`pointFrom` finds row and column of an offset while it reads on, character by character.

- `pointAt_strictMono`: a later offset has a later point, also where an offset lies inside of a
  character. So different offsets have different points (`pointAt_injective`).
- `pointAt_eq`: the row is the number of line feeds among the bytes before the offset, and the
  column is what lies between the offset and the start of the line, right behind the last of them.
  No byte of another character can be taken for a line feed (`lineFeed_not_mem_utf8EncodeChar`).
-/

namespace Refactor

/-! ## The order of points -/

namespace Point

theorem le_of_lt {a b : Point} (h : a < b) : a ≤ b := by
  rw [lt_def] at h
  rw [le_def]
  omega

theorem lt_of_lt_of_le {a b c : Point} (h : a < b) (h' : b ≤ c) : a < c := by
  rw [lt_def] at *
  rw [le_def] at h'
  omega

theorem lt_irrefl (a : Point) : ¬ a < a := by
  rw [lt_def]
  omega

end Point

namespace Text

/-- Reading on never goes back. -/
theorem le_pointFrom (row column n : Nat) (cs : List Char) :
    (⟨row, column⟩ : Point) ≤ ⟨(pointFrom row column n cs).1, (pointFrom row column n cs).2⟩ := by
  fun_induction pointFrom row column n cs with
  | case1 row column cs => exact Point.le_refl _
  | case2 row column n => exact .inr ⟨rfl, Nat.le_add_right _ _⟩
  | case3 row column n c cs hinside => exact .inr ⟨rfl, Nat.le_add_right _ _⟩
  | case4 row column n cs hinside ih => exact Point.le_trans (.inl (Nat.lt_succ_self row)) ih
  | case5 row column n c cs hinside hline ih =>
    have hcolumn : (⟨row, column⟩ : Point) ≤ ⟨row, column + c.utf8Size⟩ :=
      .inr ⟨rfl, Nat.le_add_right _ _⟩
    exact Point.le_trans hcolumn ih

/-- A further byte leads to a later point. -/
theorem lt_pointFrom_succ (row column n : Nat) (cs : List Char) :
    (⟨row, column⟩ : Point) <
      ⟨(pointFrom row column (n + 1) cs).1, (pointFrom row column (n + 1) cs).2⟩ := by
  cases cs with
  | nil => exact .inr ⟨rfl, by simp only [pointFrom]; omega⟩
  | cons c cs =>
    rw [pointFrom]
    split
    · exact .inr ⟨rfl, by dsimp only; omega⟩
    · split
      · exact Point.lt_of_lt_of_le (.inl (Nat.lt_succ_self row)) (le_pointFrom _ _ _ cs)
      · have hsize := c.utf8Size_pos
        have hcolumn : (⟨row, column⟩ : Point) < ⟨row, column + c.utf8Size⟩ :=
          .inr ⟨rfl, by dsimp only; omega⟩
        exact Point.lt_of_lt_of_le hcolumn (le_pointFrom _ _ _ cs)

theorem pointFrom_strictMono (row column : Nat) {m n : Nat} (h : m < n) (cs : List Char) :
    (⟨(pointFrom row column m cs).1, (pointFrom row column m cs).2⟩ : Point) <
      ⟨(pointFrom row column n cs).1, (pointFrom row column n cs).2⟩ := by
  obtain ⟨n, rfl⟩ : ∃ k, n = k + 1 := ⟨n - 1, by omega⟩
  fun_induction pointFrom row column m cs generalizing n with
  | case1 row column cs => exact lt_pointFrom_succ row column n cs
  | case2 row column m => exact .inr ⟨rfl, by simpa [pointFrom] using h⟩
  | case3 row column m c cs hinside =>
    rw [pointFrom]
    split
    · exact .inr ⟨rfl, by simpa using h⟩
    · -- The later offset lies behind the character, which is no line feed since it has several
      -- bytes.
      have hline : c ≠ '\n' := by
        rintro rfl
        have hsize : '\n'.utf8Size = 1 := by decide
        omega
      have hcolumn : (⟨row, column + (m + 1)⟩ : Point) < ⟨row, column + c.utf8Size⟩ :=
        .inr ⟨rfl, Nat.add_lt_add_left hinside column⟩
      rw [if_neg hline]
      exact Point.lt_of_lt_of_le hcolumn (le_pointFrom row _ _ cs)
  | case4 row column m cs hinside ih =>
    have hsize : '\n'.utf8Size = 1 := by decide
    rw [pointFrom, if_neg (by omega), if_pos rfl]
    obtain ⟨k, hk⟩ : ∃ k, n + 1 - '\n'.utf8Size = k + 1 := ⟨n - 1, by omega⟩
    rw [hk]
    exact ih k (by omega)
  | case5 row column m c cs hinside hline ih =>
    rw [pointFrom, if_neg (by omega), if_neg hline]
    obtain ⟨k, hk⟩ : ∃ k, n + 1 - c.utf8Size = k + 1 := ⟨n - c.utf8Size, by omega⟩
    rw [hk]
    exact ih k (by omega)

/-! ## Rows and columns in bytes -/

/-- The bytes of a text. -/
def encoded (cs : List Char) : List UInt8 :=
  cs.flatMap String.utf8EncodeChar

/-- The byte that a line feed is. -/
def lineFeed : UInt8 := 0x0A

/-- Where the last of some lines starts: behind the last line feed, or with the first byte. -/
def lineStart (bytes : List UInt8) : Nat :=
  match bytes.reverse.findIdx? (· == lineFeed) with
  | some k => bytes.length - k
  | none => 0

theorem findIdx?_reverse_of_not_mem {bytes : List UInt8} (h : lineFeed ∉ bytes) :
    bytes.reverse.findIdx? (· == lineFeed) = none := by
  refine List.findIdx?_eq_none_iff.mpr fun b hb => ?_
  rw [beq_eq_false_iff_ne]
  rintro rfl
  exact h (List.mem_reverse.mp hb)

theorem lineStart_of_not_mem {bytes : List UInt8} (h : lineFeed ∉ bytes) : lineStart bytes = 0 := by
  rw [lineStart, findIdx?_reverse_of_not_mem h]

theorem lineStart_append_of_not_mem (front : List UInt8) {back : List UInt8}
    (h : lineFeed ∉ back) : lineStart (front ++ back) = lineStart front := by
  simp only [lineStart, List.reverse_append, List.findIdx?_append, findIdx?_reverse_of_not_mem h,
    Option.none_or, List.length_append, List.length_reverse]
  cases front.reverse.findIdx? (· == lineFeed) with
  | none => rfl
  | some k => simp only [Option.map_some]; omega

theorem lineStart_append_of_mem (front : List UInt8) {back : List UInt8} (h : lineFeed ∈ back) :
    lineStart (front ++ back) = front.length + lineStart back := by
  cases hfound : back.reverse.findIdx? (· == lineFeed) with
  | none =>
    have hnot := List.findIdx?_eq_none_iff.mp hfound lineFeed (List.mem_reverse.mpr h)
    simp at hnot
  | some k =>
    obtain ⟨hk, -⟩ := List.findIdx?_eq_some_iff_getElem.mp hfound
    rw [List.length_reverse] at hk
    simp only [lineStart, List.reverse_append, List.findIdx?_append, hfound, Option.some_or,
      List.length_append]
    omega

/-- The bytes of a character beyond ASCII are beyond ASCII, too. -/
theorem le_toNat_of_mem_utf8EncodeChar {c : Char} (hc : 0x80 ≤ c.toNat) {b : UInt8}
    (hb : b ∈ String.utf8EncodeChar c) : 0x80 ≤ b.toNat := by
  have hvalue : 0x80 ≤ c.val.toNat := hc
  unfold String.utf8EncodeChar at hb
  rw [if_neg (by omega)] at hb
  split at hb
  · simp only [List.mem_cons, List.not_mem_nil, or_false] at hb
    rcases hb with rfl | rfl <;> simp only [UInt8.toNat_ofNat'] <;> omega
  · split at hb
    · simp only [List.mem_cons, List.not_mem_nil, or_false] at hb
      rcases hb with rfl | rfl | rfl <;> simp only [UInt8.toNat_ofNat'] <;> omega
    · simp only [List.mem_cons, List.not_mem_nil, or_false] at hb
      rcases hb with rfl | rfl | rfl | rfl <;> simp only [UInt8.toNat_ofNat'] <;> omega

/-- No other character has the byte of a line feed. -/
theorem lineFeed_not_mem_utf8EncodeChar {c : Char} (hc : c ≠ '\n') :
    lineFeed ∉ String.utf8EncodeChar c := by
  intro hmem
  have hfeed : lineFeed.toNat = 10 := rfl
  have hsmall : c.val.toNat ≤ 0x7F := by
    rcases Nat.lt_or_ge c.val.toNat 0x80 with hlt | hge
    · exact Nat.le_of_lt_succ hlt
    · have hbyte := le_toNat_of_mem_utf8EncodeChar hge hmem
      omega
  unfold String.utf8EncodeChar at hmem
  rw [if_pos hsmall, List.mem_singleton] at hmem
  have hbyte := congrArg UInt8.toNat hmem
  rw [UInt8.toNat_ofNat', hfeed] at hbyte
  have hvalue : c.val.toNat = '\n'.val.toNat := by
    change _ = 10
    omega
  exact hc (Char.ext (UInt32.toNat_inj.mp hvalue))

theorem take_encoded_cons {c : Char} {n : Nat} (h : c.utf8Size ≤ n) (cs : List Char) :
    (encoded (c :: cs)).take n =
      String.utf8EncodeChar c ++ (encoded cs).take (n - c.utf8Size) := by
  rw [encoded, List.flatMap_cons, List.take_append, String.length_utf8EncodeChar,
    List.take_of_length_le (by rwa [String.length_utf8EncodeChar]), encoded]

theorem pointFrom_eq (row column : Nat) {n : Nat} {cs : List Char} (h : n ≤ byteLength cs) :
    pointFrom row column n cs =
      (row + ((encoded cs).take n).count lineFeed,
        if lineFeed ∈ (encoded cs).take n then n - lineStart ((encoded cs).take n)
        else column + n) := by
  fun_induction pointFrom row column n cs with
  | case1 row column cs => simp
  | case2 row column n => simp [byteLength] at h
  | case3 row column n c cs hinside =>
    have hline : c ≠ '\n' := by
      rintro rfl
      have hsize : '\n'.utf8Size = 1 := by decide
      omega
    have hnot : lineFeed ∉ (encoded (c :: cs)).take (n + 1) := by
      rw [encoded, List.flatMap_cons, List.take_append_of_le_length
        (by rw [String.length_utf8EncodeChar]; omega)]
      exact fun hmem => lineFeed_not_mem_utf8EncodeChar hline (List.mem_of_mem_take hmem)
    rw [if_neg hnot, List.count_eq_zero.mpr hnot]
    rfl
  | case4 row column n cs hinside ih =>
    have hsize : '\n'.utf8Size = 1 := by decide
    rw [byteLength_cons] at h
    have hbytes : String.utf8EncodeChar '\n' = [lineFeed] := by decide
    rw [ih (by omega), take_encoded_cons (by omega), hbytes, hsize, List.count_append,
      if_pos (List.mem_append_left _ List.mem_cons_self), List.count_singleton_self]
    refine Prod.ext (Nat.add_assoc row 1 _) ?_
    dsimp only
    by_cases hmem : lineFeed ∈ (encoded cs).take (n + 1 - 1)
    · rw [if_pos hmem, lineStart_append_of_mem _ hmem, List.length_singleton]
      omega
    · have hstart : lineStart [lineFeed] = 1 := by decide
      rw [if_neg hmem, lineStart_append_of_not_mem _ hmem, hstart, Nat.zero_add]
  | case5 row column n c cs hinside hline ih =>
    rw [byteLength_cons] at h
    have hnot := lineFeed_not_mem_utf8EncodeChar hline
    rw [ih (by omega), take_encoded_cons (by omega), List.count_append, List.count_eq_zero.mpr hnot,
      Nat.zero_add]
    refine Prod.ext rfl ?_
    dsimp only
    by_cases hmem : lineFeed ∈ (encoded cs).take (n + 1 - c.utf8Size)
    · rw [if_pos hmem, if_pos (List.mem_append_right _ hmem), lineStart_append_of_mem _ hmem,
        String.length_utf8EncodeChar]
      omega
    · rw [if_neg hmem, if_neg (by simp [hnot, hmem])]
      omega

/-- **Rows count the line feeds before an offset, and columns the bytes since the last one.** -/
theorem pointAt_eq {cs : List Char} {offset : Nat} (h : offset ≤ byteLength cs) :
    pointAt cs offset = (((encoded cs).take offset).count lineFeed,
      offset - lineStart ((encoded cs).take offset)) := by
  rw [pointAt, pointFrom_eq 0 0 h, Nat.zero_add, Nat.zero_add]
  split
  · rfl
  · rename_i hnot
    rw [lineStart_of_not_mem hnot, Nat.sub_zero]

end Text

namespace SyntaxTree

/-- A later offset has a later point. -/
theorem pointAt_strictMono (t : SyntaxTree) {m n : Nat} (h : m < n) : t.pointAt m < t.pointAt n :=
  Text.pointFrom_strictMono 0 0 h t.source.toList

theorem pointAt_mono (t : SyntaxTree) {m n : Nat} (h : m ≤ n) : t.pointAt m ≤ t.pointAt n := by
  rcases Nat.eq_or_lt_of_le h with rfl | hlt
  · exact Point.le_refl _
  · exact Point.le_of_lt (t.pointAt_strictMono hlt)

/-- Different offsets have different points. -/
theorem pointAt_injective (t : SyntaxTree) {m n : Nat} (h : t.pointAt m = t.pointAt n) : m = n := by
  rcases Nat.lt_trichotomy m n with hlt | rfl | hgt
  · exact absurd (h ▸ t.pointAt_strictMono hlt) (Point.lt_irrefl _)
  · rfl
  · exact absurd (h ▸ t.pointAt_strictMono hgt) (Point.lt_irrefl _)

theorem pointAt_eq (t : SyntaxTree) {offset : Nat}
    (h : offset ≤ Text.byteLength t.source.toList) :
    t.pointAt offset =
      ⟨((Text.encoded t.source.toList).take offset).count Text.lineFeed,
        offset - Text.lineStart ((Text.encoded t.source.toList).take offset)⟩ := by
  rw [pointAt, Text.pointAt_eq h]

end SyntaxTree

end Refactor
