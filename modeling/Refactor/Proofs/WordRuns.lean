import Mathlib.Data.List.TakeWhile
import Refactor.Proofs.WholeWords

/-!
# Words in their places

A word of a text is a run of word characters with none before and none after it (`IsWordOf`).
Cutting a text finds exactly these (`mem_words_iff`), because a text may be cut in two wherever no
word goes across the cut (`pieces_append`).

Words that become words are words of the new text, at the same places. So replacing words twice is
replacing them once, by what the second replacement makes of the first (`mapWords_mapWords`).
-/

namespace Refactor.Statement

open Text (isWordChar)

/-! ## Cuts -/

/-- No word goes on from one text into the next. -/
def Apart (before after : List Char) : Prop :=
  (∀ c ∈ before.getLast?, isWordChar c = false) ∨ ∀ c ∈ after.head?, isWordChar c = false

theorem Apart.of_cons_cons {c d : Char} {before after : List Char}
    (h : Apart (c :: d :: before) after) : Apart (d :: before) after := by
  unfold Apart at h ⊢
  rwa [List.getLast?_cons_cons] at h

/-- **A text is cut where no word goes across.** -/
theorem pieces_append {before after : List Char} (h : Apart before after) :
    pieces (before ++ after) = pieces before ++ pieces after := by
  induction before with
  | nil => rfl
  | cons c before ih =>
    cases before with
    | nil =>
      rw [List.singleton_append, pieces, pieces]
      by_cases hc : isWordChar c = true
      · -- The word ends here: what follows starts with no word.
        have hafter : ∀ d ∈ after.head?, isWordChar d = false := by
          refine h.resolve_left fun hbefore => ?_
          rw [hbefore c rfl] at hc
          cases hc
        rw [if_pos hc, if_pos hc]
        cases after with
        | nil => rfl
        | cons d after => simp [pieces, hafter d rfl]
      · rw [if_neg hc, if_neg hc]
        rfl
    | cons d before =>
      rw [List.cons_append, pieces, pieces, ih h.of_cons_cons]
      by_cases hc : isWordChar c = true
      · rw [if_pos hc, if_pos hc]
        have hne : pieces (d :: before) ≠ [] := fun hnil => by
          have hflat := pieces_flatten (d :: before)
          rw [hnil] at hflat
          cases hflat
        obtain ⟨piece, rest, hpieces⟩ := List.exists_cons_of_ne_nil hne
        rw [hpieces]
        cases piece <;> rfl
      · rw [if_neg hc, if_neg hc, List.cons_append]

theorem pieces_of_isWord {word : List Char} (h : IsWord word) : pieces word = [.word word] := by
  obtain ⟨c, cs, rfl⟩ := List.exists_cons_of_ne_nil h.1
  have htail : ∀ d ∈ cs, isWordChar d = true := fun d hd => h.2 d (List.mem_cons_of_mem _ hd)
  rw [pieces_cons_of_isWordChar (h.2 c List.mem_cons_self), List.takeWhile_eq_self_iff.mpr htail,
    List.dropWhile_eq_nil_iff.mpr htail]
  rfl

/-! ## The words of a text -/

/-- The characters of a piece that is a word. -/
def Piece.word? : Piece → Option (List Char)
  | word chars => some chars
  | gap _ => none

/-- The words of a text, in order. -/
def words (text : List Char) : List (List Char) :=
  (pieces text).filterMap Piece.word?

/-- A maximal run of word characters in a text. -/
def IsWordOf (word text : List Char) : Prop :=
  IsWord word ∧ ∃ before after, text = before ++ word ++ after ∧
    (∀ c ∈ before.getLast?, isWordChar c = false) ∧ ∀ c ∈ after.head?, isWordChar c = false

theorem words_cons_of_isWordChar {c : Char} (h : isWordChar c = true) (cs : List Char) :
    words (c :: cs) = (c :: cs.takeWhile isWordChar) :: words (cs.dropWhile isWordChar) := by
  rw [words, pieces_cons_of_isWordChar h]
  rfl

theorem words_cons_of_not_isWordChar {c : Char} (h : ¬ isWordChar c = true) (cs : List Char) :
    words (c :: cs) = words cs := by
  rw [words, pieces, if_neg h]
  rfl

/-- A text that starts with a word is the word and the rest. -/
theorem cons_eq_word_append (c : Char) (cs : List Char) :
    c :: cs = (c :: cs.takeWhile isWordChar) ++ cs.dropWhile isWordChar := by
  rw [List.cons_append, List.takeWhile_append_dropWhile]

theorem not_isWordChar_of_mem_head?_dropWhile {cs : List Char} {c : Char}
    (h : c ∈ (cs.dropWhile isWordChar).head?) : isWordChar c = false := by
  have hstop := List.head?_dropWhile_not isWordChar cs
  rw [Option.mem_def.mp h] at hstop
  exact hstop

/-- A word that is cut out goes on neither into what stands before it nor into what follows. -/
theorem bounds_of_pieces_eq {text word : List Char} {front back : List Piece}
    (h : pieces text = front ++ .word word :: back) :
    IsWord word ∧ (∀ c ∈ (front.flatMap Piece.chars).getLast?, isWordChar c = false) ∧
      ∀ c ∈ (back.flatMap Piece.chars).head?, isWordChar c = false := by
  -- The text is gone through as `mapWords` does, a whole word at a time.
  fun_induction mapWords id text generalizing front with
  | case1 => simp [pieces] at h
  | case2 c cs hc ih =>
    rw [pieces_cons_of_isWordChar hc] at h
    cases front with
    | nil =>
      obtain ⟨hword, rfl⟩ := List.cons.inj h
      obtain rfl := Piece.word.inj hword
      refine ⟨isWord_cons_takeWhile hc cs, by simp, fun d hd => ?_⟩
      rw [pieces_flatten] at hd
      exact not_isWordChar_of_mem_head?_dropWhile hd
    | cons piece front =>
      rw [List.cons_append] at h
      obtain ⟨rfl, hrest⟩ := List.cons.inj h
      obtain ⟨hword, hfront, hback⟩ := ih hrest
      refine ⟨hword, fun d hd => ?_, hback⟩
      rw [List.flatMap_cons, List.getLast?_append, Option.mem_def, Option.or_eq_some_iff] at hd
      rcases hd with hd | ⟨hnone, -⟩
      · exact hfront d hd
      · -- Nothing stands between the two words, so the second would have belonged to the first.
        have htext := pieces_flatten (cs.dropWhile isWordChar)
        rw [hrest, List.flatMap_append, List.getLast?_eq_none_iff.mp hnone] at htext
        obtain ⟨e, es, rfl⟩ := List.exists_cons_of_ne_nil hword.1
        have hhead : e ∈ (cs.dropWhile isWordChar).head? := by rw [← htext]; rfl
        have he := not_isWordChar_of_mem_head?_dropWhile hhead
        rw [hword.2 e List.mem_cons_self] at he
        cases he
  | case3 c cs hc ih =>
    rw [pieces, if_neg hc] at h
    cases front with
    | nil => cases (List.cons.inj h).1
    | cons piece front =>
      rw [List.cons_append] at h
      obtain ⟨rfl, hrest⟩ := List.cons.inj h
      obtain ⟨hword, hfront, hback⟩ := ih hrest
      refine ⟨hword, fun d hd => ?_, hback⟩
      rw [List.flatMap_cons, List.getLast?_append, Option.mem_def, Option.or_eq_some_iff] at hd
      rcases hd with hd | ⟨-, hd⟩
      · exact hfront d hd
      · obtain rfl : c = d := Option.some.inj hd
        simpa using hc

/-- **The words that a text is cut into are its maximal runs of word characters.** -/
theorem mem_words_iff {word text : List Char} : word ∈ words text ↔ IsWordOf word text := by
  constructor
  · intro h
    obtain ⟨piece, hpiece, hword⟩ := List.mem_filterMap.mp h
    obtain rfl : piece = .word word := by
      cases piece with
      | word chars => rw [Option.some.inj hword]
      | gap char => cases hword
    obtain ⟨front, back, hsplit⟩ := List.append_of_mem hpiece
    obtain ⟨hisWord, hfront, hback⟩ := bounds_of_pieces_eq hsplit
    refine ⟨hisWord, _, _, ?_, hfront, hback⟩
    rw [← pieces_flatten text, hsplit, List.flatMap_append, List.flatMap_cons, List.append_assoc]
    rfl
  · rintro ⟨hword, before, after, rfl, hbefore, hafter⟩
    rw [words, List.append_assoc, pieces_append (.inl hbefore), pieces_append (.inr hafter),
      pieces_of_isWord hword]
    simp [Piece.word?]

instance (word text : List Char) : Decidable (IsWordOf word text) :=
  decidable_of_iff _ mem_words_iff

/-! ## Replacing words one after the other -/

variable {f g : List Char → List Char}

/-- A text that starts with no word still does so when words are replaced. -/
theorem head?_mapWords_of_not_isWordChar {cs : List Char}
    (h : ∀ c ∈ cs.head?, isWordChar c = false) : (mapWords f cs).head? = cs.head? := by
  cases cs with
  | nil => rw [mapWords]
  | cons c cs => simp [mapWords, h c rfl]

theorem mapWords_append_of_isWord {word rest : List Char} (hword : IsWord word)
    (hrest : ∀ c ∈ rest.head?, isWordChar c = false) :
    mapWords f (word ++ rest) = f word ++ mapWords f rest := by
  obtain ⟨c, cs, rfl⟩ := List.exists_cons_of_ne_nil hword.1
  have htail : ∀ d ∈ cs, isWordChar d = true := fun d hd => hword.2 d (List.mem_cons_of_mem _ hd)
  have hnone : rest.takeWhile isWordChar = [] ∧ rest.dropWhile isWordChar = rest := by
    cases rest with
    | nil => exact ⟨rfl, rfl⟩
    | cons d rest => simp [hrest d rfl]
  rw [List.cons_append, mapWords, if_pos (hword.2 c List.mem_cons_self),
    List.takeWhile_append_of_pos htail, List.dropWhile_append_of_pos htail, hnone.1, hnone.2,
    List.append_nil]

/-- **Words that have become words are replaced again as wholes.** -/
theorem mapWords_mapWords (hf : ∀ word, IsWord word → IsWord (f word)) (cs : List Char) :
    mapWords g (mapWords f cs) = mapWords (g ∘ f) cs := by
  fun_induction mapWords f cs with
  | case1 => rw [mapWords, mapWords]
  | case2 c cs hc ih =>
    have hrest : ∀ d ∈ (mapWords f (cs.dropWhile isWordChar)).head?, isWordChar d = false := by
      rw [head?_mapWords_of_not_isWordChar fun d hd => not_isWordChar_of_mem_head?_dropWhile hd]
      exact fun d hd => not_isWordChar_of_mem_head?_dropWhile hd
    rw [mapWords_append_of_isWord (hf _ (isWord_cons_takeWhile hc cs)) hrest, ih]
    conv_rhs => rw [mapWords, if_pos hc]
    rfl
  | case3 c cs hc ih =>
    rw [mapWords, if_neg hc, ih]
    conv_rhs => rw [mapWords, if_neg hc]

/-- A text stays as it is when its own words do. -/
theorem mapWords_eq_self {cs : List Char} (h : ∀ word ∈ words cs, f word = word) :
    mapWords f cs = cs := by
  fun_induction mapWords f cs with
  | case1 => rfl
  | case2 c cs hc ih =>
    rw [words_cons_of_isWordChar hc] at h
    rw [h _ List.mem_cons_self, ih fun word hword => h word (List.mem_cons_of_mem _ hword),
      ← cons_eq_word_append]
  | case3 c cs hc ih =>
    rw [words_cons_of_not_isWordChar hc] at h
    rw [ih h]

end Refactor.Statement
