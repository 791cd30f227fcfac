import Refactor.Diff.Names
import Refactor.Pattern.Reader
import Refactor.Proofs.PatternMatches
import Refactor.Proofs.WordRuns

/-!
# Identifiers, verbs and trailing words as patterns

Statements are cut into words, and names lose verbs and trailing words, without any search for
patterns. Here the patterns are written down that say the same.

- `ends_identifier`: the identifiers among the pieces of a statement are the matches of
  `\b[A-Za-z_]\w*\b`, each in its place.
- `takesOut_dropVerb`, `takesOut_dropTrailing`: what a name loses is what the pattern for verbs at
  the start, or for trailing words at the end, matches in it. No verb is the start of another one,
  and no trailing word the end of another one, so that it does not matter which match is taken.

The case of letters is ignored by patterns as `caseFold` does it (`mem_anyCase_single_iff`).
-/

namespace Refactor

namespace Pattern

open Names (caseFold)

/-! ## One character after the other -/

theorem matches_one_iff {text : List Char} {set : CharSet} {i j : Nat} :
    (one set).Matches text i j ↔
      ∃ c, text.drop i = c :: text.drop (i + 1) ∧ set.mem c = true ∧ j = i + 1 := by
  have hdrop : ∀ c, text[i]? = some c ↔ text.drop i = c :: text.drop (i + 1) := by
    intro c
    constructor
    · intro hc
      obtain ⟨hi, rfl⟩ := List.getElem?_eq_some_iff.mp hc
      exact List.drop_eq_getElem_cons hi
    · intro hrest
      have hhead := congrArg List.head? hrest
      rwa [List.head?_drop, List.head?_cons] at hhead
  simp only [Matches, hdrop]

/-- As many characters of a set as there are steps. -/
theorem chain_one_iff {text : List Char} {set : CharSet} {count i j : Nat} :
    Chain ((one set).Matches text) count i j ↔
      ∃ run, text.drop i = run ++ text.drop j ∧ run.length = count ∧ j = i + count ∧
        ∀ c ∈ run, set.mem c = true := by
  induction count generalizing i with
  | zero =>
    constructor
    · rintro rfl
      exact ⟨[], rfl, rfl, rfl, by simp⟩
    · rintro ⟨run, -, -, rfl, -⟩
      rfl
  | succ count ih =>
    simp only [Chain, matches_one_iff, ih]
    constructor
    · rintro ⟨k, ⟨c, hfirst, hc, rfl⟩, run, hrest, hlength, rfl, hrun⟩
      refine ⟨c :: run, ?_, ?_, ?_, ?_⟩
      · rw [hfirst, hrest, List.cons_append]
      · rw [List.length_cons, hlength]
      · omega
      · exact List.forall_mem_cons.mpr ⟨hc, hrun⟩
    · rintro ⟨run, hrest, hlength, rfl, hrun⟩
      obtain ⟨c, run, rfl⟩ := List.exists_cons_of_length_eq_add_one hlength
      obtain ⟨hc, hrun⟩ := List.forall_mem_cons.mp hrun
      rw [List.cons_append] at hrest
      have hbehind : text.drop (i + 1) = run ++ text.drop (i + (count + 1)) := by
        rw [← List.tail_drop, hrest, List.tail_cons]
      refine ⟨i + 1, ⟨c, by rw [hbehind, hrest], hc, rfl⟩, run, ?_, ?_, ?_, hrun⟩
      · exact hbehind
      · simpa using hlength
      · omega

/-! ## Letters in any case -/

/-- Beyond ASCII only the long s and the Kelvin sign have other forms. -/
theorem forms_cases (c : Char) : (∃ n < 0x80, c = Char.ofNat n) ∨ c = Char.ofNat 0x17F ∨
    c = Char.ofNat 0x212A ∨ (CharSet.forms c = [c] ∧ caseFold c = c) := by
  rcases Nat.lt_or_ge c.toNat 0x80 with hlt | hge
  · exact .inl ⟨c.toNat, hlt, (Char.ofNat_toNat c).symm⟩
  by_cases hlong : c.toNat = 0x17F
  · exact .inr (.inl (by rw [← hlong, Char.ofNat_toNat]))
  by_cases hkelvin : c.toNat = 0x212A
  · exact .inr (.inr (.inl (by rw [← hkelvin, Char.ofNat_toNat])))
  refine .inr (.inr (.inr ⟨?_, ?_⟩))
  · have hs : c ≠ 's' := by rintro rfl; revert hge; decide
    have hk : c ≠ 'k' := by rintro rfl; revert hge; decide
    have hcapital : ¬ c.toNat ≤ 0x5A := by omega
    have hsmall : ¬ c.toNat ≤ 0x7A := by omega
    simp [CharSet.forms, hlong, hkelvin, hs, hk, hcapital, hsmall]
  · have hcapital : ¬ c ≤ 'Z' := by
      rw [Char.le_def, UInt32.le_iff_toNat_le]
      change ¬ c.toNat ≤ 90
      omega
    simp [caseFold, hlong, hkelvin, hcapital]

/-- All forms of a letter are read as the same letter, which has the same forms. -/
theorem forms_caseFold (c : Char) : CharSet.forms (caseFold c) = CharSet.forms c ∧
    c ∈ CharSet.forms c ∧ (CharSet.forms c).all (caseFold · == caseFold c) = true := by
  have hascii : ∀ n < 0x80,
      CharSet.forms (caseFold (Char.ofNat n)) = CharSet.forms (Char.ofNat n) ∧
        Char.ofNat n ∈ CharSet.forms (Char.ofNat n) ∧
        (CharSet.forms (Char.ofNat n)).all (caseFold · == caseFold (Char.ofNat n)) = true := by
    decide +kernel
  rcases forms_cases c with ⟨n, hn, rfl⟩ | rfl | rfl | ⟨hforms, hfold⟩
  · exact hascii n hn
  · decide
  · decide
  · simp [hforms, hfold]

theorem mem_anyCase_single_iff {c d : Char} :
    (CharSet.anyCase (.single d)).mem c = true ↔ caseFold c = caseFold d := by
  have hmem : (CharSet.anyCase (.single d)).mem c = true ↔ d ∈ CharSet.forms c := by
    simp only [CharSet.mem, CharSet.single, Text.inRanges, List.any_cons, List.any_nil,
      Bool.or_false, List.any_eq_true, Bool.and_eq_true, decide_eq_true_eq]
    constructor
    · rintro ⟨form, hform, hge, hle⟩
      rwa [Char.toNat_inj.mp (Nat.le_antisymm hge hle)]
    · intro h
      exact ⟨d, h, Nat.le_refl _, Nat.le_refl _⟩
  rw [hmem]
  constructor
  · intro h
    exact (beq_iff_eq.mp (List.all_eq_true.mp (forms_caseFold c).2.2 d h)).symm
  · intro h
    rw [← (forms_caseFold c).1, h, (forms_caseFold d).1]
    exact (forms_caseFold d).2.1

/-- A text letter by letter, in any case. -/
def spelled : List Char → Pattern
  | [] => .nothing
  | [c] => .one (.anyCase (.single c))
  | c :: cs => .sequence (.one (.anyCase (.single c))) (spelled cs)

/-- One of several words, in any case. -/
def anyWord : List String → Pattern
  | [] => .nothing
  | [word] => spelled word.toList
  | word :: words => .either (spelled word.toList) (anyWord words)

section

variable {text : List Char} {i j : Nat}

theorem matches_spelled_cons_iff {c : Char} {cs : List Char} :
    (spelled (c :: cs)).Matches text i j ↔
      ∃ k, (one (.anyCase (.single c))).Matches text i k ∧ (spelled cs).Matches text k j := by
  cases cs with
  | nil => simp [spelled, Matches]
  | cons d cs => rfl

theorem matches_spelled_iff {word : List Char} : (spelled word).Matches text i j ↔
    word.map caseFold <+: (text.drop i).map caseFold ∧ j = i + word.length := by
  induction word generalizing i with
  | nil => simp [spelled, Matches, eq_comm]
  | cons c cs ih =>
    simp only [matches_spelled_cons_iff, matches_one_iff, mem_anyCase_single_iff, ih]
    constructor
    · rintro ⟨_, ⟨d, hdrop, hd, rfl⟩, hcs, rfl⟩
      rw [hdrop, List.map_cons, List.map_cons, List.cons_prefix_cons, List.length_cons]
      exact ⟨⟨hd.symm, hcs⟩, by omega⟩
    · rintro ⟨hword, rfl⟩
      cases hdrop : text.drop i with
      | nil => simp [hdrop] at hword
      | cons d rest =>
        rw [hdrop, List.map_cons, List.map_cons, List.cons_prefix_cons] at hword
        have hrest : text.drop (i + 1) = rest := by rw [← List.tail_drop, hdrop, List.tail_cons]
        refine ⟨i + 1, ⟨d, by rw [hrest], hword.1.symm, rfl⟩, by rw [hrest]; exact hword.2, ?_⟩
        rw [List.length_cons]
        omega

theorem matches_anyWord_iff {words : List String} (hne : words ≠ []) :
    (anyWord words).Matches text i j ↔ ∃ word ∈ words.map fun word => word.toList.map caseFold,
      word <+: (text.drop i).map caseFold ∧ j = i + word.length := by
  induction words with
  | nil => exact absurd rfl hne
  | cons word rest ih =>
    cases rest with
    | nil => simp [anyWord, matches_spelled_iff]
    | cons next rest =>
      rw [List.map_cons, List.exists_mem_cons_iff, ← ih (List.cons_ne_nil _ _), List.length_map,
        ← matches_spelled_iff]
      rfl

end

end Pattern

namespace Statement

open Pattern
open Text (isWordChar isNameStart isAsciiLetter)

/-! ## Identifiers -/

/-- The letters of ASCII and the underscore. -/
def nameSet : CharSet :=
  .unions [.ranges [('A'.toNat, 'Z'.toNat)], .ranges [('a'.toNat, 'z'.toNat)], .single '_']

/-- A word that begins with an ASCII letter or an underscore. -/
def identifier : Pattern :=
  .sequence (.look .wordEdge) (.sequence (.one nameSet)
    (.sequence (.repeated (.one .word) 0 none) (.look .wordEdge)))

theorem mem_nameSet_iff {c : Char} : nameSet.mem c = true ↔ isNameStart c = true := by
  have hunderscore : c = '_' ↔ c.toNat = 95 := by
    rw [← Char.toNat_inj]
    rfl
  have htoNat : c.toNat = c.val.toNat := rfl
  simp only [nameSet, CharSet.unions, List.foldr_cons, List.foldr_nil, CharSet.nothing,
    CharSet.single, CharSet.mem, Text.inRanges, List.any_cons, List.any_nil, isNameStart,
    isAsciiLetter, Bool.or_eq_true, Bool.and_eq_true, decide_eq_true_eq, Bool.or_false, beq_iff_eq,
    Char.le_def, UInt32.le_iff_toNat_le, hunderscore, htoNat]
  constructor
  · rintro (hcapital | hsmall | ⟨hle, hge⟩)
    · exact .inl (.inl hcapital)
    · exact .inl (.inr hsmall)
    · exact .inr (Nat.le_antisymm hge hle)
  · rintro ((hcapital | hsmall) | heq)
    · exact .inl hcapital
    · exact .inr (.inl hsmall)
    · exact .inr (.inr ⟨Nat.le_of_eq heq.symm, Nat.le_of_eq heq⟩)

/-- An identifier starts with a word character. -/
theorem isWordChar_of_isNameStart {c : Char} (h : isNameStart c = true) : isWordChar c = true := by
  simp only [isNameStart, Bool.or_eq_true, beq_iff_eq] at h
  rcases h with h | rfl
  · simp [isWordChar, Text.isAsciiLetter_toNat_lt h, h]
  · rfl

/-- A word and what is none meet where one text ends and the next one begins. -/
theorem wordEdge_append_iff {before after : List Char} :
    Look.wordEdge.holds (before ++ after) before.length = true ↔
      before.getLast?.any isWordChar ≠ after.head?.any isWordChar := by
  have hbehind : (before ++ after)[before.length]? = after.head? := by
    rw [List.getElem?_append_right (Nat.le_refl _), Nat.sub_self, List.head?_eq_getElem?]
  have hbefore : (if before.length = 0 then none else (before ++ after)[before.length - 1]?) =
      before.getLast? := by
    split
    · rename_i hempty
      rw [List.length_eq_zero_iff.mp hempty, List.getLast?_nil]
    · rw [List.getElem?_append_left (by omega), List.getLast?_eq_getElem?]
  unfold Look.holds
  rw [hbehind, hbefore]
  simp

section

variable {word : List Char}

/-- A word begins where the text before it does not end in one. -/
theorem wordEdge_before_iff (hword : IsWord word) (before after : List Char) :
    Look.wordEdge.holds (before ++ (word ++ after)) before.length = true ↔
      ∀ c ∈ before.getLast?, isWordChar c = false := by
  obtain ⟨c, cs, rfl⟩ := List.exists_cons_of_ne_nil hword.1
  have hc : ((c :: cs ++ after).head?).any isWordChar = true := hword.2 c List.mem_cons_self
  rw [wordEdge_append_iff, hc, Ne, Bool.not_eq_true, Option.any_eq_false]
  rfl

/-- A word ends where the text behind it does not begin with one. -/
theorem wordEdge_behind_iff (hword : IsWord word) (before after : List Char) :
    Look.wordEdge.holds (before ++ word ++ after) (before ++ word).length = true ↔
      ∀ c ∈ after.head?, isWordChar c = false := by
  have hlast : (before ++ word).getLast?.any isWordChar = true := by
    rw [List.getLast?_append, List.getLast?_eq_some_getLast hword.1]
    exact hword.2 _ (List.getLast_mem hword.1)
  rw [wordEdge_append_iff, hlast, ne_comm, Ne, Bool.not_eq_true, Option.any_eq_false]
  rfl

end

theorem exists_word_of_matches_identifier {text : List Char} {i j : Nat}
    (h : identifier.Matches text i j) : ∃ before word after, text = before ++ word ++ after ∧
      before.length = i ∧ (before ++ word).length = j ∧ IsWord word ∧ isIdentifier word = true ∧
      (∀ c ∈ before.getLast?, isWordChar c = false) ∧ ∀ c ∈ after.head?, isWordChar c = false := by
  obtain ⟨_, ⟨hstart, rfl⟩, _, hfirst, _, ⟨more, -, hmore⟩, hstop, rfl⟩ := h
  rw [Nat.zero_add] at hmore
  obtain ⟨c, hdrop, hc, rfl⟩ := matches_one_iff.mp hfirst
  obtain ⟨run, hrest, hlength, rfl, hrun⟩ := chain_one_iff.mp hmore
  have hname : isNameStart c = true := mem_nameSet_iff.mp hc
  have hword : IsWord (c :: run) :=
    ⟨List.cons_ne_nil _ _, List.forall_mem_cons.mpr ⟨isWordChar_of_isNameStart hname, hrun⟩⟩
  have htext : text = text.take i ++ (c :: run ++ text.drop (i + 1 + more)) := by
    rw [List.cons_append, ← hrest, ← hdrop, List.take_append_drop]
  have hi : (text.take i).length = i := by
    have hbehind := congrArg List.length hdrop
    simp only [List.length_drop, List.length_cons] at hbehind
    rw [List.length_take]
    omega
  have hj : (text.take i ++ (c :: run)).length = i + 1 + more := by
    rw [List.length_append, hi, List.length_cons, hlength]
    omega
  refine ⟨text.take i, c :: run, text.drop (i + 1 + more), ?_, hi, hj, hword, hname, ?_, ?_⟩
  · rwa [List.append_assoc]
  · refine (wordEdge_before_iff hword _ (text.drop (i + 1 + more))).mp ?_
    rwa [← htext, hi]
  · refine (wordEdge_behind_iff hword (text.take i) _).mp ?_
    rwa [List.append_assoc, ← htext, hj]

theorem matches_identifier {before word after : List Char} (hword : IsWord word)
    (hname : isIdentifier word = true) (hbefore : ∀ c ∈ before.getLast?, isWordChar c = false)
    (hafter : ∀ c ∈ after.head?, isWordChar c = false) :
    identifier.Matches (before ++ word ++ after) before.length (before ++ word).length := by
  obtain ⟨c, run, rfl⟩ := List.exists_cons_of_ne_nil hword.1
  have hstart := (wordEdge_before_iff hword before after).mpr hbefore
  have hstop := (wordEdge_behind_iff hword before after).mpr hafter
  rw [← List.append_assoc] at hstart
  have hdrop : (before ++ (c :: run) ++ after).drop before.length = c :: run ++ after := by
    rw [List.append_assoc, List.drop_left]
  have hbehind : (before ++ (c :: run) ++ after).drop (before.length + 1) = run ++ after := by
    rw [← List.tail_drop, hdrop, List.cons_append, List.tail_cons]
  have hj : (before ++ (c :: run)).length = before.length + 1 + run.length := by
    rw [List.length_append, List.length_cons]
    omega
  have hrun : ∀ d ∈ run, CharSet.word.mem d = true := fun d hd =>
    hword.2 d (List.mem_cons_of_mem _ hd)
  refine ⟨_, ⟨hstart, rfl⟩, before.length + 1,
    matches_one_iff.mpr ⟨c, ?_, mem_nameSet_iff.mpr hname, rfl⟩, _,
    ⟨run.length, by simp, chain_one_iff.mpr ⟨run, ?_, ?_, ?_, hrun⟩⟩, hstop, rfl⟩
  · rw [hbehind, hdrop, List.cons_append]
  · rw [hbehind, List.drop_left]
  · rw [Nat.zero_add]
  · rw [Nat.zero_add, hj]

theorem mem_ends_identifier_iff {text : List Char} {i j : Nat} :
    j ∈ identifier.ends text i ↔ ∃ front word back, pieces text = front ++ .word word :: back ∧
      isIdentifier word = true ∧ (front.flatMap Piece.chars).length = i ∧ i + word.length = j := by
  rw [mem_ends_iff]
  constructor
  · intro h
    obtain ⟨before, word, after, rfl, rfl, rfl, hword, hname, hbefore, hafter⟩ :=
      exists_word_of_matches_identifier h
    refine ⟨pieces before, word, pieces after, ?_, hname, by rw [pieces_flatten],
      List.length_append.symm⟩
    rw [List.append_assoc, pieces_append (.inl hbefore), pieces_append (.inr hafter),
      pieces_of_isWord hword, List.singleton_append]
  · rintro ⟨front, word, back, hpieces, hname, rfl, rfl⟩
    obtain ⟨hword, hbefore, hafter⟩ := bounds_of_pieces_eq hpieces
    have htext : text = front.flatMap Piece.chars ++ word ++ back.flatMap Piece.chars := by
      rw [← pieces_flatten text, hpieces, List.flatMap_append, List.flatMap_cons,
        List.append_assoc]
      rfl
    rw [htext, ← List.length_append]
    exact matches_identifier hword hname hbefore hafter

/-- **The identifiers among the pieces are what the pattern finds**, each in its place. -/
theorem ends_identifier : ∃ p, ofText? "\\b[A-Za-z_]\\w*\\b".toList = some p ∧
    ∀ text i j, j ∈ p.ends text i ↔ ∃ front word back, pieces text = front ++ .word word :: back ∧
      isIdentifier word = true ∧ (front.flatMap Piece.chars).length = i ∧ i + word.length = j :=
  ⟨identifier, rfl, fun _ _ _ => mem_ends_identifier_iff⟩

end Statement

namespace Names

open Pattern

/-! ## Verbs and trailing words -/

/-- The function takes a match of the pattern out of a text, whichever match that is, and leaves a
text without a match as it is. -/
def TakesOut (p : Pattern) (f : List Char → List Char) : Prop :=
  ∀ text, (∀ i, ∀ j ∈ p.ends text i, f text = text.take i ++ text.drop j) ∧
    ((∀ i, p.ends text i = []) → f text = text)

/-- One of the verbs at the start of a text. -/
def leadingVerb : Pattern :=
  .sequence (.look .textStart) (anyWord leadingVerbs)

/-- One of the trailing words at the end of a text. -/
def trailingWord : Pattern :=
  .sequence (anyWord ["Async", "Impl", "Internal", "Helper"]) (.look .textEnd)

section

variable {name : List Char} {i j : Nat}

theorem mem_ends_leadingVerb_iff : j ∈ leadingVerb.ends name i ↔
    i = 0 ∧ ∃ verb ∈ leadingVerbs, verb.toList <+: name.map caseFold ∧ j = verb.length := by
  have hfolded : (leadingVerbs.map fun verb => verb.toList.map caseFold) =
      leadingVerbs.map String.toList := by decide +kernel
  have hne : leadingVerbs ≠ [] := by decide
  simp only [mem_ends_iff, leadingVerb, Matches, Look.holds, beq_iff_eq, matches_anyWord_iff hne,
    hfolded]
  constructor
  · rintro ⟨_, ⟨rfl, rfl⟩, _, hmem, hstart, rfl⟩
    obtain ⟨verb, hverb, rfl⟩ := List.mem_map.mp hmem
    exact ⟨rfl, verb, hverb, hstart, by rw [Nat.zero_add, String.length_toList]⟩
  · rintro ⟨rfl, verb, hverb, hstart, rfl⟩
    exact ⟨0, ⟨rfl, rfl⟩, _, List.mem_map_of_mem hverb, hstart,
      by rw [Nat.zero_add, String.length_toList]⟩

theorem mem_ends_trailingWord_iff : j ∈ trailingWord.ends name i ↔
    j = name.length ∧ ∃ word ∈ trailingWords, word.toList <:+ name.map caseFold ∧
      i + word.length = name.length := by
  have hfolded : (["Async", "Impl", "Internal", "Helper"].map fun word =>
      word.toList.map caseFold) = trailingWords.map String.toList := by decide +kernel
  have hne : ["Async", "Impl", "Internal", "Helper"] ≠ [] := by decide
  simp only [mem_ends_iff, trailingWord, Matches, Look.holds, beq_iff_eq, matches_anyWord_iff hne,
    hfolded]
  constructor
  · rintro ⟨_, ⟨_, hmem, hstart, rfl⟩, hstop, rfl⟩
    obtain ⟨word, hword, rfl⟩ := List.mem_map.mp hmem
    -- The word reaches to the end, so it is all that stands behind the place.
    have hall : word.toList = (name.drop i).map caseFold := by
      refine hstart.eq_of_length ?_
      rw [List.length_map, List.length_drop]
      omega
    refine ⟨hstop, word, hword, ?_, by rwa [← String.length_toList]⟩
    rw [hall, List.map_drop]
    exact List.drop_suffix _ _
  · rintro ⟨rfl, word, hword, hend, hlength⟩
    rw [← String.length_toList] at hlength
    have hi : (name.map caseFold).length - word.toList.length = i := by
      rw [List.length_map]
      omega
    have hall := List.suffix_iff_eq_drop.mp hend
    rw [hi, ← List.map_drop] at hall
    exact ⟨name.length, ⟨_, List.mem_map_of_mem hword, hall ▸ List.prefix_rfl, hlength.symm⟩,
      rfl, rfl⟩

/-- What is taken out is the one word of several that fits. -/
theorem takesOut_of_find? {p : Pattern} {f : List Char → List Char} (words : List String)
    (fits : String → List Char → Bool) (rest : String → List Char → List Char)
    (hf : ∀ text, f text =
      ((words.find? fun word => fits word text).map fun word => rest word text).getD text)
    (hends : ∀ {text i j}, j ∈ p.ends text i → ∃ word ∈ words, fits word text = true ∧
      rest word text = text.take i ++ text.drop j)
    (hfits : ∀ {text word}, word ∈ words → fits word text = true → ∃ i j, j ∈ p.ends text i)
    (hunique : ∀ {text v w}, v ∈ words → w ∈ words → fits v text = true → fits w text = true →
      v = w) : TakesOut p f := by
  intro text
  rw [hf]
  cases hfind : words.find? fun word => fits word text with
  | none =>
    refine ⟨fun i j hj => ?_, fun _ => rfl⟩
    obtain ⟨word, hword, hfit, -⟩ := hends hj
    exact absurd hfit (List.find?_eq_none.mp hfind word hword)
  | some word =>
    have hword := List.mem_of_find?_eq_some hfind
    have hfit := List.find?_some hfind
    refine ⟨fun i j hj => ?_, fun hnone => ?_⟩
    · obtain ⟨other, hother, hfit', hrest⟩ := hends hj
      rw [hunique hword hother hfit hfit']
      exact hrest
    · obtain ⟨i, j, hj⟩ := hfits hword hfit
      rw [hnone] at hj
      cases hj

/-- **Names lose the verb that the pattern finds.** -/
theorem takesOut_dropVerb :
    ∃ p, ofText? ("(?i)^(?:" ++ "|".intercalate leadingVerbs ++ ")").toList = some p ∧
      TakesOut p dropVerb := by
  have hapart : ∀ v ∈ leadingVerbs, ∀ w ∈ leadingVerbs, v.toList <+: w.toList → v = w := by
    decide +kernel
  refine ⟨leadingVerb, rfl, takesOut_of_find? leadingVerbs
    (fun verb name => verb.toList.isPrefixOf (name.map caseFold))
    (fun verb name => name.drop verb.length) ?_ ?_ ?_ ?_⟩
  · intro name
    unfold dropVerb
    cases leadingVerbs.find? fun verb => verb.toList.isPrefixOf (name.map caseFold) <;> rfl
  · intro name i j hj
    obtain ⟨rfl, verb, hverb, hstart, rfl⟩ := mem_ends_leadingVerb_iff.mp hj
    exact ⟨verb, hverb, List.isPrefixOf_iff_prefix.mpr hstart, rfl⟩
  · intro name verb hverb hfit
    exact ⟨0, verb.length, mem_ends_leadingVerb_iff.mpr
      ⟨rfl, verb, hverb, List.isPrefixOf_iff_prefix.mp hfit, rfl⟩⟩
  · intro name v w hv hw hfit hfit'
    rcases List.prefix_or_prefix_of_prefix (List.isPrefixOf_iff_prefix.mp hfit)
      (List.isPrefixOf_iff_prefix.mp hfit') with hle | hge
    · exact hapart v hv w hw hle
    · exact (hapart w hw v hv hge).symm

/-- **Names lose the trailing word that the pattern finds.** -/
theorem takesOut_dropTrailing :
    ∃ p, ofText? "(?i)(?:Async|Impl|Internal|Helper)$".toList = some p ∧
      TakesOut p dropTrailing := by
  have hapart : ∀ v ∈ trailingWords, ∀ w ∈ trailingWords, v.toList <:+ w.toList → v = w := by
    decide +kernel
  refine ⟨trailingWord, rfl, takesOut_of_find? trailingWords
    (fun word name => word.toList.isSuffixOf (name.map caseFold))
    (fun word name => name.take (name.length - word.length)) ?_ ?_ ?_ ?_⟩
  · intro name
    unfold dropTrailing
    cases trailingWords.find? fun word => word.toList.isSuffixOf (name.map caseFold) <;> rfl
  · intro name i j hj
    obtain ⟨rfl, word, hword, hend, hlength⟩ := mem_ends_trailingWord_iff.mp hj
    refine ⟨word, hword, List.isSuffixOf_iff_suffix.mpr hend, ?_⟩
    rw [List.drop_length, List.append_nil, ← hlength, Nat.add_sub_cancel]
  · intro name word hword hfit
    have hend := List.isSuffixOf_iff_suffix.mp hfit
    have hle := hend.length_le
    rw [String.length_toList, List.length_map] at hle
    exact ⟨name.length - word.length, name.length, mem_ends_trailingWord_iff.mpr
      ⟨rfl, word, hword, hend, by omega⟩⟩
  · intro name v w hv hw hfit hfit'
    rcases List.suffix_or_suffix_of_suffix (List.isSuffixOf_iff_suffix.mp hfit)
      (List.isSuffixOf_iff_suffix.mp hfit') with hle | hge
    · exact hapart v hv w hw hle
    · exact (hapart w hw v hv hge).symm

end

end Names

end Refactor
