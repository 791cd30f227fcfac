import Refactor.Proofs.Substitution

/-!
# Renaming one identifier

To rename an identifier is to replace its whole occurrences, those that nothing that belongs to an
identifier comes right before or after (`renameIdentifier`). What belongs to an identifier depends
on the language; a comparison takes it to be the word characters.

**Theorem (`isMatch_renamed_iff`).** Compared under the renaming of one name to another, a statement
matches exactly one text. If what is left of the old name without marks in front is a letter or an
underscore of ASCII and word characters after it, this is the statement with the whole occurrences
of that replaced. For any other name it is the statement itself. So a name of this form is renamed
in every statement in which its neighbours are word characters just if they belong to identifiers.

A name that begins with another letter is therefore never renamed, and `$` is not taken as part of
a name (`accented_name_kept`).
-/

namespace Refactor.Text

/-- What belongs to an identifier: letters, digits, `_` and `$`. -/
def isIdentifierChar (c : Char) : Bool :=
  isAlphanumeric c || c == '_' || c == '$'

/-- Whether a name is made of what belongs to identifiers and does not begin with a digit. -/
def isLegalName (name : String) : Bool :=
  name.toList.all isIdentifierChar && name.toList.head?.any fun c => !isNumeric c

end Refactor.Text

namespace Refactor.Statement

open Text (isWordChar)

/-! ## Whole occurrences -/

/-- Whether an identifier stands at the start of a text, with nothing that belongs to an identifier
right before and after it. -/
def standsWhole (part : Char → Bool) (old : List Char) (previous : Option Char)
    (text : List Char) : Bool :=
  !previous.any part && old.isPrefixOf text && !(text.drop old.length).head?.any part

/-- The text that follows a character, with the whole occurrences of an identifier replaced. -/
def renameWhole (part : Char → Bool) (old new : List Char) (previous : Option Char) :
    List Char → List Char
  | [] => []
  | c :: cs =>
    if standsWhole part old previous (c :: cs) then
      new ++ renameWhole part old new old.getLast? (cs.drop (old.length - 1))
    else c :: renameWhole part old new (some c) cs
termination_by cs => cs.length
decreasing_by
  · simp only [List.length_drop, List.length_cons]
    omega
  · simp

/-- The text with the whole occurrences of an identifier replaced. -/
def renameIdentifier (part : Char → Bool) (old new text : String) : String :=
  String.ofList (renameWhole part old.toList new.toList none text.toList)

section

variable {part : Char → Bool} {old new : List Char} {previous : Option Char}

theorem standsWhole_iff {text : List Char} : standsWhole part old previous text = true ↔
    previous.any part = false ∧
      ∃ after, text = old ++ after ∧ after.head?.any part = false := by
  unfold standsWhole
  simp only [Bool.and_eq_true, Bool.not_eq_true', List.isPrefixOf_iff_prefix]
  constructor
  · rintro ⟨⟨hprevious, after, rfl⟩, hafter⟩
    rw [List.drop_left] at hafter
    exact ⟨hprevious, after, rfl, hafter⟩
  · rintro ⟨hprevious, after, rfl, hafter⟩
    rw [List.drop_left]
    exact ⟨⟨hprevious, List.prefix_append _ _⟩, hafter⟩

theorem renameWhole_append (hne : old ≠ []) {after : List Char}
    (h : standsWhole part old previous (old ++ after) = true) :
    renameWhole part old new previous (old ++ after) =
      new ++ renameWhole part old new old.getLast? after := by
  obtain ⟨c, cs, rfl⟩ := List.exists_cons_of_ne_nil hne
  rw [List.cons_append] at h ⊢
  rw [renameWhole, if_pos h]
  simp

theorem renameWhole_cons_of_not {c : Char} {cs : List Char}
    (h : ¬ standsWhole part old previous (c :: cs) = true) :
    renameWhole part old new previous (c :: cs) = c :: renameWhole part old new (some c) cs := by
  rw [renameWhole, if_neg h]

/-- Inside of an identifier nothing is replaced. -/
theorem renameWhole_inside {word rest : List Char} (hprevious : previous.any part = true)
    (hword : ∀ c ∈ word, part c = true) : renameWhole part old new previous (word ++ rest) =
      word ++ renameWhole part old new (word.getLast?.or previous) rest := by
  induction word generalizing previous with
  | nil => rfl
  | cons c word ih =>
    have hnot : ¬ standsWhole part old previous (c :: (word ++ rest)) = true := fun h => by
      rw [(standsWhole_iff.mp h).1] at hprevious
      cases hprevious
    have hc : (some c).any part = true := hword c List.mem_cons_self
    rw [List.cons_append, renameWhole_cons_of_not hnot, List.cons_append,
      ih hc fun d hd => hword d (List.mem_cons_of_mem _ hd), List.getLast?_cons]
    cases word.getLast? <;> rfl

/-- A maximal identifier is the only whole occurrence that can start where it starts. -/
theorem eq_of_append_eq {word rest after : List Char} (hold : ∀ c ∈ old, part c = true)
    (hword : ∀ c ∈ word, part c = true) (hrest : rest.head?.any part = false)
    (hafter : after.head?.any part = false) (heq : word ++ rest = old ++ after) : word = old := by
  rcases List.append_eq_append_iff.mp heq with ⟨more, rfl, rfl⟩ | ⟨more, rfl, rfl⟩
  · cases more with
    | nil => simp
    | cons c more =>
      have hc := hold c (by simp)
      simp [hc] at hrest
  · cases more with
    | nil => simp
    | cons c more =>
      have hc := hword c (by simp)
      simp [hc] at hafter

/-- **An identifier is replaced just if it is the old one.** -/
theorem renameWhole_identifier (hne : old ≠ []) (hold : ∀ c ∈ old, part c = true)
    {word rest : List Char} (hwordne : word ≠ []) (hword : ∀ c ∈ word, part c = true)
    (hprevious : previous.any part = false) (hrest : rest.head?.any part = false) :
    renameWhole part old new previous (word ++ rest) =
      (if word = old then new else word) ++ renameWhole part old new word.getLast? rest := by
  by_cases heq : word = old
  · subst heq
    rw [if_pos rfl, renameWhole_append hne (standsWhole_iff.mpr ⟨hprevious, rest, rfl, hrest⟩)]
  · have hnot : ¬ standsWhole part old previous (word ++ rest) = true := fun h => by
      obtain ⟨-, after, hsplit, hafter⟩ := standsWhole_iff.mp h
      exact heq (eq_of_append_eq hold hword hrest hafter hsplit)
    obtain ⟨c, cs, rfl⟩ := List.exists_cons_of_ne_nil hwordne
    have hc : (some c).any part = true := hword c List.mem_cons_self
    rw [List.cons_append] at hnot ⊢
    rw [if_neg heq, renameWhole_cons_of_not hnot,
      renameWhole_inside hc fun d hd => hword d (List.mem_cons_of_mem _ hd), List.getLast?_cons]
    cases cs.getLast? <;> rfl

end

/-! ## Words -/

/-- Where word characters are what belongs to an identifier, whole words are replaced. -/
theorem renameWhole_eq_mapWords {old : List Char} (hold : IsWord old) (new : List Char)
    {previous : Option Char} {text : List Char}
    (h : previous.any isWordChar = false ∨ text.head?.any isWordChar = false) :
    renameWhole isWordChar old new previous text =
      mapWords (fun word => if word = old then new else word) text := by
  fun_induction mapWords (fun word => if word = old then new else word) text
      generalizing previous with
  | case1 => rw [renameWhole]
  | case2 c cs hc ih =>
    have hprevious : previous.any isWordChar = false := h.resolve_right (by simp [hc])
    have hrest : (cs.dropWhile isWordChar).head?.any isWordChar = false :=
      (Option.any_eq_false _ _).mpr fun d hd => not_isWordChar_of_mem_head?_dropWhile hd
    obtain ⟨hne, hword⟩ := isWord_cons_takeWhile hc cs
    rw [cons_eq_word_append c cs,
      renameWhole_identifier hold.1 hold.2 hne hword hprevious hrest, ih (.inr hrest)]
  | case3 c cs hc ih =>
    have hnot : ¬ standsWhole isWordChar old previous (c :: cs) = true := fun hstands => by
      obtain ⟨-, after, hsplit, -⟩ := standsWhole_iff.mp hstands
      obtain ⟨d, ds, rfl⟩ := List.exists_cons_of_ne_nil hold.1
      obtain ⟨rfl, -⟩ := List.cons.inj hsplit
      exact hc (hold.2 c List.mem_cons_self)
    rw [renameWhole_cons_of_not hnot, ih (.inl (by simpa using hc))]

/-! ## Neighbours -/

/-- The neighbours of an identifier in a text are word characters just if they belong to
identifiers. -/
def NeighboursAgree (part : Char → Bool) (old text : List Char) : Prop :=
  ∀ before after, text = before ++ old ++ after →
    (∀ c ∈ before.getLast?, part c = isWordChar c) ∧ ∀ c ∈ after.head?, part c = isWordChar c

theorem neighboursAgree_iff {part : Char → Bool} {old text : List Char} :
    NeighboursAgree part old text ↔ ∀ n ≤ text.length, old <+: text.drop n →
      (text.take n).getLast?.all (fun c => part c == isWordChar c) = true ∧
        ((text.drop n).drop old.length).head?.all (fun c => part c == isWordChar c) = true := by
  simp only [Option.all_eq_true, beq_iff_eq]
  constructor
  · rintro h n - ⟨after, hafter⟩
    rw [← hafter, List.drop_left]
    exact h (text.take n) after (by rw [List.append_assoc, hafter, List.take_append_drop])
  · rintro h before after rfl
    have hplace := h before.length (by simp) (by simp)
    simpa using hplace

instance (part : Char → Bool) (old text : List Char) : Decidable (NeighboursAgree part old text) :=
  decidable_of_iff' _ neighboursAgree_iff

theorem any_congr {part : Char → Bool} {c : Option Char} (h : ∀ d ∈ c, part d = isWordChar d) :
    c.any part = c.any isWordChar := by
  cases c with
  | none => rfl
  | some d => exact h d rfl

theorem standsWhole_congr {part : Char → Bool} {old read rest : List Char}
    (h : NeighboursAgree part old (read ++ rest)) :
    standsWhole part old read.getLast? rest = standsWhole isWordChar old read.getLast? rest := by
  unfold standsWhole
  by_cases hstart : old <+: rest
  · obtain ⟨after, rfl⟩ := hstart
    obtain ⟨hbefore, hafter⟩ := h read after (List.append_assoc ..).symm
    rw [List.drop_left, any_congr hbefore, any_congr hafter]
  · have hnone : old.isPrefixOf rest = false :=
      Bool.eq_false_iff.mpr fun hstands => hstart (List.isPrefixOf_iff_prefix.mp hstands)
    simp [hnone]

/-- **Where the neighbours agree, the same occurrences are whole.** -/
theorem renameWhole_congr {part : Char → Bool} {old : List Char} (hne : old ≠ [])
    (new read : List Char) {previous : Option Char} {rest : List Char}
    (hprevious : read.getLast? = previous) (h : NeighboursAgree part old (read ++ rest)) :
    renameWhole part old new previous rest = renameWhole isWordChar old new previous rest := by
  -- The text `read` is what has been gone through; the neighbours agree in both together.
  fun_induction renameWhole isWordChar old new previous rest generalizing read with
  | case1 previous => rw [renameWhole]
  | case2 previous c cs hstands ih =>
    subst hprevious
    have hpart := (standsWhole_congr h).trans hstands
    obtain ⟨-, after, hsplit, -⟩ := standsWhole_iff.mp hstands
    obtain ⟨d, ds, rfl⟩ := List.exists_cons_of_ne_nil hne
    rw [List.cons_append] at hsplit
    obtain ⟨rfl, rfl⟩ := List.cons.inj hsplit
    rw [List.length_cons, Nat.add_sub_cancel, List.drop_left] at ih ⊢
    refine (renameWhole_append hne hpart).trans (congrArg (new ++ ·) ?_)
    refine ih (read ++ c :: ds) (List.getLast?_append_cons ..) ?_
    rwa [List.append_assoc, List.cons_append]
  | case3 previous c cs hstands ih =>
    subst hprevious
    have hpart : ¬ standsWhole part old read.getLast? (c :: cs) = true := by
      rwa [standsWhole_congr h]
    refine (renameWhole_cons_of_not hpart).trans (congrArg (c :: ·) ?_)
    refine ih (read ++ [c]) (List.getLast?_append_cons ..) ?_
    rwa [List.append_assoc, List.singleton_append]

/-! ## A renaming of one name -/

/-- A name without the marks in front of it. -/
def bare (name : String) : String :=
  String.ofList (identifierPart name.toList)

theorem bare_of_isName {name : String} (h : IsName name) : bare name = name := by
  rw [bare, Diff.identifierPart_of_isName h, String.ofList_toList]

/-- The renaming of one name. -/
def renamingOf (old new : String) : Renaming :=
  TextMap.empty.insert old new

theorem replaces_renamingOf_iff {old new : String} {word value : List Char} :
    Replaces (renamingOf old new) word value ↔
      word = (bare old).toList ∧ value = (bare new).toList ∧ word ≠ [] ∧ value ≠ word := by
  have hparts : identifierParts (renamingOf old new) =
      [((bare old).toList, (bare new).toList)] := by
    rw [bare, bare, String.toList_ofList, String.toList_ofList]
    rfl
  unfold Replaces
  rw [hparts]
  constructor
  · rintro ⟨hne, hchanged, earlier, later, hsplit, -⟩
    rcases List.singleton_eq_append_iff.mp hsplit with ⟨-, hentry⟩ | ⟨-, hentry⟩
    · obtain ⟨hpair, -⟩ := List.cons.inj hentry
      obtain ⟨rfl, rfl⟩ := Prod.mk.inj hpair
      exact ⟨rfl, rfl, hne, hchanged⟩
    · cases hentry
  · rintro ⟨rfl, rfl, hne, hchanged⟩
    exact ⟨hne, hchanged, [], [], rfl, fun entry hentry => absurd hentry List.not_mem_nil⟩

theorem wordFor_renamingOf {old new : String} {word : List Char} (hword : IsWord word) :
    (wordTable (renamingOf old new)).wordFor word =
      if IsName (bare old) ∧ word = (bare old).toList then (bare new).toList else word := by
  have hkept : ¬ (word = (bare old).toList ∧ (bare new).toList ≠ word) →
      (wordTable (renamingOf old new)).lookup word = none := by
    intro hnot
    refine Option.eq_none_iff_forall_ne_some.mpr fun value hvalue => hnot ?_
    obtain ⟨hold, rfl, -, hchanged⟩ := replaces_renamingOf_iff.mp (lookup_wordTable_iff.mp hvalue)
    exact ⟨hold, hchanged⟩
  unfold WordTable.wordFor
  by_cases hold : word = (bare old).toList
  · by_cases hname : IsName (bare old)
    · have hidentifier : isIdentifier word = true := hold ▸ hname.identifier
      rw [if_pos hidentifier, if_pos ⟨hname, hold⟩]
      by_cases hsame : (bare new).toList = word
      · rw [hkept fun h => h.2 hsame, hsame]
        rfl
      · rw [lookup_wordTable_iff.mpr (replaces_renamingOf_iff.mpr ⟨hold, rfl, hword.1, hsame⟩)]
        rfl
    · have hidentifier : ¬ isIdentifier word = true := by
        rw [hold] at hword ⊢
        exact fun h => hname ⟨h, hword⟩
      rw [if_neg hidentifier, if_neg fun h => hname h.1]
  · rw [hkept fun h => hold h.1, Option.getD_none, ite_self, if_neg fun h => hold h.2]

/-- **A renaming of one name replaces its whole occurrences, or nothing.** -/
theorem substitute_renamingOf (old new : String) (text : List Char) :
    substitute (wordTable (renamingOf old new)) text =
      if IsName (bare old) then
        renameWhole isWordChar (bare old).toList (bare new).toList none text
      else text := by
  rw [substitute_eq_mapWords]
  by_cases hname : IsName (bare old)
  · rw [if_pos hname, renameWhole_eq_mapWords hname.word _ (.inl rfl)]
    refine mapWords_congr (fun word hword => ?_) text
    rw [wordFor_renamingOf hword]
    simp [hname]
  · rw [if_neg hname]
    refine mapWords_eq_self fun word hword => ?_
    rw [wordFor_renamingOf (mem_words_iff.mp hword).1, if_neg fun h => hname h.1]

end Refactor.Statement

namespace Refactor.StatementComparison

open Statement

/-- **Which text a statement matches when one name is renamed.** It is the statement with the name
replaced, if the name begins with a letter or underscore of ASCII and goes on with word characters,
wherever the neighbours of the name are word characters just if they belong to identifiers. -/
theorem isMatch_renamed_iff (old new statement : String) :
    (∀ after, (between (renamingOf old new) statement after).isMatch = true ↔
      after = if IsName (bare old) then
          renameIdentifier Text.isWordChar (bare old) (bare new) statement
        else statement) ∧
      ∀ part, IsName old → bare new = new →
        NeighboursAgree part old.toList statement.toList →
        (between (renamingOf old new) statement
          (renameIdentifier part old new statement)).isMatch = true := by
  have hmatch : ∀ after, (between (renamingOf old new) statement after).isMatch = true ↔
      after = if IsName (bare old) then
          renameIdentifier Text.isWordChar (bare old) (bare new) statement
        else statement := by
    intro after
    rw [isMatch_between_iff, substitute_renamingOf, eq_comm, ← String.toList_inj]
    by_cases hname : IsName (bare old)
    · rw [if_pos hname, if_pos hname, renameIdentifier, String.toList_ofList]
    · rw [if_neg hname, if_neg hname]
  refine ⟨hmatch, fun part hname hnew hagree => (hmatch _).mpr ?_⟩
  rw [bare_of_isName hname, hnew, if_pos hname]
  exact congrArg String.ofList (renameWhole_congr hname.word.1 new.toList [] rfl hagree)

/-- A longer identifier, the suffix of a number and another name with a `$` stay. -/
theorem isMatch_renamed_iff_count :
    let statement := "return $t * n + 1n - n_(n)"
    IsName "n" ∧ bare "count" = "count" ∧
      NeighboursAgree Text.isIdentifierChar "n".toList statement.toList ∧
      renameIdentifier Text.isIdentifierChar "n" "count" statement =
        "return $t * count + 1n - n_(count)" ∧
      (between (renamingOf "n" "count") statement
        "return $t * count + 1n - n_(count)").isMatch = true := by
  intro statement
  have hname : IsName "n" := by decide +kernel
  have hbare : bare "count" = "count" := by decide +kernel
  have hagree : NeighboursAgree Text.isIdentifierChar "n".toList statement.toList := by
    decide +kernel
  have hrenamed : renameIdentifier Text.isIdentifierChar "n" "count" statement =
      "return $t * count + 1n - n_(count)" := by decide +kernel
  have hmatch := (isMatch_renamed_iff "n" "count" statement).2 _ hname hbare hagree
  rw [hrenamed] at hmatch
  exact ⟨hname, hbare, hagree, hrenamed, hmatch⟩

/-- A name that begins with a letter outside of ASCII is not found, and one that begins with `$` is
also replaced where it stands without it. -/
theorem accented_name_kept :
    (∀ name ∈ ["été", "hiver", "$x", "$y"], Text.isLegalName name = true) ∧
      renameIdentifier Text.isIdentifierChar "été" "hiver" "return été + 1" = "return hiver + 1" ∧
      (between (renamingOf "été" "hiver") "return été + 1" "return hiver + 1").isMatch = false ∧
      renameIdentifier Text.isIdentifierChar "$x" "$y" "return $x + x" = "return $y + x" ∧
      (between (renamingOf "$x" "$y") "return $x + x" "return $y + x").isMatch = false := by
  decide +kernel

end Refactor.StatementComparison
