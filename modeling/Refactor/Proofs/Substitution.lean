import Refactor.Proofs.ParameterRenaming
import Refactor.Proofs.WordRuns

/-!
# What a renaming does to a statement

**Theorem (`between_substitutes`).** The words of a statement that are identifiers and that the
renaming replaces are replaced, all at once, and nothing else changes. When this gives the other
statement, the replacements that are recorded are those of the words that occur, each once, by
first occurrence. A renaming between names that takes no two names to one is undone by its
inverse, unless the statement has a new name in it already.

Names in a renaming may have marks in front, and two of them may have the same identifier part.
`Replaces` says which entry counts then: the last of those that change the identifier.

The inverse law is an equation between words. What is put in is a word again, so the new text has
its words at the same places (`mapWords_mapWords`), and each of them goes back to what it was.
-/

namespace Refactor

/-! ## First occurrences -/

/-- Without repetitions, what is chosen from a list stands in the order in which it first occurs. -/
theorem pairwise_idxOf_eraseDups {α β : Type} [BEq α] [LawfulBEq α] [BEq β] [LawfulBEq β]
    {choose : α → Option β} {source : β → α}
    (hsource : ∀ a b, choose a = some b → source b = a) (l : List α) :
    (l.filterMap choose).eraseDups.Pairwise fun b b' =>
      l.idxOf (source b) < l.idxOf (source b') := by
  induction l using List.reverseRecOn with
  | nil => exact List.Pairwise.nil
  | append_singleton l a ih =>
    have hmem : ∀ b ∈ (l.filterMap choose).eraseDups, source b ∈ l := by
      intro b hb
      obtain ⟨a', ha', hchoose⟩ := List.mem_filterMap.mp (List.mem_eraseDups.mp hb)
      rwa [hsource a' b hchoose]
    have hearlier : (l.filterMap choose).eraseDups.Pairwise fun b b' =>
        (l ++ [a]).idxOf (source b) < (l ++ [a]).idxOf (source b') := by
      refine ih.imp_of_mem fun hb hb' hlt => ?_
      rwa [List.idxOf_append_of_mem (hmem _ hb), List.idxOf_append_of_mem (hmem _ hb')]
    rw [List.filterMap_append, List.eraseDups_append, List.pairwise_append]
    refine ⟨hearlier, ?_, fun b hb b' hb' => ?_⟩
    · cases hchoose : choose a with
      | none => simp [hchoose, List.removeAll]
      | some b =>
        by_cases hb : b ∈ l.filterMap choose
        · simp [hchoose, List.removeAll, hb]
        · simp [hchoose, List.removeAll, hb, List.eraseDups_cons]
    · -- What the last element adds has not occurred before.
      rw [List.mem_eraseDups] at hb'
      obtain ⟨hchosen, hnew⟩ := List.mem_filter.mp hb'
      obtain ⟨a', ha', hchoose⟩ := List.mem_filterMap.mp hchosen
      obtain rfl := List.mem_singleton.mp ha'
      have hfresh : a' ∉ l := by
        intro hold
        simp only [List.elem_eq_mem, List.mem_filterMap, Bool.not_eq_true', decide_eq_false_iff_not,
          not_exists, not_and] at hnew
        exact hnew a' hold hchoose
      rw [List.idxOf_append_of_mem (hmem b hb), hsource a' b' hchoose,
        List.idxOf_append_of_notMem hfresh]
      exact Nat.lt_add_right _ (List.idxOf_lt_length_of_mem (hmem b hb))

/-! ## Inverse renamings -/

namespace TextMap

theorem get?_ofList {α : Type} {entries : List (String × α)} (h : (entries.map Prod.fst).Nodup)
    (key : String) : (ofList entries).get? key = entries.lookup key := by
  have hstep : ∀ (m : TextMap α) (entry : String × α) (other : String),
      (m.insert entry.1 entry.2).get? other =
        if other = entry.1 then Function.const _ some (m.get? other) entry.2 else m.get? other :=
    fun m entry other => get?_insert m entry.1 other entry.2
  rw [ofList, get?_foldl_of_nodup hstep h]
  cases entries.lookup key <;> rfl

/-- The map that leads back from values to keys. -/
def inverse (m : TextMap String) : TextMap String :=
  ofList (m.entries.map Prod.swap)

theorem get?_inverse {m : TextMap String}
    (hinj : ∀ a b value, m.get? a = some value → m.get? b = some value → a = b)
    {key value : String} :
    m.inverse.get? value = some key ↔ m.get? key = some value := by
  have hnodup : ((m.entries.map Prod.swap).map Prod.fst).Nodup := by
    rw [List.map_map]
    refine m.nodup_keys.of_map.map_on fun entry hentry other hother heq => ?_
    have hentry := mem_entries_iff.mp hentry
    have hother := mem_entries_iff.mp hother
    have heq : entry.2 = other.2 := heq
    rw [← heq] at hother
    exact Prod.ext (hinj _ _ _ hentry hother) heq
  rw [inverse, get?_ofList hnodup, lookup_eq_some_iff_mem hnodup, List.mem_map]
  constructor
  · rintro ⟨entry, hentry, hswap⟩
    obtain ⟨rfl, rfl⟩ := Prod.mk.inj hswap
    exact mem_entries_iff.mp hentry
  · intro h
    exact ⟨(key, value), mem_entries_iff.mpr h, rfl⟩

end TextMap

namespace Statement

/-! ## What a renaming replaces -/

/-- The identifier parts of the names in a renaming. -/
def identifierParts (renames : Renaming) : List (List Char × List Char) :=
  renames.entries.map fun entry => (identifierPart entry.1.toList, identifierPart entry.2.toList)

/-- A renaming replaces a word by a value: of the entries with this identifier part that change it,
the last one has this value. -/
def Replaces (renames : Renaming) (word value : List Char) : Prop :=
  word ≠ [] ∧ value ≠ word ∧
    ∃ earlier later, identifierParts renames = earlier ++ (word, value) :: later ∧
      ∀ entry ∈ later, entry.1 = word → entry.2 = word

/-- A reversed list is searched from its end. -/
theorem lookup_filter_reverse {κ α : Type} [BEq κ] [LawfulBEq κ] {p : κ × α → Bool}
    {entries : List (κ × α)} {key : κ} {value : α} :
    (entries.reverse.filter p).lookup key = some value ↔
      p (key, value) = true ∧ ∃ earlier later, entries = earlier ++ (key, value) :: later ∧
        ∀ entry ∈ later, entry.1 = key → p entry = false := by
  rw [List.filter_reverse, List.lookup_eq_some_iff]
  constructor
  · rintro ⟨later, earlier, hsplit, hlater⟩
    have hsplit : entries.filter p = earlier.reverse ++ (key, value) :: later.reverse := by
      rw [← List.reverse_reverse (entries.filter p), hsplit]
      simp
    obtain ⟨first, rest, rfl, -, hrest⟩ := List.filter_eq_append_iff.mp hsplit
    obtain ⟨skipped, last, rfl, -, hp, hlast⟩ := List.filter_eq_cons_iff.mp hrest
    refine ⟨hp, first ++ skipped, last, by simp, fun entry hentry hkey => ?_⟩
    refine Bool.eq_false_iff.mpr fun hkept => ?_
    have hmem : entry ∈ later := by
      rw [← List.mem_reverse, ← hlast]
      exact List.mem_filter.mpr ⟨hentry, hkept⟩
    simpa [hkey] using hlater entry hmem
  · rintro ⟨hp, earlier, later, rfl, hlater⟩
    refine ⟨(later.filter p).reverse, (earlier.filter p).reverse, ?_, fun entry hentry => ?_⟩
    · rw [List.filter_append, List.filter_cons_of_pos hp]
      simp
    · obtain ⟨hentry, hkept⟩ := List.mem_filter.mp (List.mem_reverse.mp hentry)
      refine bne_iff_ne.mpr fun hkey => ?_
      rw [hlater entry hentry hkey.symm] at hkept
      cases hkept

/-- **The table of a renaming has what the renaming replaces.** -/
theorem lookup_wordTable_iff {renames : Renaming} {word value : List Char} :
    (wordTable renames).lookup word = some value ↔ Replaces renames word value := by
  unfold wordTable Replaces
  rw [lookup_filter_reverse]
  simp only [decide_eq_true_eq, decide_eq_false_iff_not, not_and, Decidable.not_not]
  constructor
  · rintro ⟨⟨hne, hchanged⟩, earlier, later, hsplit, hlater⟩
    refine ⟨hne, Ne.symm hchanged, earlier, later, hsplit, fun entry hentry hword => ?_⟩
    have hsame := hlater entry hentry hword (by rwa [hword])
    rw [← hsame, hword]
  · rintro ⟨hne, hchanged, earlier, later, hsplit, hlater⟩
    refine ⟨⟨hne, Ne.symm hchanged⟩, earlier, later, hsplit, fun entry hentry hword _ => ?_⟩
    rw [hlater entry hentry hword, hword]

/-- The words that are replaced, and what by. -/
theorem replaced_eq (table : WordTable) (text : List Char) :
    replaced table text = ((words text).filterMap fun word =>
      if isIdentifier word then (table.lookup word).map fun after => (word, after)
      else none).eraseDups := by
  unfold replaced words
  rw [List.filterMap_filterMap]
  congr 1
  refine List.filterMap_congr fun piece _ => ?_
  cases piece with
  | word chars =>
    by_cases h : isIdentifier chars = true
    · simp [Piece.lookup?, Piece.word?, Piece.chars, h]
    · simp [Piece.lookup?, Piece.word?, h]
  | gap c => rfl

theorem mem_replaced_iff {renames : Renaming} {text word value : List Char} :
    (word, value) ∈ replaced (wordTable renames) text ↔
      IsWordOf word text ∧ isIdentifier word = true ∧ Replaces renames word value := by
  rw [replaced_eq, List.mem_eraseDups, List.mem_filterMap, ← mem_words_iff, ← lookup_wordTable_iff]
  constructor
  · rintro ⟨word', hmem, hfound⟩
    split at hfound
    · rename_i hidentifier
      obtain ⟨after, hlookup, hpair⟩ := Option.map_eq_some_iff.mp hfound
      obtain ⟨rfl, rfl⟩ := Prod.mk.inj hpair
      exact ⟨hmem, hidentifier, hlookup⟩
    · cases hfound
  · rintro ⟨hmem, hidentifier, hlookup⟩
    exact ⟨word, hmem, by simp [hidentifier, hlookup]⟩

theorem pairwise_replaced (table : WordTable) (text : List Char) :
    (replaced table text).Pairwise fun pair pair' =>
      (words text).idxOf pair.1 < (words text).idxOf pair'.1 := by
  rw [replaced_eq]
  refine pairwise_idxOf_eraseDups (fun word pair hfound => ?_) _
  split at hfound
  · obtain ⟨after, -, rfl⟩ := Option.map_eq_some_iff.mp hfound
    rfl
  · cases hfound

/-! ## Renamings between names -/

/-- All keys and values are names. -/
def BetweenNames (renames : Renaming) : Prop :=
  ∀ name value, renames.get? name = some value → IsName name ∧ IsName value

theorem identifierParts_of_names {renames : Renaming} (h : BetweenNames renames) :
    identifierParts renames =
      renames.entries.map fun entry => (entry.1.toList, entry.2.toList) := by
  refine List.map_congr_left fun entry hentry => ?_
  obtain ⟨hkey, hvalue⟩ := h entry.1 entry.2 (TextMap.mem_entries_iff.mp hentry)
  rw [Diff.identifierPart_of_isName hkey, Diff.identifierPart_of_isName hvalue]

theorem replaces_iff_of_names {renames : Renaming} (h : BetweenNames renames)
    {name value : String} : Replaces renames name.toList value.toList ↔
      renames.get? name = some value ∧ value ≠ name := by
  unfold Replaces
  rw [identifierParts_of_names h]
  constructor
  · rintro ⟨-, hchanged, earlier, later, hsplit, -⟩
    have hmem : (name.toList, value.toList) ∈
        renames.entries.map fun entry => (entry.1.toList, entry.2.toList) := by
      rw [hsplit]
      simp
    obtain ⟨entry, hentry, hpair⟩ := List.mem_map.mp hmem
    obtain ⟨hname, hvalue⟩ := Prod.mk.inj hpair
    rw [← String.toList_inj.mp hname, ← String.toList_inj.mp hvalue]
    refine ⟨TextMap.mem_entries_iff.mp hentry, fun heq => hchanged ?_⟩
    rw [← hvalue, heq, hname]
  · rintro ⟨hget, hchanged⟩
    refine ⟨(h name value hget).1.word.1, fun heq => hchanged (String.toList_inj.mp heq), ?_⟩
    obtain ⟨earlier, later, hsplit⟩ :=
      List.append_of_mem (TextMap.mem_entries_iff.mpr hget : (name, value) ∈ renames.entries)
    refine ⟨_, _, by rw [hsplit, List.map_append, List.map_cons], fun entry hentry hname => ?_⟩
    -- Keys are distinct, so no later entry has this one.
    obtain ⟨other, hother, rfl⟩ := List.mem_map.mp hentry
    have hnodup := renames.nodup_keys
    rw [hsplit, List.map_append, List.map_cons] at hnodup
    refine absurd ?_ (List.nodup_cons.mp (List.nodup_append.mp hnodup).2.1).1
    exact List.mem_map.mpr ⟨other, hother, String.toList_inj.mp hname⟩

/-- Between names, a word is replaced by what the renaming has for it. -/
theorem wordFor_of_names {renames : Renaming} (h : BetweenNames renames) (word : List Char) :
    (wordTable renames).wordFor word =
      ((renames.get? (String.ofList word)).getD (String.ofList word)).toList := by
  have hlookup : ∀ value : String, (wordTable renames).lookup word = some value.toList ↔
      renames.get? (String.ofList word) = some value ∧ value ≠ String.ofList word := by
    intro value
    rw [lookup_wordTable_iff, ← replaces_iff_of_names h, String.toList_ofList]
  have hkept : (∀ value, renames.get? (String.ofList word) = some value →
      value = String.ofList word) → (wordTable renames).lookup word = none := by
    intro hall
    cases hfound : (wordTable renames).lookup word with
    | none => rfl
    | some value =>
      rw [← String.toList_ofList (l := value)] at hfound
      obtain ⟨hget, hne⟩ := (hlookup _).mp hfound
      exact absurd (hall _ hget) hne
  unfold WordTable.wordFor
  cases hget : renames.get? (String.ofList word) with
  | none =>
    rw [hkept fun value hvalue => absurd (hget.symm.trans hvalue) nofun]
    simp
  | some value =>
    have hidentifier := (h _ _ hget).1.identifier
    rw [String.toList_ofList] at hidentifier
    rw [if_pos hidentifier]
    by_cases hchanged : value = String.ofList word
    · rw [hkept fun other hother => (Option.some.inj (hother.symm.trans hget)).trans hchanged]
      simp [hchanged]
    · rw [(hlookup value).mpr ⟨hget, hchanged⟩]
      rfl

/-- A renaming between names that takes no two names to one. -/
structure Invertible (renames : Renaming) : Prop where
  names : BetweenNames renames
  injective : ∀ a b value, renames.get? a = some value → renames.get? b = some value → a = b

theorem Invertible.names_inverse {renames : Renaming} (h : Invertible renames) :
    BetweenNames renames.inverse := by
  intro value name hvalue
  exact (h.names name value ((TextMap.get?_inverse h.injective).mp hvalue)).symm

theorem isWord_wordFor {renames : Renaming} (h : BetweenNames renames) (word : List Char)
    (hword : IsWord word) : IsWord ((wordTable renames).wordFor word) := by
  rw [wordFor_of_names h]
  cases hget : renames.get? (String.ofList word) with
  | none => simpa using hword
  | some value => exact (h _ _ hget).2.word

/-- A word goes back to what it was, unless it is a new name that is no old one. -/
theorem wordFor_inverse {renames : Renaming} (h : Invertible renames) {word : List Char}
    (hfree : ∀ name, renames.get? name = some (String.ofList word) →
      (renames.get? (String.ofList word)).isSome = true) :
    (wordTable renames.inverse).wordFor ((wordTable renames).wordFor word) = word := by
  rw [wordFor_of_names h.names_inverse, wordFor_of_names h.names, String.ofList_toList]
  cases hget : renames.get? (String.ofList word) with
  | some value =>
    rw [Option.getD_some, (TextMap.get?_inverse h.injective).mpr hget, Option.getD_some,
      String.toList_ofList]
  | none =>
    have hinverse : renames.inverse.get? (String.ofList word) = none := by
      refine Option.eq_none_iff_forall_ne_some.mpr fun name hname => ?_
      have hsome := hfree name ((TextMap.get?_inverse h.injective).mp hname)
      rw [hget] at hsome
      cases hsome
    rw [Option.getD_none, hinverse, Option.getD_none, String.toList_ofList]

/-- **Replacing words and then replacing them back leaves the text as it was.** -/
theorem substitute_inverse {renames : Renaming} (h : Invertible renames) {text : List Char}
    (hfree : ∀ name value, renames.get? name = some value → IsWordOf value.toList text →
      (renames.get? value).isSome = true) :
    substitute (wordTable renames.inverse) (substitute (wordTable renames) text) = text := by
  rw [substitute_eq_mapWords, substitute_eq_mapWords, mapWords_mapWords (isWord_wordFor h.names)]
  refine mapWords_eq_self fun word hword => wordFor_inverse h fun name hname => ?_
  refine hfree name _ hname ?_
  rw [String.toList_ofList]
  exact mem_words_iff.mp hword

end Statement

namespace StatementComparison

open Statement

theorem renamed_between (renames : Renaming) (old new : String) :
    (between renames old new).renamed =
      String.ofList (substitute (wordTable renames) old.toList) :=
  rfl

theorem isMatch_between_iff {renames : Renaming} {old new : String} :
    (between renames old new).isMatch = true ↔
      substitute (wordTable renames) old.toList = new.toList := by
  unfold isMatch
  rw [beq_iff_eq, renamed_between, ← String.toList_inj, String.toList_ofList]
  rfl

theorem replacements_of_isMatch {renames : Renaming} {old new : String}
    (h : (between renames old new).isMatch = true) : (between renames old new).replacements =
      (replaced (wordTable renames) old.toList).map fun pair =>
        ⟨.parameterName, String.ofList pair.1, String.ofList pair.2⟩ := by
  unfold between
  dsimp only
  rw [if_pos (isMatch_between_iff.mp h)]
  rfl

/-- **A renaming replaces whole identifiers, all at once, and records what it replaces.** -/
theorem between_substitutes (renames : Renaming) (old new : String) :
    let comparison := between renames old new
    (∀ word value, (wordTable renames).lookup word = some value ↔ Replaces renames word value) ∧
      comparison.renamed.toList = mapWords (wordTable renames).wordFor old.toList ∧
      (comparison.isMatch = true →
        (∀ r, r ∈ comparison.replacements ↔ ∃ word value, IsWordOf word old.toList ∧
          isIdentifier word = true ∧ Replaces renames word value ∧
          r = ⟨.parameterName, String.ofList word, String.ofList value⟩) ∧
        comparison.replacements.Pairwise fun r r' =>
          (words old.toList).idxOf r.before.toList < (words old.toList).idxOf r'.before.toList) ∧
      (Invertible renames →
        (∀ name value, renames.get? name = some value → IsWordOf value.toList old.toList →
          (renames.get? value).isSome = true) →
        ∀ other, (between renames.inverse comparison.renamed other).renamed = old) := by
  intro comparison
  refine ⟨fun word value => lookup_wordTable_iff, ?_, fun hmatch => ⟨fun r => ?_, ?_⟩,
    fun hinvertible hfree other => ?_⟩
  · rw [renamed_between, String.toList_ofList, substitute_eq_mapWords]
  · rw [replacements_of_isMatch hmatch, List.mem_map]
    constructor
    · rintro ⟨⟨word, value⟩, hmem, rfl⟩
      obtain ⟨hword, hidentifier, hreplaces⟩ := mem_replaced_iff.mp hmem
      exact ⟨word, value, hword, hidentifier, hreplaces, rfl⟩
    · rintro ⟨word, value, hword, hidentifier, hreplaces, rfl⟩
      exact ⟨(word, value), mem_replaced_iff.mpr ⟨hword, hidentifier, hreplaces⟩, rfl⟩
  · rw [replacements_of_isMatch hmatch, List.pairwise_map]
    simpa only [String.toList_ofList] using pairwise_replaced (wordTable renames) old.toList
  · rw [renamed_between, renamed_between, String.toList_ofList,
      substitute_inverse hinvertible hfree, String.ofList_toList]

/-- Two names are exchanged and a third gets a new one. The suffix of a number and a longer word
stay, and `count`, which is new, leads back to `n`. -/
theorem between_substitutes_exchanged :
    let renames : Renaming := .ofList [("a", "b"), ("b", "a"), ("n", "count")]
    let old := "a = n + 1n - b(n1, n)"
    let new := "b = count + 1n - a(n1, count)"
    let comparison := between renames old new
    comparison.isMatch = true ∧ Invertible renames ∧
      comparison.replacements.map Replacement.before = ["a", "n", "b"] ∧
      ⟨.parameterName, "n", "count"⟩ ∈ comparison.replacements ∧
      (between renames.inverse comparison.renamed old).renamed = old := by
  intro renames old new comparison
  have hmatch : comparison.isMatch = true := by decide +kernel
  have hnames : ∀ entry ∈ renames.entries, IsName entry.1 ∧ IsName entry.2 := by decide +kernel
  have hinj : ∀ entry ∈ renames.entries, ∀ other ∈ renames.entries,
      entry.2 = other.2 → entry.1 = other.1 := by decide +kernel
  have hfree : ∀ entry ∈ renames.entries, IsWordOf entry.2.toList old.toList →
      (renames.get? entry.2).isSome = true := by decide +kernel
  have hinvertible : Invertible renames :=
    { names := fun name value h => hnames (name, value) (TextMap.mem_entries_iff.mpr h)
      injective := fun a b value ha hb => hinj (a, value) (TextMap.mem_entries_iff.mpr ha)
        (b, value) (TextMap.mem_entries_iff.mpr hb) rfl }
  obtain ⟨-, -, hrecorded, hinverse⟩ := between_substitutes renames old new
  have hreplaces : Replaces renames "n".toList "count".toList :=
    lookup_wordTable_iff.mp (by decide +kernel)
  refine ⟨hmatch, hinvertible, by decide +kernel, ?_, hinverse hinvertible (fun name value h =>
    hfree (name, value) (TextMap.mem_entries_iff.mpr h)) old⟩
  exact ((hrecorded hmatch).1 _).mpr
    ⟨"n".toList, "count".toList, by decide +kernel, by decide +kernel, hreplaces, by simp⟩

end StatementComparison

end Refactor
