import Refactor.Proofs.FuzzyPass
import Refactor.Proofs.OperationIndex

/-!
# Matching the operations of two models

Both passes together link entries of the two indexes.

**Theorem (`matchOperations_oneToOne`).** There is one link for every signature that both indexes
have, in the old order, and then those of the fuzzy pass. No entry of either index is in two of
them. A fuzzy link joins entries whose signatures only their own index has, whose names are
related and whose bodies are similar enough.

**Theorem (`fuzzy_pass_greedy`).** In its turn an old entry is linked with the first of the best
new entries that are left, and no acceptable pair of entries is left at the end.

The fuzzy pass is a sequence of turns (`exists_turns`). What is added here is where its entries
come from: they are those whose signatures the other index does not have, so the links of the
two passes never meet.
-/

namespace Refactor.Diff

/-- The operations of a model by their signatures, as they are compared with an old model. -/
def signatureIndex (old model : CodeModel) : OperationIndex :=
  OperationIndex.ofOperations (signatureKey old) model.allOperations

/-- The entries of an index whose signatures another index does not have. -/
def entriesOnlyIn (index other : OperationIndex) : OperationIndex :=
  index.filter fun entry => !other.contains entry.1

theorem mem_entriesOnlyIn {index other : OperationIndex} {entry : Entry} :
    entry ∈ entriesOnlyIn index other ↔ entry ∈ index ∧ entry.1 ∉ other.map Prod.fst := by
  rw [entriesOnlyIn, List.mem_filter, ← OperationIndex.contains_iff_mem]
  simp

theorem nodup_signatureIndex (old model : CodeModel) :
    ((signatureIndex old model).map Prod.fst).Nodup :=
  OperationIndex.nodup_keys_ofOperations (signatureKey old) model.allOperations

theorem nodup_entriesOnlyIn {index : OperationIndex} (h : (index.map Prod.fst).Nodup)
    (other : OperationIndex) : ((entriesOnlyIn index other).map Prod.fst).Nodup :=
  h.sublist (List.filter_sublist.map Prod.fst)

theorem matchOperations_eq (config : Config) (old new : CodeModel) :
    matchOperations config old new =
      exactMatches config (signatureIndex old old) (signatureIndex old new) ++
        fuzzyMatches config (entriesOnlyIn (signatureIndex old old) (signatureIndex old new))
          (entriesOnlyIn (signatureIndex old new) (signatureIndex old old)) :=
  rfl

/-! ## Links by signature -/

/-- The links of entries with the same signature, in the old order. -/
def exactLinks (old new : OperationIndex) : List Link :=
  old.filterMap fun entry => (new.get? entry.1).map fun o => ⟨entry, (entry.1, o)⟩

theorem exactMatches_eq (config : Config) (old new : OperationIndex) :
    exactMatches config old new = (exactLinks old new).map (Link.mapping config) := by
  rw [exactMatches, exactLinks, List.map_filterMap]
  refine List.filterMap_congr fun entry _ => ?_
  rw [Option.map_map]
  rfl

theorem mem_exactLinks {old new : OperationIndex} {link : Link} (h : link ∈ exactLinks old new) :
    link.old ∈ old ∧ link.new ∈ new ∧ link.new.1 = link.old.1 := by
  obtain ⟨entry, hentry, hlink⟩ := List.mem_filterMap.mp h
  obtain ⟨o, ho, rfl⟩ := Option.map_eq_some_iff.mp hlink
  exact ⟨hentry, OperationIndex.mem_of_get? ho, rfl⟩

/-- Every signature that both indexes have is linked once. -/
theorem exactLinks_keys (old new : OperationIndex) :
    ((exactLinks old new).map fun link => link.old.1) =
      (old.map Prod.fst).filter new.contains := by
  induction old with
  | nil => rfl
  | cons entry rest ih =>
    unfold exactLinks at ih ⊢
    rw [List.map_cons, List.filter_cons]
    cases hfound : new.get? entry.1 with
    | none =>
      rw [List.filterMap_cons_none (by rw [hfound]; rfl), ih,
        if_neg (by simp [OperationIndex.contains, hfound])]
    | some o =>
      rw [List.filterMap_cons_some (by rw [hfound]; rfl), List.map_cons, ih,
        if_pos (by simp [OperationIndex.contains, hfound])]

theorem exactLinks_new_keys (old new : OperationIndex) :
    ((exactLinks old new).map fun link => link.new.1) =
      (exactLinks old new).map fun link => link.old.1 :=
  List.map_congr_left fun _ hlink => (mem_exactLinks hlink).2.2

/-! ## Fuzzy links -/

/-- What a link of the fuzzy pass is. -/
structure IsFuzzyLink (config : Config) (oldIndex newIndex : OperationIndex) (link : Link) :
    Prop where
  old_mem : link.old ∈ oldIndex
  new_mem : link.new ∈ newIndex
  old_absent : link.old.1 ∉ newIndex.map Prod.fst
  new_absent : link.new.1 ∉ oldIndex.map Prod.fst
  related : Names.related config.maxDistance link.old.2.name link.new.2.name = true
  bodies : ∃ before after, link.old.2.body = some before ∧ link.new.2.body = some after ∧
    splitStatements before ≠ [] ∧ splitStatements after ≠ []
  positive : Binary64.zero.lt (link.mapping config).score = true
  reaches : config.threshold.le (link.mapping config).score = true
  /-- Of different names, the last refactoring says that the operation was renamed, and no other
  one does. -/
  renamed : link.old.2.name ≠ link.new.2.name →
    ∃ others, (link.mapping config).refactorings =
        others ++ [.renameMethod link.old.2 link.new.2] ∧
      ∀ r ∈ others, r.kind ≠ .renameMethod
  not_renamed : link.old.2.name = link.new.2.name →
    ∀ r ∈ (link.mapping config).refactorings, r.kind ≠ .renameMethod

theorem isFuzzyLink_of_acceptable {config : Config} {oldIndex newIndex : OperationIndex}
    {link : Link} (hold : link.old ∈ entriesOnlyIn oldIndex newIndex)
    (hnew : link.new ∈ entriesOnlyIn newIndex oldIndex)
    (h : Acceptable config link.old link.new) : IsFuzzyLink config oldIndex newIndex link where
  old_mem := (mem_entriesOnlyIn.mp hold).1
  new_mem := (mem_entriesOnlyIn.mp hnew).1
  old_absent := (mem_entriesOnlyIn.mp hold).2
  new_absent := (mem_entriesOnlyIn.mp hnew).2
  related := h.related
  bodies := OperationMapping.bodies_of_score_pos h.positive
  positive := h.positive
  reaches := h.reaches
  renamed := fun hname =>
    ⟨_, OperationMapping.refactorings_of_name_ne hname h.reaches,
      fun _ hr => ParameterMapping.kind_ne_renameMethod hr⟩
  not_renamed := fun hname r hr => by
    rw [Link.mapping, OperationMapping.refactorings_of_name_eq config hname] at hr
    exact ParameterMapping.kind_ne_renameMethod hr

section
variable {config : Config} {oldIndex newIndex : OperationIndex} {links : List Link}

theorem isFuzzyLink_of_turns
    (h : Turns config (entriesOnlyIn oldIndex newIndex) (entriesOnlyIn newIndex oldIndex) links)
    {link : Link} (hlink : link ∈ links) : IsFuzzyLink config oldIndex newIndex link :=
  isFuzzyLink_of_acceptable (h.olds_sublist.subset (List.mem_map_of_mem hlink))
    (h.news_subperm.subset (List.mem_map_of_mem hlink)) (h.acceptable hlink)

/-- No old entry is in two links: those of the fuzzy pass are not in the new index. -/
theorem nodup_old_keys (hnodup : (oldIndex.map Prod.fst).Nodup)
    (h : Turns config (entriesOnlyIn oldIndex newIndex) (entriesOnlyIn newIndex oldIndex) links) :
    ((exactLinks oldIndex newIndex ++ links).map fun link => link.old.1).Nodup := by
  rw [List.map_append, List.nodup_append']
  refine ⟨?_, ?_, ?_⟩
  · rw [exactLinks_keys]
    exact hnodup.filter _
  · have hsub := h.olds_sublist.map Prod.fst
    rw [List.map_map] at hsub
    exact (nodup_entriesOnlyIn hnodup newIndex).sublist hsub
  · intro key hexact hfuzzy
    obtain ⟨link, hlink, rfl⟩ := List.mem_map.mp hfuzzy
    rw [exactLinks_keys, List.mem_filter, OperationIndex.contains_iff_mem] at hexact
    exact (isFuzzyLink_of_turns h hlink).old_absent hexact.2

/-- No new entry is in two links: those of the fuzzy pass are not in the old index. -/
theorem nodup_new_keys (hold : (oldIndex.map Prod.fst).Nodup) (hnew : (newIndex.map Prod.fst).Nodup)
    (h : Turns config (entriesOnlyIn oldIndex newIndex) (entriesOnlyIn newIndex oldIndex) links) :
    ((exactLinks oldIndex newIndex ++ links).map fun link => link.new.1).Nodup := by
  rw [List.map_append, List.nodup_append', exactLinks_new_keys, exactLinks_keys]
  refine ⟨hold.filter _, ?_, ?_⟩
  · obtain ⟨taken, hperm, hsub⟩ := h.news_subperm
    have hnodup := (nodup_entriesOnlyIn hnew oldIndex).sublist (hsub.map Prod.fst)
    rw [(hperm.map Prod.fst).nodup_iff, List.map_map] at hnodup
    exact hnodup
  · intro key hexact hfuzzy
    obtain ⟨link, hlink, rfl⟩ := List.mem_map.mp hfuzzy
    exact (isFuzzyLink_of_turns h hlink).new_absent (List.mem_filter.mp hexact).1

end

/-- **Operations are matched one to one**, first by signature and then by names and bodies. -/
theorem matchOperations_oneToOne (config : Config) (old new : CodeModel) :
    ∃ exact fuzzy : List Link,
      matchOperations config old new = (exact ++ fuzzy).map (Link.mapping config) ∧
      (exact.map fun link => link.old.1) =
        ((signatureIndex old old).map Prod.fst).filter (signatureIndex old new).contains ∧
      (∀ link ∈ exact, link.old ∈ signatureIndex old old ∧ link.new ∈ signatureIndex old new ∧
        link.new.1 = link.old.1) ∧
      (∀ link ∈ fuzzy, IsFuzzyLink config (signatureIndex old old) (signatureIndex old new) link) ∧
      ((exact ++ fuzzy).map fun link => link.old.1).Nodup ∧
      ((exact ++ fuzzy).map fun link => link.new.1).Nodup := by
  obtain ⟨fuzzy, hturns, hfuzzy⟩ := exists_turns config
    (entriesOnlyIn (signatureIndex old old) (signatureIndex old new))
    (entriesOnlyIn (signatureIndex old new) (signatureIndex old old))
  refine ⟨exactLinks (signatureIndex old old) (signatureIndex old new), fuzzy, ?_,
    exactLinks_keys _ _, fun link hlink => mem_exactLinks hlink,
    fun link hlink => isFuzzyLink_of_turns hturns hlink,
    nodup_old_keys (nodup_signatureIndex old old) hturns,
    nodup_new_keys (nodup_signatureIndex old old) (nodup_signatureIndex old new) hturns⟩
  rw [matchOperations_eq, exactMatches_eq, hfuzzy, List.map_append]

/-! ## Greedy choices -/

/-- The new entries that an old one can be linked with after the links `earlier`, in their order:
those of related names whose signatures the old index does not have and that are not claimed. -/
def contenders (config : Config) (oldIndex newIndex : OperationIndex) (earlier : List Link)
    (old : Entry) : OperationIndex :=
  newIndex.filter fun entry =>
    Names.related config.maxDistance old.2.name entry.2.name && !oldIndex.contains entry.1 &&
      !(earlier.map fun link => link.new.1).contains entry.1

theorem contenders_eq (config : Config) (oldIndex newIndex : OperationIndex) (earlier : List Link)
    (old : Entry) : contenders config oldIndex newIndex earlier old =
      (Turns.unclaimed earlier (entriesOnlyIn newIndex oldIndex)).filter fun entry =>
        Names.related config.maxDistance old.2.name entry.2.name := by
  rw [Turns.unclaimed, entriesOnlyIn, List.filter_filter, List.filter_filter, contenders]
  refine List.filter_congr fun entry _ => ?_
  rw [Bool.and_assoc, Bool.and_assoc, Bool.and_comm (!oldIndex.contains entry.1)]

/-- The choice of a turn, among the contenders. -/
theorem chosen_among_contenders {config : Config} {oldIndex newIndex : OperationIndex}
    {links earlier later : List Link} {link : Link}
    (h : Turns config (entriesOnlyIn oldIndex newIndex) (entriesOnlyIn newIndex oldIndex) links)
    (hnodup : (newIndex.map Prod.fst).Nodup) (hsplit : links = earlier ++ link :: later) :
    ∃ before after,
      contenders config oldIndex newIndex earlier link.old = before ++ link.new :: after ∧
      (∀ other ∈ before, (entryScore config link.old other).lt
        (entryScore config link.old link.new) = true) ∧
      ∀ other ∈ after, (entryScore config link.old other).le
        (entryScore config link.old link.new) = true := by
  obtain ⟨before, after, hunclaimed, hchosen⟩ :=
    h.chosen_among_unclaimed (nodup_entriesOnlyIn hnodup oldIndex) hsplit
  refine ⟨before.filter fun entry => Names.related config.maxDistance link.old.2.name entry.2.name,
    after.filter fun entry => Names.related config.maxDistance link.old.2.name entry.2.name,
    ?_, fun other hother => ?_, fun other hother => ?_⟩
  · have hrelated : Names.related config.maxDistance link.old.2.name link.new.2.name = true :=
      hchosen.acceptable.related
    rw [contenders_eq, hunclaimed, List.filter_append, List.filter_cons, if_pos hrelated]
  · obtain ⟨hother, hrelated⟩ := List.mem_filter.mp hother
    exact hchosen.first other hother hrelated
  · obtain ⟨hother, hrelated⟩ := List.mem_filter.mp hother
    exact hchosen.best other hother hrelated

/-- Why two entries are not acceptable. A threshold that is not a number is reached by no score;
any other one that is not reached lies above the score. -/
theorem cases_of_not_acceptable {config : Config} {old new : Entry}
    (h : ¬ Acceptable config old new) :
    Names.related config.maxDistance old.2.name new.2.name = false ∨
      entryScore config old new = .zero ∨
      (config.threshold.le (entryScore config old new) = false ∧
        (config.threshold ≠ .nan → (entryScore config old new).lt config.threshold = true)) := by
  by_cases hrelated : EntriesRelated config old new
  · by_cases hpositive : Binary64.zero.lt (entryScore config old new) = true
    · have hmisses : ¬ config.threshold.le (entryScore config old new) = true :=
        fun hreaches => h ⟨hrelated, hpositive, hreaches⟩
      exact .inr (.inr ⟨Bool.eq_false_iff.mpr hmisses, fun hnan =>
        Binary64.lt_of_not_le hnan (entryScore_ne_nan config old new) hmisses⟩)
    · exact .inr (.inl (entryScore_eq_zero hpositive))
  · exact .inl (Bool.eq_false_iff.mpr hrelated)

/-- **The fuzzy pass is greedy.** Old entries have their turns in their order. The one that is
linked scores higher with its new entry than with every contender before it, and no lower than
with every contender after it. At the end no old and new entry without a link are acceptable. -/
theorem fuzzy_pass_greedy (config : Config) (old new : CodeModel) :
    ∃ fuzzy : List Link,
      matchOperations config old new =
        exactMatches config (signatureIndex old old) (signatureIndex old new) ++
          fuzzy.map (Link.mapping config) ∧
      (fuzzy.map Link.old).Sublist (signatureIndex old old) ∧
      (∀ earlier link later, fuzzy = earlier ++ link :: later →
        ∃ before after,
          contenders config (signatureIndex old old) (signatureIndex old new) earlier link.old =
            before ++ link.new :: after ∧
          (∀ other ∈ before, (entryScore config link.old other).lt
            (entryScore config link.old link.new) = true) ∧
          ∀ other ∈ after, (entryScore config link.old other).le
            (entryScore config link.old link.new) = true) ∧
      ∀ o ∈ signatureIndex old old, ∀ n ∈ signatureIndex old new,
        o.1 ∉ (signatureIndex old new).map Prod.fst → (∀ link ∈ fuzzy, link.old.1 ≠ o.1) →
        n.1 ∉ (signatureIndex old old).map Prod.fst → (∀ link ∈ fuzzy, link.new.1 ≠ n.1) →
        Names.related config.maxDistance o.2.name n.2.name = false ∨
          entryScore config o n = .zero ∨
          (config.threshold.le (entryScore config o n) = false ∧
            (config.threshold ≠ .nan → (entryScore config o n).lt config.threshold = true)) := by
  obtain ⟨fuzzy, hturns, hfuzzy⟩ := exists_turns config
    (entriesOnlyIn (signatureIndex old old) (signatureIndex old new))
    (entriesOnlyIn (signatureIndex old new) (signatureIndex old old))
  refine ⟨fuzzy, ?_, hturns.olds_sublist.trans List.filter_sublist,
    fun earlier link later hsplit =>
      chosen_among_contenders hturns (nodup_signatureIndex old new) hsplit, ?_⟩
  · rw [matchOperations_eq, hfuzzy]
  · intro o ho n hn ho_absent ho_left hn_absent hn_left
    refine cases_of_not_acceptable (hturns.not_acceptable_of_left
      (mem_entriesOnlyIn.mpr ⟨ho, ho_absent⟩) (mem_entriesOnlyIn.mpr ⟨hn, hn_absent⟩) ?_ ?_)
    · intro hlinked
      obtain ⟨link, hlink, rfl⟩ := List.mem_map.mp hlinked
      exact ho_left link hlink rfl
    · intro hlinked
      obtain ⟨link, hlink, rfl⟩ := List.mem_map.mp hlinked
      exact hn_left link hlink rfl

/-- Of two contenders the second one is the better, and claimed. -/
theorem fuzzy_pass_greedy_load :
    let body := "a = read()\nreturn a"
    let old : CodeModel := { operations :=
      [OperationMapping.functionOf "load" body, OperationMapping.functionOf "loads" body] }
    let new : CodeModel := { operations :=
      [OperationMapping.functionOf "load_all" "a = read()\nfilter(a)\nreturn a",
        OperationMapping.functionOf "load_data" body] }
    (contenders {} (signatureIndex old old) (signatureIndex old new) []
      ("load()", OperationMapping.functionOf "load" body)).map Prod.fst =
        ["load_all()", "load_data()"] ∧
    ∃ fuzzy : List Link,
      matchOperations {} old new = fuzzy.map (Link.mapping {}) ∧
      (fuzzy.map fun link => (link.old.2.name, link.new.2.name)) = [("load", "load_data")] ∧
      (fuzzy.map Link.old).Sublist (signatureIndex old old) := by
  intro body old new
  obtain ⟨fuzzy, hmatch, hsublist, -⟩ := fuzzy_pass_greedy {} old new
  have hexact : exactMatches {} (signatureIndex old old) (signatureIndex old new) = [] :=
    List.length_eq_zero_iff.mp (by decide +kernel)
  rw [hexact, List.nil_append] at hmatch
  refine ⟨by decide +kernel, fuzzy, hmatch, ?_, hsublist⟩
  have hnames : ((matchOperations {} old new).map fun m => (m.old.name, m.new.name)) =
      [("load", "load_data")] := by decide +kernel
  rw [hmatch, List.map_map] at hnames
  rw [← hnames]
  refine List.map_congr_left fun link _ => ?_
  simp only [Function.comp_apply, Link.mapping, OperationMapping.between_old,
    OperationMapping.between_new]

end Refactor.Diff
