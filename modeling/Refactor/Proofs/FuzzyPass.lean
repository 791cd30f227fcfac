import Mathlib.Data.List.Nodup
import Refactor.Diff.Models
import Refactor.Proofs.BodyScore

/-!
# The fuzzy pass, turn by turn

Old entries take their turns one after the other, each with the new entries that are still free.

- `Acceptable`: the names are related and the score is positive and reaches the threshold.
- `Chosen`: a free entry is acceptable, better than every related one before it, and at least as
  good as every related one after it.
- `Turns`: in each turn a chosen entry is taken, or no free entry is acceptable.

The scan for the best candidate is followed entry by entry with the invariant `Best`, which says
of the entries seen so far what `Chosen` says of all of them (`best_step`, `best_foldl`). Hence
every pass is a sequence of turns (`exists_turns`), and what is said of whole passes is proved by
induction on `Turns`.
-/

namespace Refactor.Diff

/-- An operation with its signature. -/
abbrev Entry := String × Operation

/-- An old entry and the new entry that it is matched with. -/
structure Link where
  old : Entry
  new : Entry

/-- The comparison of the two operations. -/
def Link.mapping (config : Config) (link : Link) : OperationMapping :=
  OperationMapping.between config link.old.2 link.new.2

/-- The score of two entries. -/
def entryScore (config : Config) (old new : Entry) : Binary64 :=
  (OperationMapping.between config old.2 new.2).score

/-- Whether two entries have related names. -/
def EntriesRelated (config : Config) (old new : Entry) : Prop :=
  Names.related config.maxDistance old.2.name new.2.name = true

/-- Two entries that may be matched by their names and bodies. -/
structure Acceptable (config : Config) (old new : Entry) : Prop where
  related : EntriesRelated config old new
  positive : Binary64.zero.lt (entryScore config old new) = true
  reaches : config.threshold.le (entryScore config old new) = true

/-- The first of the best among the entries `before ++ new :: after`. -/
structure Chosen (config : Config) (old : Entry) (before : OperationIndex) (new : Entry)
    (after : OperationIndex) : Prop where
  acceptable : Acceptable config old new
  first : ∀ other ∈ before, EntriesRelated config old other →
    (entryScore config old other).lt (entryScore config old new) = true
  best : ∀ other ∈ after, EntriesRelated config old other →
    (entryScore config old other).le (entryScore config old new) = true

variable {config : Config} {old new : Entry}

/-! ## Scores -/

theorem entryScore_ne_nan (config : Config) (old new : Entry) :
    entryScore config old new ≠ .nan := by
  obtain ⟨units, -, heq⟩ := OperationMapping.exists_units_score config old.2 new.2
  rw [entryScore, heq]
  exact nofun

/-- A score that is not positive is zero. -/
theorem entryScore_eq_zero (h : ¬ Binary64.zero.lt (entryScore config old new) = true) :
    entryScore config old new = .zero := by
  obtain ⟨units, -, heq⟩ := OperationMapping.exists_units_score config old.2 new.2
  rw [entryScore, heq] at h ⊢
  exact Binary64.eq_zero_of_not_zero_lt h

/-- A related entry that is not acceptable scores below every acceptable one. -/
theorem entryScore_lt_of_not_acceptable {other : Entry} (hrelated : EntriesRelated config old other)
    (hnot : ¬ Acceptable config old other)
    (hpositive : Binary64.zero.lt (entryScore config old new) = true)
    (hreaches : config.threshold.le (entryScore config old new) = true) :
    (entryScore config old other).lt (entryScore config old new) = true := by
  by_cases hother : Binary64.zero.lt (entryScore config old other) = true
  · have hmisses : ¬ config.threshold.le (entryScore config old other) = true :=
      fun h => hnot ⟨hrelated, hother, h⟩
    exact Binary64.lt_of_not_le_of_le (entryScore_ne_nan config old other) hmisses hreaches
  · rw [entryScore_eq_zero hother]
    exact hpositive

/-! ## One scan -/

/-- What the best candidate is after the entries `seen`. -/
def Best (config : Config) (old : Entry) (seen : OperationIndex) : Option Candidate → Prop
  | none => ∀ other ∈ seen, ¬ Acceptable config old other
  | some candidate => ∃ before new after, seen = before ++ new :: after ∧
      candidate = ⟨before.length, OperationMapping.between config old.2 new.2⟩ ∧
      Chosen config old before new after

/-- A candidate that is beaten by an acceptable entry gives its place up. -/
theorem best_replace {seen : OperationIndex} {best : Option Candidate}
    (h : Best config old seen best) (hrelated : EntriesRelated config old new)
    (hbeats : (bestScore best).lt (entryScore config old new) = true)
    (hreaches : config.threshold.le (entryScore config old new) = true) :
    Best config old (seen ++ [new])
      (some ⟨seen.length, OperationMapping.between config old.2 new.2⟩) := by
  cases best with
  | none =>
    refine ⟨seen, new, [], rfl, rfl, ⟨hrelated, hbeats, hreaches⟩, ?_,
      fun _ hmem => absurd hmem List.not_mem_nil⟩
    intro other hother hother_related
    exact entryScore_lt_of_not_acceptable hother_related (h other hother) hbeats hreaches
  | some candidate =>
    obtain ⟨before, last, after, rfl, rfl, hchosen⟩ := h
    have hlast : (entryScore config old last).lt (entryScore config old new) = true := hbeats
    have hpositive := Binary64.lt_of_le_of_lt
      (Binary64.le_of_lt hchosen.acceptable.positive) hlast
    refine ⟨before ++ last :: after, new, [], rfl, rfl, ⟨hrelated, hpositive, hreaches⟩, ?_,
      fun _ hmem => absurd hmem List.not_mem_nil⟩
    intro other hother hother_related
    rcases List.mem_append.mp hother with hother | hother
    · exact Binary64.lt_of_le_of_lt
        (Binary64.le_of_lt (hchosen.first other hother hother_related)) hlast
    · rcases List.mem_cons.mp hother with rfl | hother
      · exact hlast
      · exact Binary64.lt_of_le_of_lt (hchosen.best other hother hother_related) hlast

/-- A candidate stays when the next entry is unrelated, no better or not similar enough. -/
theorem best_keep {seen : OperationIndex} {best : Option Candidate}
    (h : Best config old seen best)
    (hno : EntriesRelated config old new →
      ¬ ((bestScore best).lt (entryScore config old new) = true ∧
        config.threshold.le (entryScore config old new) = true)) :
    Best config old (seen ++ [new]) best := by
  cases best with
  | none =>
    intro other hother
    rcases List.mem_append.mp hother with hother | hother
    · exact h other hother
    · obtain rfl := List.mem_singleton.mp hother
      exact fun hacceptable => hno hacceptable.related ⟨hacceptable.positive, hacceptable.reaches⟩
  | some candidate =>
    obtain ⟨before, last, after, rfl, rfl, hchosen⟩ := h
    refine ⟨before, last, after ++ [new], by simp, rfl, hchosen.acceptable, hchosen.first, ?_⟩
    intro other hother hrelated
    rcases List.mem_append.mp hother with hother | hother
    · exact hchosen.best other hother hrelated
    · obtain rfl := List.mem_singleton.mp hother
      have hno' : ¬ ((entryScore config old last).lt (entryScore config old other) = true ∧
        config.threshold.le (entryScore config old other) = true) := hno hrelated
      -- An entry below the threshold is no better either, since the candidate reaches it.
      by_cases hreaches : config.threshold.le (entryScore config old other) = true
      · exact Binary64.le_of_not_lt (entryScore_ne_nan config old last)
          (entryScore_ne_nan config old other) fun hlt => hno' ⟨hlt, hreaches⟩
      · exact Binary64.le_of_lt (Binary64.lt_of_not_le_of_le (entryScore_ne_nan config old other)
          hreaches hchosen.acceptable.reaches)

theorem best_step {seen : OperationIndex} {best : Option Candidate}
    (h : Best config old seen best) (new : Entry) :
    Best config old (seen ++ [new]) (better config old.2 best (new, seen.length)) := by
  unfold better
  dsimp only
  split
  · rename_i hrelated
    split
    · rename_i hbetter
      exact best_replace h hrelated hbetter.1 hbetter.2
    · rename_i hbetter
      exact best_keep h fun _ => hbetter
  · rename_i hrelated
    exact best_keep h fun hyes => absurd hyes hrelated

theorem best_foldl (rest : OperationIndex) {seen : OperationIndex} {best : Option Candidate}
    (h : Best config old seen best) :
    Best config old (seen ++ rest)
      ((rest.zipIdx seen.length).foldl (better config old.2) best) := by
  induction rest generalizing seen best with
  | nil => simpa using h
  | cons new rest ih =>
    have hnext := ih (best_step h new)
    rw [List.append_assoc, List.singleton_append, List.length_append,
      List.length_singleton] at hnext
    exact hnext

theorem best_bestMatch? (config : Config) (old : Entry) (free : OperationIndex) :
    Best config old free (bestMatch? config old.2 free) :=
  @best_foldl config old free [] none fun _ hmem => absurd hmem List.not_mem_nil

/-! ## Turns -/

/-- The turns of old entries with free new ones, and the links that they make. -/
inductive Turns (config : Config) : OperationIndex → OperationIndex → List Link → Prop
  | done (free : OperationIndex) : Turns config [] free []
  | take {old new : Entry} {rest before after : OperationIndex} {links : List Link} :
      Chosen config old before new after → Turns config rest (before ++ after) links →
      Turns config (old :: rest) (before ++ new :: after) (⟨old, new⟩ :: links)
  | pass {old : Entry} {rest free : OperationIndex} {links : List Link} :
      (∀ other ∈ free, ¬ Acceptable config old other) → Turns config rest free links →
      Turns config (old :: rest) free links

theorem eraseIdx_middle (before : OperationIndex) (new : Entry) (after : OperationIndex) :
    (before ++ new :: after).eraseIdx before.length = before ++ after := by
  rw [List.eraseIdx_append_of_length_le (Nat.le_refl _), Nat.sub_self, List.eraseIdx_cons_zero]

/-- **Every pass is a sequence of turns.** -/
theorem exists_turns (config : Config) (olds free : OperationIndex) :
    ∃ links, Turns config olds free links ∧
      fuzzyMatches config olds free = links.map (Link.mapping config) := by
  induction olds generalizing free with
  | nil => exact ⟨[], .done free, rfl⟩
  | cons old rest ih =>
    have hbest := best_bestMatch? config old free
    rw [fuzzyMatches]
    cases hmatch : bestMatch? config old.2 free with
    | none =>
      rw [hmatch] at hbest
      obtain ⟨links, hturns, heq⟩ := ih free
      exact ⟨links, .pass hbest hturns, heq⟩
    | some candidate =>
      rw [hmatch] at hbest
      obtain ⟨before, new, after, rfl, rfl, hchosen⟩ := hbest
      obtain ⟨links, hturns, heq⟩ := ih (before ++ after)
      refine ⟨⟨old, new⟩ :: links, .take hchosen hturns, ?_⟩
      dsimp only
      rw [eraseIdx_middle, heq, List.map_cons]
      rfl

namespace Turns

variable {olds free : OperationIndex} {links : List Link}

theorem olds_sublist (h : Turns config olds free links) : (links.map Link.old).Sublist olds := by
  induction h with
  | done free => exact List.Sublist.slnil
  | take _ _ ih => exact ih.cons_cons _
  | pass _ _ ih => exact ih.cons _

/-- The entries that are taken are some of the free ones, each at most as often. -/
theorem news_subperm (h : Turns config olds free links) : (links.map Link.new).Subperm free := by
  induction h with
  | done free => exact List.nil_subperm
  | take _ _ ih =>
    refine (List.subperm_cons _).mpr ih |>.trans ?_
    exact List.perm_middle.symm.subperm
  | pass _ _ ih => exact ih

theorem acceptable (h : Turns config olds free links) {link : Link} (hlink : link ∈ links) :
    Acceptable config link.old link.new := by
  induction h with
  | done free => cases hlink
  | take hchosen _ ih =>
    rcases List.mem_cons.mp hlink with rfl | hlink
    · exact hchosen.acceptable
    · exact ih hlink
  | pass _ _ ih => exact ih hlink

/-- What is left at the end is not acceptable to any old entry that took nothing. -/
theorem not_acceptable_of_left (h : Turns config olds free links) (hold : old ∈ olds)
    (hnew : new ∈ free) (hold_left : old ∉ links.map Link.old)
    (hnew_left : new ∉ links.map Link.new) : ¬ Acceptable config old new := by
  induction h with
  | done free => cases hold
  | @take taker taken rest before after links hchosen _ ih =>
    rw [List.map_cons, List.mem_cons, not_or] at hold_left hnew_left
    have hrest : old ∈ rest := (List.mem_cons.mp hold).resolve_left hold_left.1
    have hfree : new ∈ before ++ after :=
      (List.mem_cons.mp (List.perm_middle.mem_iff.mp hnew)).resolve_left hnew_left.1
    exact ih hrest hfree hold_left.2 hnew_left.2
  | pass hnone _ ih =>
    rcases List.mem_cons.mp hold with rfl | hold
    · exact hnone new hnew
    · exact ih hold hnew hold_left hnew_left

/-- The entries that are not among those of earlier links. -/
def unclaimed (earlier : List Link) (free : OperationIndex) : OperationIndex :=
  free.filter fun entry => !(earlier.map fun link => link.new.1).contains entry.1

theorem unclaimed_nil (free : OperationIndex) : unclaimed [] free = free := by
  simp [unclaimed]

/-- A claim takes away the one entry of its signature. -/
theorem unclaimed_cons {taker taken : Entry} {before after : OperationIndex}
    (hnodup : ((before ++ taken :: after).map Prod.fst).Nodup) (earlier : List Link) :
    unclaimed (⟨taker, taken⟩ :: earlier) (before ++ taken :: after) =
      unclaimed earlier (before ++ after) := by
  have hperm : ((before ++ taken :: after).map Prod.fst).Perm
      ((taken :: (before ++ after)).map Prod.fst) := List.perm_middle.map Prod.fst
  have habsent : taken.1 ∉ (before ++ after).map Prod.fst :=
    (List.nodup_cons.mp (hperm.nodup_iff.mp hnodup)).1
  have hkeep : ∀ entry ∈ before ++ after,
      (!((⟨taker, taken⟩ :: earlier : List Link).map fun link => link.new.1).contains entry.1) =
        !(earlier.map fun link => link.new.1).contains entry.1 := by
    intro entry hentry
    have hne : entry.1 ≠ taken.1 := fun heq => habsent (heq ▸ List.mem_map_of_mem hentry)
    simp [hne]
  unfold unclaimed
  rw [List.filter_append, List.filter_cons_of_neg (by simp), ← List.filter_append]
  exact List.filter_congr hkeep

/-- **Each turn takes the first of the best entries that no earlier turn has claimed.** -/
theorem chosen_among_unclaimed (h : Turns config olds free links)
    (hnodup : (free.map Prod.fst).Nodup) {earlier later : List Link} {link : Link}
    (hsplit : links = earlier ++ link :: later) :
    ∃ before after, unclaimed earlier free = before ++ link.new :: after ∧
      Chosen config link.old before link.new after := by
  induction h generalizing earlier with
  | done free => simp at hsplit
  | @take taker taken rest before after links hchosen _ ih =>
    cases earlier with
    | nil =>
      obtain ⟨rfl, -⟩ := List.cons.inj hsplit
      exact ⟨before, after, unclaimed_nil _, hchosen⟩
    | cons first earlier =>
      -- The turn at hand is a later one, with the first claim already taken out.
      obtain ⟨rfl, hrest⟩ := List.cons.inj hsplit
      have hnodup' : ((before ++ after).map Prod.fst).Nodup :=
        hnodup.sublist (((List.sublist_cons_self taken after).append_left before).map Prod.fst)
      rw [unclaimed_cons hnodup]
      exact ih hnodup' hrest
  | pass _ _ ih => exact ih hnodup hsplit

end Turns

end Refactor.Diff
