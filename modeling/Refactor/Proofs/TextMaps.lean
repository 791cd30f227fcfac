import Mathlib.Data.List.Nodup
import Refactor.TextMap

/-!
# What is found in a map

A map is known by its lookups (`ext_get?`), so an operation on maps is described by what is found
under each key afterwards, and two ways to make a map are compared key by key.

Adding the entries of one map to another is one lookup in each (`get?_foldl_entries`), whatever
is done with an entry: keys are distinct, so each key is touched at most once.
-/

namespace Refactor

theorem lookup_cons_ite {κ α : Type} [BEq κ] [LawfulBEq κ] [DecidableEq κ] (key k : κ) (value : α)
    (rest : List (κ × α)) :
    ((k, value) :: rest).lookup key = if key = k then some value else rest.lookup key := by
  rw [List.lookup_cons]
  by_cases h : key = k
  · simp [h]
  · simp [h, beq_eq_false_iff_ne.mpr h]

/-- In a list of entries with distinct keys, the entries are what is found. -/
theorem lookup_eq_some_iff_mem {κ α : Type} [BEq κ] [LawfulBEq κ] {entries : List (κ × α)}
    (h : (entries.map Prod.fst).Nodup) {key : κ} {value : α} :
    entries.lookup key = some value ↔ (key, value) ∈ entries := by
  rw [List.lookup_eq_some_iff]
  constructor
  · rintro ⟨before, after, rfl, -⟩
    simp
  · intro hmem
    obtain ⟨before, after, rfl⟩ := List.append_of_mem hmem
    refine ⟨before, after, rfl, fun entry hentry => ?_⟩
    rw [List.map_append, List.nodup_append] at h
    have hne := h.2.2 entry.1 (List.mem_map_of_mem hentry) key List.mem_cons_self
    simpa using Ne.symm hne

namespace TextMap

variable {α β : Type}

/-! ## Lookups -/

theorem lookup_insertEntry (key other : String) (value : α) (entries : List (String × α)) :
    (insertEntry key value entries).lookup other =
      if other = key then some value else entries.lookup other := by
  induction entries with
  | nil => exact lookup_cons_ite other key value []
  | cons head rest ih =>
    obtain ⟨p, v⟩ := head
    rw [insertEntry]
    by_cases hlt : key < p
    · rw [if_pos hlt, lookup_cons_ite]
    · rw [if_neg hlt]
      by_cases hkey : key = p
      · subst hkey
        rw [if_pos rfl, lookup_cons_ite, lookup_cons_ite]
        by_cases h : other = key
        · rw [if_pos h, if_pos h]
        · rw [if_neg h, if_neg h, if_neg h]
      · rw [if_neg hkey, lookup_cons_ite, lookup_cons_ite, ih]
        by_cases hp : other = p
        · rw [if_pos hp, if_pos hp, if_neg fun h => hkey (h.symm.trans hp)]
        · rw [if_neg hp, if_neg hp]

theorem get?_insert (m : TextMap α) (key other : String) (value : α) :
    (m.insert key value).get? other = if other = key then some value else m.get? other :=
  lookup_insertEntry key other value m.entries

theorem get?_update (m : TextMap α) (key other : String) (initial : α) (f : α → α) :
    (m.update key initial f).get? other =
      if other = key then some (f ((m.get? other).getD initial)) else m.get? other := by
  rw [update, get?_insert]
  by_cases h : other = key
  · rw [h]
  · rw [if_neg h, if_neg h]

theorem get?_insertIfNew (m : TextMap α) (key other : String) (value : α) :
    (m.insertIfNew key value).get? other =
      if other = key then (m.get? other).or (some value) else m.get? other := by
  unfold insertIfNew contains
  by_cases hkey : other = key
  · subst hkey
    cases hfound : m.get? other with
    | none => simp [get?_insert]
    | some found => simp [hfound]
  · cases m.get? key with
    | none => simp [get?_insert, hkey]
    | some found => simp [hkey]

/-! ## Entries -/

theorem pairwise_keys (m : TextMap α) : m.keys.Pairwise (· < ·) :=
  List.pairwise_map.mpr m.increasing

theorem nodup_keys (m : TextMap α) : (m.entries.map Prod.fst).Nodup :=
  m.pairwise_keys.imp fun hlt => String.ne_of_lt hlt

theorem mem_entries_iff {m : TextMap α} {entry : String × α} :
    entry ∈ m.entries ↔ m.get? entry.1 = some entry.2 :=
  (lookup_eq_some_iff_mem m.nodup_keys).symm

theorem mem_keys_iff {m : TextMap α} {key : String} :
    key ∈ m.keys ↔ (m.get? key).isSome = true := by
  rw [keys, List.mem_map, Option.isSome_iff_exists]
  constructor
  · rintro ⟨⟨_, value⟩, hentry, rfl⟩
    exact ⟨value, mem_entries_iff.mp hentry⟩
  · rintro ⟨value, hvalue⟩
    exact ⟨(key, value), mem_entries_iff.mpr hvalue, rfl⟩

theorem get?_filter (m : TextMap α) (p : String → α → Bool) (key : String) :
    (m.filter p).get? key = (m.get? key).filter (p key) := by
  refine Option.ext fun value => ?_
  have hfiltered : (key, value) ∈ (m.filter p).entries ↔ (m.filter p).get? key = some value :=
    mem_entries_iff
  have hall : (key, value) ∈ m.entries ↔ m.get? key = some value := mem_entries_iff
  rw [← hfiltered, Option.filter_eq_some_iff, ← hall]
  exact List.mem_filter

/-- The keys of a map made of a list of entries are those of the entries. -/
theorem mem_keys_ofList {entries : List (String × α)} {key : String} :
    key ∈ (ofList entries).keys ↔ key ∈ entries.map Prod.fst := by
  have hfold : ∀ m : TextMap α,
      ((entries.foldl (fun m entry => m.insert entry.1 entry.2) m).get? key).isSome = true ↔
        (m.get? key).isSome = true ∨ key ∈ entries.map Prod.fst := by
    induction entries with
    | nil => simp
    | cons entry rest ih =>
      intro m
      rw [List.foldl_cons, ih, get?_insert, List.map_cons, List.mem_cons]
      by_cases hkey : key = entry.1
      · simp [hkey]
      · simp [hkey]
  rw [mem_keys_iff, ofList, hfold]
  have hempty : (empty : TextMap α).get? key = none := rfl
  rw [hempty]
  simp

/-- **A map is known by its lookups.** -/
theorem ext_get? {m m' : TextMap α} (h : ∀ key, m.get? key = m'.get? key) : m = m' := by
  have hmem : ∀ entry, entry ∈ m.entries ↔ entry ∈ m'.entries := by
    intro entry
    rw [mem_entries_iff, mem_entries_iff, h]
  have hperm : m.entries.Perm m'.entries :=
    (List.perm_ext_iff_of_nodup m.nodup_keys.of_map m'.nodup_keys.of_map).mpr hmem
  have heq : m.entries = m'.entries :=
    hperm.eq_of_pairwise (fun _ _ _ _ hab hba => absurd hba (String.lt_asymm hab))
      m.increasing m'.increasing
  cases m
  cases m'
  cases heq
  rfl

/-! ## Adding the entries of a map -/

/-- Going through entries with distinct keys, each key is touched where it stands. -/
theorem get?_foldl_of_nodup {step : TextMap β → String × α → TextMap β}
    {combine : Option β → α → Option β}
    (hstep : ∀ m entry key, (step m entry).get? key =
      if key = entry.1 then combine (m.get? key) entry.2 else m.get? key)
    {entries : List (String × α)} (hnodup : (entries.map Prod.fst).Nodup) (m : TextMap β)
    (key : String) :
    (entries.foldl step m).get? key =
      (entries.lookup key).elim (m.get? key) (combine (m.get? key)) := by
  induction entries generalizing m with
  | nil => rfl
  | cons entry rest ih =>
    obtain ⟨k, v⟩ := entry
    obtain ⟨habsent, hrest⟩ := List.nodup_cons.mp hnodup
    rw [List.foldl_cons, ih hrest, hstep, lookup_cons_ite]
    by_cases hkey : key = k
    · subst hkey
      have hnone : rest.lookup key = none := by
        refine List.lookup_eq_none_iff.mpr fun other hother => bne_iff_ne.mpr fun heq => ?_
        exact habsent (List.mem_map.mpr ⟨other, hother, heq.symm⟩)
      simp [hnone]
    · simp [hkey]

/-- Adding the entries of a map combines what both maps have under a key. -/
theorem get?_foldl_entries {step : TextMap β → String × α → TextMap β}
    (combine : Option β → α → Option β)
    (hstep : ∀ m entry key, (step m entry).get? key =
      if key = entry.1 then combine (m.get? key) entry.2 else m.get? key)
    (m : TextMap β) (other : TextMap α) (key : String) :
    (other.entries.foldl step m).get? key =
      (other.get? key).elim (m.get? key) (combine (m.get? key)) :=
  get?_foldl_of_nodup hstep other.nodup_keys m key

end TextMap

end Refactor
