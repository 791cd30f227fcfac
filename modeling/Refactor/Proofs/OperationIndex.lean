import Mathlib.Data.List.Induction
import Mathlib.Data.List.Nodup
import Refactor.Diff.Models

/-!
# Operations by their signatures

An index holds one entry per signature. Putting an operation into it keeps the signatures apart
and in their order, and changes what is found under one signature alone.

- `nodup_keys_ofOperations`: the entries of an index have different keys.
- `mem_ofOperations`: they are the last operations of their keys.
- `onKeys_ofOperations`: a part of an index, chosen by keys, is the index of a part.
-/

namespace Refactor.Diff.OperationIndex

variable {index : OperationIndex} {key : String} {o : Operation}

/-! ## Keys -/

theorem keys_insert (key : String) (o : Operation) (index : OperationIndex) :
    (insert key o index).map Prod.fst =
      if key ∈ index.map Prod.fst then index.map Prod.fst else index.map Prod.fst ++ [key] := by
  induction index with
  | nil => rfl
  | cons entry rest ih =>
    obtain ⟨k, other⟩ := entry
    rw [insert]
    by_cases hk : k = key
    · rw [if_pos hk, if_pos (by simp [hk]), List.map_cons, List.map_cons]
    · rw [if_neg hk, List.map_cons, List.map_cons, ih]
      by_cases hmem : key ∈ rest.map Prod.fst
      · rw [if_pos hmem, if_pos (List.mem_cons_of_mem _ hmem)]
      · rw [if_neg hmem, if_neg (by simpa [Ne.symm hk] using hmem), List.cons_append]

theorem nodup_keys_insert (h : (index.map Prod.fst).Nodup) (key : String) (o : Operation) :
    ((insert key o index).map Prod.fst).Nodup := by
  rw [keys_insert]
  split
  · exact h
  · rename_i hnew
    rw [← List.concat_eq_append]
    exact h.concat hnew

theorem ofOperations_concat (keyOf : Operation → String) (operations : List Operation)
    (o : Operation) : ofOperations keyOf (operations ++ [o]) =
      insert (keyOf o) o (ofOperations keyOf operations) := by
  rw [ofOperations, List.foldl_concat, ofOperations]

/-- The entries of an index have different keys. -/
theorem nodup_keys_ofOperations (keyOf : Operation → String) (operations : List Operation) :
    ((ofOperations keyOf operations).map Prod.fst).Nodup := by
  induction operations using List.reverseRecOn with
  | nil => exact List.nodup_nil
  | append_singleton operations o ih =>
    rw [ofOperations_concat]
    exact nodup_keys_insert ih (keyOf o) o

/-! ## Lookups -/

theorem get?_insert (key other : String) (o : Operation) (index : OperationIndex) :
    (insert key o index).get? other = if other = key then some o else index.get? other := by
  induction index with
  | nil =>
    by_cases h : other = key
    · simp [insert, get?, h]
    · simp [insert, get?, h]
  | cons entry rest ih =>
    obtain ⟨k, before⟩ := entry
    unfold get? at ih ⊢
    rw [insert]
    by_cases hk : k = key
    · subst hk
      rw [if_pos rfl]
      by_cases h : other = k
      · simp [h]
      · simp [List.lookup_cons, h, beq_eq_false_iff_ne.mpr h]
    · rw [if_neg hk, List.lookup_cons, List.lookup_cons, ih]
      by_cases h : other = k
      · subst h
        simp [hk]
      · simp [beq_eq_false_iff_ne.mpr h]

/-- What is found under a key is the last operation that has it. -/
theorem get?_ofOperations (keyOf : Operation → String) (operations : List Operation)
    (key : String) : (ofOperations keyOf operations).get? key =
      operations.reverse.find? fun o => keyOf o = key := by
  induction operations using List.reverseRecOn with
  | nil => rfl
  | append_singleton operations o ih =>
    rw [ofOperations_concat, get?_insert, ih, List.reverse_append, List.reverse_singleton,
      List.singleton_append, List.find?_cons]
    by_cases h : key = keyOf o
    · simp [h]
    · simp [h, Ne.symm h]

theorem mem_of_get? (h : index.get? key = some o) : (key, o) ∈ index := by
  induction index with
  | nil => cases h
  | cons entry rest ih =>
    obtain ⟨k, before⟩ := entry
    rw [get?, List.lookup_cons] at h
    by_cases hk : key = k
    · subst hk
      simp only [BEq.rfl, Option.some.injEq] at h
      exact h ▸ List.mem_cons_self
    · simp only [beq_eq_false_iff_ne.mpr hk] at h
      exact List.mem_cons_of_mem _ (ih h)

theorem contains_iff_mem : index.contains key = true ↔ key ∈ index.map Prod.fst := by
  unfold contains get?
  induction index with
  | nil => simp
  | cons entry rest ih =>
    obtain ⟨k, before⟩ := entry
    rw [List.lookup_cons, List.map_cons, List.mem_cons]
    by_cases hk : key = k
    · simp [hk]
    · simp [hk, beq_eq_false_iff_ne.mpr hk, ih]

theorem get?_of_mem (hnodup : (index.map Prod.fst).Nodup) (hmem : (key, o) ∈ index) :
    index.get? key = some o := by
  have hcontains : (index.get? key).isSome = true :=
    contains_iff_mem.mpr (List.mem_map_of_mem (f := Prod.fst) hmem)
  obtain ⟨found, hfound⟩ := Option.isSome_iff_exists.mp hcontains
  have heq : (key, found) = (key, o) :=
    List.inj_on_of_nodup_map hnodup (mem_of_get? hfound) hmem rfl
  cases heq
  exact hfound

/-- **The entries of an index are the last operations of their keys.** -/
theorem mem_ofOperations {keyOf : Operation → String} {operations : List Operation} :
    (key, o) ∈ ofOperations keyOf operations ↔
      (operations.reverse.find? fun o => keyOf o = key) = some o := by
  rw [← get?_ofOperations]
  exact ⟨get?_of_mem (nodup_keys_ofOperations keyOf operations), mem_of_get?⟩

/-! ## Parts -/

/-- The entries whose keys satisfy a test. -/
def onKeys (p : String → Bool) (index : OperationIndex) : OperationIndex :=
  index.filter fun entry => p entry.1

theorem get?_onKeys (p : String → Bool) (index : OperationIndex) (key : String) :
    (index.onKeys p).get? key = if p key = true then index.get? key else none := by
  induction index with
  | nil => simp [onKeys, get?]
  | cons entry rest ih =>
    obtain ⟨k, other⟩ := entry
    unfold get? onKeys at ih ⊢
    rw [List.filter_cons, List.lookup_cons]
    by_cases hk : key = k
    · subst hk
      by_cases hp : p key = true
      · simp [hp]
      · rw [if_neg hp, ih, if_neg hp, if_neg hp]
    · rw [beq_eq_false_iff_ne.mpr hk]
      by_cases hp : p k = true
      · rw [if_pos hp, List.lookup_cons, beq_eq_false_iff_ne.mpr hk]
        exact ih
      · rw [if_neg hp]
        exact ih

theorem onKeys_insert (p : String → Bool) (key : String) (o : Operation) (index : OperationIndex) :
    (insert key o index).onKeys p =
      if p key = true then insert key o (index.onKeys p) else index.onKeys p := by
  induction index with
  | nil =>
    by_cases hp : p key = true
    · simp [insert, onKeys, hp]
    · simp [insert, onKeys, hp]
  | cons entry rest ih =>
    obtain ⟨k, other⟩ := entry
    unfold onKeys at ih ⊢
    rw [insert]
    by_cases hk : k = key
    · subst hk
      by_cases hp : p k = true
      · simp [hp, insert]
      · simp [hp]
    · rw [if_neg hk, List.filter_cons, ih, List.filter_cons]
      by_cases hkept : p k = true
      · by_cases hp : p key = true
        · simp [hkept, hp, insert, hk]
        · simp [hkept, hp]
      · simp [hkept]

/-- **The part of an index is the index of the operations whose keys satisfy the test.** -/
theorem onKeys_ofOperations (p : String → Bool) (keyOf : Operation → String)
    (operations : List Operation) : (ofOperations keyOf operations).onKeys p =
      ofOperations keyOf (operations.filter fun o => p (keyOf o)) := by
  induction operations using List.reverseRecOn with
  | nil => rfl
  | append_singleton operations o ih =>
    rw [ofOperations_concat, onKeys_insert, ih, List.filter_append, List.filter_cons,
      List.filter_nil]
    by_cases hp : p (keyOf o) = true
    · rw [if_pos hp, if_pos hp, ofOperations_concat]
    · rw [if_neg hp, if_neg hp, List.append_nil]

end Refactor.Diff.OperationIndex
