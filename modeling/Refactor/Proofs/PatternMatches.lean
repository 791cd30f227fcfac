import Mathlib.Data.List.Induction
import Mathlib.Data.List.Nodup
import Mathlib.Data.List.Perm.Subperm
import Refactor.Pattern.Basic

/-!
# What patterns match

`Matches` says form by form which parts of a text a pattern matches. A repetition matches by a chain
of matches, one behind the other.

**Theorem (`mem_ends_iff`).** The search ends at a place just if a match ends there.

The search goes from sets of places to sets of places, and it stops early: when a step leads to no
new place, and after as many steps as the text has characters. The first is right since steps from
these places stay among them (`mem_of_chain`). The second is right since a match that takes nothing
can be left out of a chain, and each of the others takes a character (`Chain.shorten`).
-/

namespace Refactor.Pattern

/-! ## Matches -/

/-- So many steps, one behind the other. -/
def Chain (step : Nat → Nat → Prop) : Nat → Nat → Nat → Prop
  | 0, i, j => i = j
  | count + 1, i, j => ∃ k, step i k ∧ Chain step count k j

/-- The pattern matches what stands in the text from one place to another. -/
def Matches (text : List Char) : Pattern → Nat → Nat → Prop
  | nothing, i, j => i = j
  | one set, i, j => ∃ c, text[i]? = some c ∧ set.mem c = true ∧ j = i + 1
  | look l, i, j => l.holds text i = true ∧ i = j
  | sequence a b, i, j => ∃ k, Matches text a i k ∧ Matches text b k j
  | either a b, i, j => Matches text a i j ∨ Matches text b i j
  | repeated p least most, i, j =>
    ∃ more, (∀ limit ∈ most, more ≤ limit - least) ∧ Chain (Matches text p) (least + more) i j

section

variable {step : Nat → Nat → Prop} {count i j : Nat}

theorem chain_add {m n : Nat} :
    Chain step (m + n) i j ↔ ∃ k, Chain step m i k ∧ Chain step n k j := by
  induction m generalizing i with
  | zero => simp [Chain]
  | succ m ih =>
    rw [Nat.add_right_comm]
    simp only [Chain, ih]
    constructor
    · rintro ⟨first, hfirst, k, hm, hn⟩
      exact ⟨k, ⟨first, hfirst, hm⟩, hn⟩
    · rintro ⟨k, ⟨first, hfirst, hm⟩, hn⟩
      exact ⟨first, hfirst, k, hm, hn⟩

/-- What holds of no step, and goes from a chain to one with a step before it, holds of every
chain. -/
theorem Chain.lift (R : Nat → Nat → Prop) (hrefl : ∀ i, R i i)
    (htrans : ∀ i k j, step i k → R k j → R i j) (h : Chain step count i j) : R i j := by
  induction count generalizing i with
  | zero => exact h ▸ hrefl i
  | succ count ih =>
    obtain ⟨k, hstep, hchain⟩ := h
    exact htrans i k j hstep (ih hchain)

/-- Steps that stay where they are can be left out. -/
theorem Chain.shorten (hstep : ∀ i j, step i j → i ≤ j) (h : Chain step count i j) :
    i ≤ j ∧ ∃ n ≤ count, n ≤ j - i ∧ Chain step n i j := by
  induction count generalizing i with
  | zero =>
    obtain rfl : i = j := h
    exact ⟨Nat.le_refl i, 0, Nat.le_refl 0, Nat.zero_le _, rfl⟩
  | succ count ih =>
    obtain ⟨k, hfirst, hchain⟩ := h
    obtain ⟨hkj, n, hn, hshort, hrest⟩ := ih hchain
    have hik := hstep i k hfirst
    rcases Nat.eq_or_lt_of_le hik with rfl | hlt
    · exact ⟨hkj, n, by omega, hshort, hrest⟩
    · exact ⟨by omega, n + 1, by omega, by omega, k, hfirst, hrest⟩

end

/-- A match does not go back, nor beyond the end of the text. -/
theorem Matches.bounds {text : List Char} {p : Pattern} {i j : Nat} (h : p.Matches text i j) :
    i ≤ j ∧ (j ≤ i ∨ j ≤ text.length) := by
  induction p generalizing i j with
  | nothing =>
    obtain rfl : i = j := h
    exact ⟨Nat.le_refl i, .inl (Nat.le_refl i)⟩
  | one set =>
    obtain ⟨c, hc, -, rfl⟩ := h
    have hi := (List.getElem?_eq_some_iff.mp hc).1
    exact ⟨by omega, .inr hi⟩
  | look l =>
    obtain ⟨-, rfl⟩ := h
    exact ⟨Nat.le_refl i, .inl (Nat.le_refl i)⟩
  | sequence a b iha ihb =>
    obtain ⟨k, ha, hb⟩ := h
    have hik := iha ha
    have hkj := ihb hb
    omega
  | either a b iha ihb => exact h.elim iha ihb
  | repeated p least most ih =>
    obtain ⟨more, -, hchain⟩ := h
    refine hchain.lift (fun i j => i ≤ j ∧ (j ≤ i ∨ j ≤ text.length))
      (fun i => ⟨Nat.le_refl i, .inl (Nat.le_refl i)⟩) fun i k j hstep hkj => ?_
    have hik := ih hstep
    omega

/-! ## Sets of places -/

theorem nodup_eraseDups (places : List Nat) : places.eraseDups.Nodup := by
  induction places using List.reverseRecOn with
  | nil => exact List.nodup_nil
  | append_singleton places last ih =>
    rw [List.eraseDups_append]
    by_cases hlast : last ∈ places
    · have hagain : ([last].removeAll places).eraseDups = [] := by simp [List.removeAll, hlast]
      rwa [hagain, List.append_nil]
    · have hnew : ([last].removeAll places).eraseDups = [last] := by
        simp [List.removeAll, hlast, List.eraseDups_cons]
      rw [hnew]
      exact List.nodup_append_comm.mp
        (List.nodup_cons.mpr ⟨fun hmem => hlast (List.mem_eraseDups.mp hmem), ih⟩)

section

variable {next : Nat → List Nat} {places : List Nat} {count i j : Nat}

theorem nodup_after (h : places.Nodup) : (after next count places).Nodup := by
  induction count generalizing places with
  | zero => exact h
  | succ count ih =>
    unfold after
    dsimp only
    split
    · exact h
    · exact ih (nodup_eraseDups _)

/-- Steps that lead to just the same places lead there again and again. -/
theorem after_of_fixed (h : (places.flatMap next).eraseDups = places) :
    after next count places = places := by
  cases count with
  | zero => rfl
  | succ count =>
    unfold after
    dsimp only
    rw [if_pos (beq_iff_eq.mpr h)]

theorem mem_after_iff :
    j ∈ after next count places ↔ ∃ i ∈ places, Chain (fun i j => j ∈ next i) count i j := by
  induction count generalizing places with
  | zero => simp [after, Chain]
  | succ count ih =>
    have hreached : (∃ i ∈ places, Chain (fun i j => j ∈ next i) (count + 1) i j) ↔
        ∃ k ∈ (places.flatMap next).eraseDups, Chain (fun i j => j ∈ next i) count k j := by
      simp only [Chain, List.mem_eraseDups, List.mem_flatMap]
      constructor
      · rintro ⟨i, hi, k, hk, hchain⟩
        exact ⟨k, ⟨i, hi, hk⟩, hchain⟩
      · rintro ⟨k, ⟨i, hi, hk⟩, hchain⟩
        exact ⟨i, hi, k, hk, hchain⟩
    rw [hreached, after]
    split
    · rename_i hsame
      have hfixed := beq_iff_eq.mp hsame
      rw [hfixed, ← ih, after_of_fixed hfixed]
    · exact ih

/-- Places that no step leads out of are not left. -/
theorem mem_of_chain (hclosed : ∀ i ∈ places, ∀ k ∈ next i, k ∈ places) (hi : i ∈ places)
    (h : Chain (fun i j => j ∈ next i) count i j) : j ∈ places :=
  h.lift (fun i j => i ∈ places → j ∈ places) (fun _ hi => hi)
    (fun i k _ hk hrest hi => hrest (hclosed i hi k hk)) hi

/-- If no place is added, then no step leads out of the places. -/
theorem closed_of_length_eq (hnodup : places.Nodup)
    (h : (places ++ places.flatMap next).eraseDups.length = places.length) :
    ∀ i ∈ places, ∀ k ∈ next i, k ∈ places := by
  intro i hi k hk
  have hsubset : places ⊆ (places ++ places.flatMap next).eraseDups := fun a ha =>
    List.mem_eraseDups.mpr (List.mem_append_left _ ha)
  have hperm := (hnodup.subperm hsubset).perm_of_length_le (Nat.le_of_eq h)
  refine hperm.mem_iff.mpr (List.mem_eraseDups.mpr (List.mem_append_right _ ?_))
  exact List.mem_flatMap.mpr ⟨i, hi, hk⟩

theorem mem_within_iff (hnodup : places.Nodup) : j ∈ within next count places ↔
    ∃ n ≤ count, ∃ i ∈ places, Chain (fun i j => j ∈ next i) n i j := by
  induction count generalizing places with
  | zero => simp [within, Chain]
  | succ count ih =>
    unfold within
    dsimp only
    split
    · rename_i hlength
      constructor
      · intro hj
        exact ⟨0, Nat.zero_le _, j, hj, rfl⟩
      · rintro ⟨n, -, i, hi, hchain⟩
        exact mem_of_chain (closed_of_length_eq hnodup (beq_iff_eq.mp hlength)) hi hchain
    · rw [ih (nodup_eraseDups _)]
      simp only [List.mem_eraseDups, List.mem_append, List.mem_flatMap]
      constructor
      · rintro ⟨n, hn, k, hk | ⟨i, hi, hk⟩, hchain⟩
        · exact ⟨n, by omega, k, hk, hchain⟩
        · exact ⟨n + 1, by omega, i, hi, k, hk, hchain⟩
      · rintro ⟨n, hn, i, hi, hchain⟩
        cases n with
        | zero => exact ⟨0, Nat.zero_le _, i, .inl hi, hchain⟩
        | succ n =>
          obtain ⟨k, hk, hrest⟩ := hchain
          exact ⟨n, by omega, k, .inr ⟨i, hi, hk⟩, hrest⟩

end

/-! ## The search -/

/-- **The search ends where the matches end.** -/
theorem mem_ends_iff {text : List Char} {p : Pattern} {i j : Nat} :
    j ∈ p.ends text i ↔ p.Matches text i j := by
  induction p generalizing i j with
  | nothing => simp [ends, Matches, eq_comm]
  | one set =>
    cases hc : text[i]? with
    | none => simp [ends, Matches, hc]
    | some c => by_cases hmem : set.mem c = true <;> simp [ends, Matches, hc, hmem]
  | look l => by_cases hholds : l.holds text i = true <;> simp [ends, Matches, hholds, eq_comm]
  | sequence a b iha ihb => simp [ends, Matches, iha, ihb]
  | either a b iha ihb => simp [ends, Matches, iha, ihb]
  | repeated p least most ih =>
    have hsteps : (fun i j => j ∈ p.ends text i) = p.Matches text := by
      funext i j
      exact propext ih
    have hnodup : (after (p.ends text) least [i]).Nodup := nodup_after (List.nodup_singleton i)
    rw [ends, mem_within_iff hnodup]
    simp only [mem_after_iff, List.mem_singleton, exists_eq_left, hsteps, Matches, chain_add]
    constructor
    · rintro ⟨n, hn, k, hleast, hmore⟩
      refine ⟨n, fun limit hlimit => ?_, k, hleast, hmore⟩
      obtain rfl := Option.mem_def.mp hlimit
      exact Nat.le_trans hn (Nat.min_le_left _ _)
    · rintro ⟨more, hlimit, k, hleast, hmore⟩
      -- A chain that is long because of empty matches has a short one in it.
      obtain ⟨-, n, hn, hshort, hchain⟩ := hmore.shorten fun _ _ hstep => hstep.bounds.1
      have hbounds : j ≤ k ∨ j ≤ text.length := by
        have hrepeated : (repeated p 0 none).Matches text k j :=
          ⟨n, by simp, by rwa [Nat.zero_add]⟩
        exact hrepeated.bounds.2
      refine ⟨n, Nat.le_min.mpr ⟨?_, by omega⟩, k, hleast, hchain⟩
      cases most with
      | none =>
        rw [Option.getD_none]
        omega
      | some limit => exact Nat.le_trans hn (hlimit limit rfl)

/-- A pattern is in a text just if it matches somewhere. -/
theorem isIn_iff {p : Pattern} {text : String} : p.isIn text = true ↔
    ∃ i ≤ text.toList.length, ∃ j, p.Matches text.toList i j := by
  simp only [isIn, List.any_eq_true, List.mem_range, Nat.lt_succ_iff, Bool.not_eq_true',
    List.isEmpty_eq_false_iff_exists_mem, mem_ends_iff]

end Refactor.Pattern
