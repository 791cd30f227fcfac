import Refactor.Text.Bytes
import Refactor.Text.Trim

/-!
# Trimming and cutting

Trimming removes nothing but blanks (`mem_trimChars`), and nothing at all from a text that neither
starts nor ends with one (`trimChars_of_ends`).

A text is cut at the last place where a separator stands: the separator does not stand in what
follows, also not if it begins within the one that is cut out (`splitLast?_eq_some_iff`).

A text cut into two has the number of bytes of the first part for an offset
(`splitAtByte?_byteLength`).
-/

namespace Refactor.Text

variable {cs : List Char}

/-! ## Trimming -/

theorem trimChars_of_ends (hfirst : ∃ c, cs.head? = some c ∧ isBlank c = false)
    (hlast : ∃ c, cs.getLast? = some c ∧ isBlank c = false) : trimChars cs = cs := by
  obtain ⟨c, hc, hfirst⟩ := hfirst
  obtain ⟨d, hd, hlast⟩ := hlast
  have hstart : cs.dropWhile isBlank = cs := by
    obtain ⟨rest, rfl⟩ := List.head?_eq_some_iff.mp hc
    rw [List.dropWhile_cons_of_neg (by simp [hfirst])]
  have hend : cs.reverse.dropWhile isBlank = cs.reverse := by
    obtain ⟨rest, hrest⟩ := List.head?_eq_some_iff.mp (List.head?_reverse.trans hd)
    rw [hrest, List.dropWhile_cons_of_neg (by simp [hlast])]
  rw [trimChars, hstart, dropWhileEnd, hend, List.reverse_reverse]

theorem trimChars_cons {c : Char} (hc : isBlank c = true) (cs : List Char) :
    trimChars (c :: cs) = trimChars cs := by
  rw [trimChars, trimChars, List.dropWhile_cons_of_pos hc]

theorem mem_dropWhile_isBlank {c : Char} (hc : isBlank c = false) (h : c ∈ cs) :
    c ∈ cs.dropWhile isBlank := by
  rw [← List.takeWhile_append_dropWhile (p := isBlank) (l := cs), List.mem_append] at h
  rcases h with hblank | h
  · rw [List.all_eq_true.mp List.all_takeWhile c hblank] at hc
    cases hc
  · exact h

/-- Trimming removes nothing but blanks. -/
theorem mem_trimChars {c : Char} (hc : isBlank c = false) (h : c ∈ cs) : c ∈ trimChars cs := by
  rw [trimChars, dropWhileEnd, List.mem_reverse]
  apply mem_dropWhile_isBlank hc
  rw [List.mem_reverse]
  exact mem_dropWhile_isBlank hc h

/-! ## The first character of a kind -/

theorem takeWhile_ne {c : Char} {before : List Char} (h : c ∉ before) (after : List Char) :
    (before ++ c :: after).takeWhile (· ≠ c) = before := by
  have hpass : ∀ d ∈ before, decide (d ≠ c) = true := fun d hd =>
    decide_eq_true fun heq => h (heq ▸ hd)
  rw [List.takeWhile_append_of_pos hpass, List.takeWhile_cons_of_neg (by simp), List.append_nil]

theorem dropWhile_ne {c : Char} {before : List Char} (h : c ∉ before) (after : List Char) :
    (before ++ c :: after).dropWhile (· ≠ c) = c :: after := by
  have hpass : ∀ d ∈ before, decide (d ≠ c) = true := fun d hd =>
    decide_eq_true fun heq => h (heq ▸ hd)
  rw [List.dropWhile_append_of_pos hpass, List.dropWhile_cons_of_neg (by simp)]

/-! ## The last separator -/

section

variable {sep before after : List Char}

theorem stripLead?_eq_none_iff : stripLead? sep cs = none ↔ ¬ sep <+: cs := by
  rw [stripLead?, ← List.isPrefixOf_iff_prefix]
  split <;> simp_all

theorem splitLast?_eq_none_iff (hsep : sep ≠ []) : splitLast? sep cs = none ↔ ¬ sep <:+: cs := by
  induction cs with
  | nil => simp [splitLast?, hsep]
  | cons c cs ih =>
    rw [splitLast?, List.infix_cons_iff, not_or, ← ih]
    cases splitLast? sep cs with
    | none => simp [stripLead?_eq_none_iff]
    | some parts => simp

/-- **The cut is made at the last separator**: none begins behind the start of the one that is cut
out. -/
theorem splitLast?_eq_some_iff (hsep : sep ≠ []) :
    splitLast? sep cs = some (before, after) ↔
      cs = before ++ (sep ++ after) ∧ ¬ sep <:+: (sep ++ after).tail := by
  induction cs generalizing before with
  | nil =>
    have hne : before ++ (sep ++ after) ≠ [] := by simp [hsep]
    simp [splitLast?, Ne.symm hne]
  | cons c cs ih =>
    rw [splitLast?]
    cases hrest : splitLast? sep cs with
    | none =>
      have hnone := (splitLast?_eq_none_iff hsep).mp hrest
      simp only [Option.map_eq_some_iff, Prod.mk.injEq, stripLead?_eq_some]
      constructor
      · rintro ⟨_, hcs, rfl, rfl⟩
        rw [← hcs]
        exact ⟨rfl, hnone⟩
      · rintro ⟨hcs, -⟩
        cases before with
        | nil => exact ⟨after, hcs, rfl, rfl⟩
        | cons d before =>
          obtain ⟨-, rfl⟩ := List.cons.inj hcs
          exact absurd ⟨before, after, List.append_assoc _ _ _⟩ hnone
    | some parts =>
      obtain ⟨start, rest⟩ := parts
      have hcut := splitLast?_append hrest
      simp only [Option.some.injEq, Prod.mk.injEq]
      constructor
      · rintro ⟨rfl, rfl⟩
        obtain ⟨hcs, hlast⟩ := ih.mp hrest
        rw [hcs]
        exact ⟨rfl, hlast⟩
      · rintro ⟨hcs, hlast⟩
        cases before with
        | nil =>
          rw [List.nil_append] at hcs
          rw [← hcs, List.tail_cons, hcut] at hlast
          exact absurd ⟨start, rest, rfl⟩ hlast
        | cons d before =>
          obtain ⟨rfl, hbehind⟩ := List.cons.inj hcs
          have hagain := ih.mpr ⟨hbehind, hlast⟩
          simpa [hrest] using hagain

end

/-! ## Bytes -/

theorem byteLength_cons (c : Char) (cs : List Char) :
    byteLength (c :: cs) = c.utf8Size + byteLength cs := rfl

theorem byteLength_append (left right : List Char) :
    byteLength (left ++ right) = byteLength left + byteLength right := by
  induction left with
  | nil => simp [byteLength]
  | cons c left ih => rw [List.cons_append, byteLength_cons, byteLength_cons, ih, Nat.add_assoc]

/-- A text can be cut behind each of its starts. -/
theorem splitAtByte?_byteLength (before after : List Char) :
    splitAtByte? (byteLength before) (before ++ after) = some (before, after) := by
  induction before with
  | nil => simp [byteLength, splitAtByte?]
  | cons c before ih =>
    have hsize := c.utf8Size_pos
    have hcons := byteLength_cons c before
    obtain ⟨n, hn⟩ : ∃ n, byteLength (c :: before) = n + 1 :=
      ⟨byteLength (c :: before) - 1, by omega⟩
    have hbefore : n + 1 - c.utf8Size = byteLength before := by omega
    have hfits : ¬ n + 1 < c.utf8Size := by omega
    rw [hn, List.cons_append, splitAtByte?, if_neg hfits, hbefore, ih]
    rfl

end Refactor.Text
