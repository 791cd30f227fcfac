import Mathlib.Data.List.Forall2
import Refactor.Diff.Config
import Refactor.Diff.Names
import Refactor.Proofs.EditDistance

/-!
# Related names, whatever the direction and the case

**Theorem (`related_symm_caseless`).** Every name is related to itself, relatedness does not depend
on which name is the old one, and the case of letters does not count.

What is compared are normal forms. Relatedness says that one of them stands in the other or that
few edits lead from one to the other (`related_iff`), and both of these can be read in either
direction.

Changing the case of letters changes no normal form (`normalize_eq`). The verb in front is found in
the folded name, so it is the same one and what is left differs in case only (`dropVerb_forms`); so
it is with the word at the end. That the first may reach into the second does not matter, since the
second is looked for in what the first has left. The remaining text is put in small letters, where
a sigma looks at the letters around it but not at their case (`lowerAfter_eq`).

Only the case of ASCII letters is changed. The names may have other characters, too.
-/

namespace Refactor.Text

/-! ## Letters in another case -/

/-- A character, or the letter that it is in another case. -/
def SameLetter (c d : Char) : Prop :=
  d = c ∨ d = c.toUpper ∨ d = c.toLower

instance (c d : Char) : Decidable (SameLetter c d) :=
  inferInstanceAs (Decidable (_ ∨ _ ∨ _))

/-- Outside of ASCII no letter has another case here. -/
theorem SameLetter.eq_of_le {c d : Char} (h : SameLetter c d) (hc : 0x80 ≤ c.toNat) : d = c := by
  obtain rfl | rfl | rfl := h
  · rfl
  · refine dif_neg fun hletter => ?_
    have hle : c.toNat ≤ 122 := UInt32.le_iff_toNat_le.mp hletter.2
    omega
  · refine dif_neg fun hletter => ?_
    have hle : c.toNat ≤ 90 := UInt32.le_iff_toNat_le.mp hletter.2
    omega

/-- What does not tell the cases of an ASCII letter apart does so for no character. -/
theorem SameLetter.congr {α : Type} {f : Char → α}
    (hascii : ∀ n < 0x80, f (Char.ofNat n).toUpper = f (Char.ofNat n) ∧
      f (Char.ofNat n).toLower = f (Char.ofNat n))
    {c d : Char} (h : SameLetter c d) : f d = f c := by
  by_cases hc : c.toNat < 0x80
  · have hboth := hascii c.toNat hc
    rw [Char.ofNat_toNat] at hboth
    obtain rfl | rfl | rfl := h
    · rfl
    · exact hboth.1
    · exact hboth.2
  · rw [h.eq_of_le (Nat.le_of_not_lt hc)]

/-- Texts that differ in the case of letters. -/
abbrev SameLetters : List Char → List Char → Prop :=
  List.Forall₂ SameLetter

/-! ## Small letters -/

theorem isCased_eq {c d : Char} (h : SameLetter c d) : isCased d = isCased c :=
  h.congr (by decide +kernel)

theorem isCaseIgnorable_eq {c d : Char} (h : SameLetter c d) :
    isCaseIgnorable d = isCaseIgnorable c :=
  h.congr (by decide +kernel)

theorem lowerChar_eq {c d : Char} (h : SameLetter c d) : lowerChar d = lowerChar c :=
  h.congr (by decide +kernel)

theorem eq_capitalSigma_iff {c d : Char} (h : SameLetter c d) :
    d = capitalSigma ↔ c = capitalSigma := by
  have hsame := h.congr (f := fun c => decide (c = capitalSigma)) (by decide +kernel)
  simpa using hsame

theorem meetsCased_eq {a b : List Char} (h : SameLetters a b) : meetsCased b = meetsCased a := by
  unfold meetsCased
  induction h with
  | nil => rfl
  | @cons c d a b hcd _ ih =>
    rw [List.dropWhile_cons, List.dropWhile_cons, isCaseIgnorable_eq hcd]
    by_cases hignorable : isCaseIgnorable c = true
    · rwa [if_pos hignorable, if_pos hignorable]
    · rw [if_neg hignorable, if_neg hignorable]
      exact isCased_eq hcd

theorem lowerSigma_eq {before before' after after' : List Char}
    (hbefore : SameLetters before before') (hafter : SameLetters after after') :
    lowerSigma before' after' = lowerSigma before after := by
  rw [lowerSigma, lowerSigma, meetsCased_eq hbefore, meetsCased_eq hafter]

/-- Small letters do not show which case they come from. -/
theorem lowerAfter_eq {a b : List Char} (h : SameLetters a b) {before before' : List Char}
    (hbefore : SameLetters before before') : lowerAfter before' b = lowerAfter before a := by
  induction h generalizing before before' with
  | nil => rfl
  | @cons c d a b hcd htail ih =>
    rw [lowerAfter, lowerAfter, ih (.cons hcd hbefore), lowerSigma_eq hbefore htail,
      lowerChar_eq hcd]
    simp only [eq_capitalSigma_iff hcd]

end Refactor.Text

namespace Refactor.Names

open Text

/-! ## Normal forms -/

/-- Names that differ in the case of letters. -/
def CaseVariant (a b : String) : Prop :=
  SameLetters a.toList b.toList

instance (a b : String) : Decidable (CaseVariant a b) :=
  inferInstanceAs (Decidable (List.Forall₂ SameLetter _ _))

theorem caseFold_eq {c d : Char} (h : SameLetter c d) : caseFold d = caseFold c :=
  h.congr (by decide +kernel)

theorem map_caseFold_eq {a b : List Char} (h : SameLetters a b) :
    b.map caseFold = a.map caseFold := by
  induction h with
  | nil => rfl
  | cons hcd _ ih => rw [List.map_cons, List.map_cons, caseFold_eq hcd, ih]

/-- The same verb is left out. -/
theorem dropVerb_forms {a b : List Char} (h : SameLetters a b) :
    SameLetters (dropVerb a) (dropVerb b) := by
  unfold dropVerb
  rw [map_caseFold_eq h]
  split
  · exact List.forall₂_drop _ h
  · exact h

/-- The same trailing word is left out. -/
theorem dropTrailing_forms {a b : List Char} (h : SameLetters a b) :
    SameLetters (dropTrailing a) (dropTrailing b) := by
  unfold dropTrailing
  rw [map_caseFold_eq h, h.length_eq]
  split
  · exact List.forall₂_take _ h
  · exact h

/-- **Names that differ in case have one normal form.** -/
theorem normalize_eq {a b : String} (h : CaseVariant a b) : normalize b = normalize a := by
  unfold normalize lowercase
  rw [String.toList_ofList, String.toList_ofList,
    lowerAfter_eq (dropTrailing_forms (dropVerb_forms h)) .nil]

/-! ## Relatedness -/

theorem occursIn_iff {part text : List Char} : occursIn part text = true ↔ part <:+: text := by
  induction text with
  | nil => simp [occursIn]
  | cons c text ih =>
    rw [occursIn, Bool.or_eq_true, List.isPrefixOf_iff_prefix, ih, List.infix_cons_iff]

theorem distance_le_iff {a b : List Char} {n : Nat} :
    distance a b ≤ n ↔ ∃ k ≤ n, Edits k a b := by
  obtain ⟨hreached, hleast⟩ := isLeast_distance a b
  constructor
  · intro h
    exact ⟨distance a b, h, hreached⟩
  · rintro ⟨k, hk, hedits⟩
    exact Nat.le_trans (hleast hedits) hk

/-- Names are related when one normal form stands in the other or few edits lead to it. -/
theorem related_iff {maxDistance : Nat} {old new : String} :
    related maxDistance old new = true ↔
      (normalize old).toList <:+: (normalize new).toList ∨
        (normalize new).toList <:+: (normalize old).toList ∨
        ∃ n ≤ maxDistance, Edits n (normalize old).toList (normalize new).toList := by
  unfold related
  simp only [Bool.or_eq_true, beq_iff_eq, occursIn_iff, decide_eq_true_eq, distance_le_iff]
  constructor
  · rintro (rfl | ((heq | hnew) | hold) | hedits)
    · exact .inl (List.infix_refl _)
    · rw [heq]
      exact .inl (List.infix_refl _)
    · exact .inr (.inl hnew)
    · exact .inl hold
    · exact .inr (.inr hedits)
  · rintro (hold | hnew | hedits)
    · exact .inr (.inl (.inr hold))
    · exact .inr (.inl (.inl (.inr hnew)))
    · exact .inr (.inr hedits)

theorem related_self (maxDistance : Nat) (name : String) : related maxDistance name name = true :=
  related_iff.mpr (.inl (List.infix_refl _))

theorem related_comm (maxDistance : Nat) (a b : String) :
    related maxDistance a b = related maxDistance b a := by
  have hflip : ∀ {a b : String}, related maxDistance a b = true →
      related maxDistance b a = true := by
    intro a b h
    refine related_iff.mpr ?_
    obtain hold | hnew | ⟨n, hn, hedits⟩ := related_iff.mp h
    · exact .inr (.inl hold)
    · exact .inl hnew
    · exact .inr (.inr ⟨n, hn, hedits.symm⟩)
  exact Bool.eq_iff_iff.mpr ⟨hflip, hflip⟩

theorem related_congr (maxDistance : Nat) {a a' b b' : String}
    (ha : normalize a' = normalize a) (hb : normalize b' = normalize b) :
    related maxDistance a' b' = related maxDistance a b := by
  rw [Bool.eq_iff_iff, related_iff, related_iff, ha, hb]

/-- **Relatedness is reflexive, symmetric, and blind to case**, also where verbs and trailing words
are left out. -/
theorem related_symm_caseless (config : Diff.Config) :
    (∀ a, related config.maxDistance a a = true) ∧
      (∀ a b, related config.maxDistance a b = related config.maxDistance b a) ∧
      ∀ a a' b b', CaseVariant a a' → CaseVariant b b' →
        normalize a' = normalize a ∧ normalize b' = normalize b ∧
          related config.maxDistance a' b' = related config.maxDistance a b := by
  refine ⟨related_self _, related_comm _, fun a a' b b' ha hb => ?_⟩
  exact ⟨normalize_eq ha, normalize_eq hb, related_congr _ (normalize_eq ha) (normalize_eq hb)⟩

/-- Nothing is left of `getAsync`, whose verb and trailing word touch, so it stands in every other
name. -/
theorem related_symm_caseless_getAsync :
    CaseVariant "getAsync" "GETasync" ∧ CaseVariant "makeUserImpl" "MaKeUSERimpl" ∧
      normalize "GETasync" = "" ∧ normalize "MaKeUSERimpl" = "user" ∧
      related 0 "GETasync" "MaKeUSERimpl" = true := by
  have ha : CaseVariant "getAsync" "GETasync" := by decide +kernel
  have hb : CaseVariant "makeUserImpl" "MaKeUSERimpl" := by decide +kernel
  obtain ⟨-, -, hcaseless⟩ := related_symm_caseless { maxDistance := 0 }
  obtain ⟨hfirst, hsecond, hrelated⟩ := hcaseless _ _ _ _ ha hb
  exact ⟨ha, hb, hfirst.trans (by decide +kernel), hsecond.trans (by decide +kernel),
    hrelated.trans (by decide +kernel)⟩

end Refactor.Names
