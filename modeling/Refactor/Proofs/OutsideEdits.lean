import Refactor.Proofs.Merging

/-!
# Edits behind an index

A list is added to through an index, and in between it is edited from outside. The index compares
nothing but the length with the one it has noted.

**Theorem (`pushUnique_refines_scan`).** If every edit keeps the locations of the members in their
places, or leaves another length than the list had after the last addition, then all additions of a
run give what a plain scan gives. So the classes and the operations of a model are pairwise
different, however the model is driven. After any edits at all, an item that is turned away equals a
member.

The invariant has two parts. The length that the index has noted is the one after the last addition,
and the index is reliable. An edit of the first kind keeps the index reliable, and after one of the
second kind there is nothing to rely on until the next addition builds the index anew.
-/

namespace Refactor

namespace LocationIndex

/-- What happens to an indexed list. -/
inductive Event (α : Type)
  /-- An item is added through the index. -/
  | push (item : α)
  /-- An edit from outside leaves these members. -/
  | edit (members : List α)

section

variable {α : Type} [BEq α]

/-- What each addition of a run gives through the index: the list, and whether it has grown. -/
def indexedRun (locate : α → Location) :
    LocationIndex → List α → List (Event α) → List (List α × Bool)
  | _, _, [] => []
  | index, items, .push item :: rest =>
    (index.pushUnique locate items item).2 ::
      indexedRun locate (index.pushUnique locate items item).1
        (index.pushUnique locate items item).2.1 rest
  | index, _, .edit members :: rest => indexedRun locate index members rest

/-- What each addition of a run gives by a plain scan. -/
def scannedRun : List α → List (Event α) → List (List α × Bool)
  | _, [] => []
  | items, .push item :: rest => scanUnique items item :: scannedRun (scanUnique items item).1 rest
  | _, .edit members :: rest => scannedRun members rest

/-- Each edit keeps the locations in their places or leaves a length that will be noticed, given the
length after the last addition. Before the first addition nothing is asked of an edit. -/
def Noticeable (locate : α → Location) : Option Nat → List α → List (Event α) → Prop
  | _, _, [] => True
  | _, items, .push item :: rest =>
    Noticeable locate (some (scanUnique items item).1.length) (scanUnique items item).1 rest
  | settled, items, .edit members :: rest =>
    (members.map locate = items.map locate ∨ settled ≠ some members.length) ∧
      Noticeable locate settled members rest

end

/-! ## Runs -/

variable {α : Type} {locate : α → Location} {settled : Option Nat} {items : List α}
  {index : LocationIndex}

/-- The index has noted the length after the last addition, and is reliable. -/
structure Coherent (locate : α → Location) (settled : Option Nat) (items : List α)
    (index : LocationIndex) : Prop where
  indexed : index.indexed = settled.getD 0
  reliable : Reliable locate items index

theorem coherent_start (locate : α → Location) (items : List α) :
    Coherent locate none items {} where
  indexed := rfl
  reliable := by
    intro hlength position item hitem
    rw [List.length_eq_zero_iff.mp hlength.symm] at hitem
    cases hitem

theorem Coherent.push [BEq α] (hlocate : ∀ a b : α, (a == b) = true → locate a = locate b)
    (h : Coherent locate settled items index) (item : α) :
    Coherent locate (some (scanUnique items item).1.length) (scanUnique items item).1
      (index.pushUnique locate items item).1 := by
  obtain ⟨hindexed, hreliable⟩ := h.reliable.pushUnique item
  rw [pushUnique_eq_scanUnique hlocate h.reliable] at hindexed hreliable
  exact ⟨hindexed, hreliable⟩

theorem Coherent.edit (h : Coherent locate settled items index) {members : List α}
    (hedit : members.map locate = items.map locate ∨ settled ≠ some members.length) :
    Coherent locate settled members index where
  indexed := h.indexed
  reliable := by
    rcases hedit with hlocations | hlength
    · exact h.reliable.of_map_eq hlocations
    · intro hsame position member hmember
      rw [h.indexed] at hsame
      cases settled with
      | none =>
        -- Nothing was added yet, so only the empty list is taken for unchanged.
        rw [List.length_eq_zero_iff.mp hsame.symm] at hmember
        cases hmember
      | some length => exact absurd (congrArg some hsame) hlength

/-- Step by step, the index gives what the scan gives. -/
theorem Coherent.indexedRun_eq [BEq α]
    (hlocate : ∀ a b : α, (a == b) = true → locate a = locate b)
    (h : Coherent locate settled items index) {events : List (Event α)}
    (hevents : Noticeable locate settled items events) :
    indexedRun locate index items events = scannedRun items events := by
  induction events generalizing settled items index with
  | nil => rfl
  | cons event rest ih =>
    cases event with
    | push item =>
      rw [indexedRun, scannedRun, pushUnique_eq_scanUnique hlocate h.reliable]
      have hrest := ih (h.push hlocate item) hevents
      rw [hrest]
    | edit members =>
      obtain ⟨hedit, hrest⟩ := hevents
      exact ih (h.edit hedit) hrest

/-- An item is turned away only if the list has an equal member, and then nothing changes. -/
theorem any_of_pushUnique [BEq α] {item : α}
    (h : (index.pushUnique locate items item).2.2 = false) :
    items.any (· == item) = true ∧ (index.pushUnique locate items item).2.1 = items := by
  unfold pushUnique at h ⊢
  dsimp only at h ⊢
  split at h
  · rename_i hholds
    rw [if_pos hholds]
    exact ⟨mem_of_holds hholds, rfl⟩
  · cases h

end LocationIndex

/-! ## Models -/

namespace CodeModel

/-- A change that goes through the indexes of a model or past them. -/
inductive Change
  | addClass (c : Class)
  | addOperation (o : Operation)
  | merge (other : CodeModel)
  | link
  | clear

/-- The model after a change. -/
def change (m : CodeModel) : Change → CodeModel
  | .addClass c => m.addClass c
  | .addOperation o => m.addOperation o
  | .merge other => m.merge other
  | .link => m.link
  | .clear => m.clear

theorem Sound.change {m : CodeModel} (h : Sound m) (step : Change) : Sound (m.change step) := by
  cases step with
  | addClass c => exact h.addClass c
  | addOperation o => exact h.addOperation o
  | merge other => exact (merge_contents h other).1
  | link => exact h.link
  | clear => exact h.clear

theorem Sound.foldl_change {m : CodeModel} (h : Sound m) (steps : List Change) :
    Sound (steps.foldl CodeModel.change m) := by
  induction steps generalizing m with
  | nil => exact h
  | cons step steps ih => exact ih (h.change step)

end CodeModel

namespace LocationIndex

/-- **Additions through an index are additions by a plain scan**, as long as edits from outside keep
the locations or change the length. Equal entities have equal locations, so a model never holds
equal classes or operations. No edit makes an item rejected that is not there. -/
theorem pushUnique_refines_scan :
    (∀ (α : Type) [BEq α] (locate : α → Location),
      (∀ a b : α, (a == b) = true → locate a = locate b) →
      ∀ (items : List α) (events : List (Event α)), Noticeable locate none items events →
        indexedRun locate {} items events = scannedRun items events) ∧
    ((∀ a b : Operation, (a == b) = true → a.location = b.location) ∧
      (∀ a b : Class, (a == b) = true → a.location = b.location) ∧
      ∀ a b : Attribute, (a == b) = true → a.location = b.location) ∧
    (∀ (language : Option Language) (steps : List CodeModel.Change),
      Distinct (steps.foldl CodeModel.change (CodeModel.new language)).classes ∧
        Distinct (steps.foldl CodeModel.change (CodeModel.new language)).operations) ∧
    ∀ (α : Type) [BEq α] (locate : α → Location) (index : LocationIndex) (items : List α)
      (item : α),
      (index.pushUnique locate items item).2.2 = false →
        items.any (· == item) = true ∧ (index.pushUnique locate items item).2.1 = items := by
  refine ⟨?_, ⟨?_, ?_, ?_⟩, ?_, ?_⟩
  · intro α _ locate hlocate items events hevents
    exact (coherent_start locate items).indexedRun_eq hlocate hevents
  · intro a b hsame
    exact Operation.location_eq_of_beq hsame
  · intro a b hsame
    exact Class.location_eq_of_beq hsame
  · intro a b hsame
    exact Attribute.location_eq_of_beq hsame
  · intro language steps
    have hstart : CodeModel.Sound (CodeModel.new language) := ⟨indexed_empty _, indexed_empty _⟩
    have hsound := hstart.foldl_change steps
    exact ⟨hsound.classes.distinct, hsound.operations.distinct⟩
  · intro α _ locate index items item hrejected
    exact any_of_pushUnique hrejected

/-- The list starts with a member that the index has not seen. Then a member is exchanged for
another one at its location, and the list is emptied and filled anew with fewer members. -/
theorem pushUnique_refines_scan_edited :
    let function (name : String) : Operation :=
      { name := name
        location := ⟨"m.py", ⟨0, 0⟩, ⟨0, 1⟩, .methodDeclaration, by decide, by decide⟩ }
    let events : List (Event Operation) :=
      [.push (function "f"), .push (function "g"), .edit [function "f", function "h"],
        .push (function "h"), .push (function "g"), .edit [], .edit [function "g"],
        .push (function "h"), .push (function "g")]
    Noticeable Operation.location none [function "f"] events ∧
      indexedRun Operation.location {} [function "f"] events = scannedRun [function "f"] events ∧
      (scannedRun [function "f"] events).map Prod.snd =
        [false, true, false, true, true, false] := by
  intro function events
  have hevents : Noticeable Operation.location none [function "f"] events :=
    ⟨.inl (by decide +kernel), .inr (by decide +kernel), .inr (by decide +kernel), trivial⟩
  refine ⟨hevents, ?_, by decide +kernel⟩
  exact pushUnique_refines_scan.1 Operation Operation.location
    (fun _ _ => Operation.location_eq_of_beq) [function "f"] events hevents

end LocationIndex

end Refactor
