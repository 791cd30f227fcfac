import Refactor.Model.Annotation
import Refactor.Model.LocationIndex

/-!
# Additions through an index

An addition looks only at the positions that the index files under a location. An index is
reliable for a list when, as long as it takes the list for unchanged, each member is filed where it
is looked for. Then an addition is the plain scan of the list (`pushUnique_eq_scanUnique`), and the
index is reliable for the longer list (`Reliable.pushUnique`). An index that is not reliable may
miss an equal member, but never finds one that is not there (`mem_of_holds`).

An index whose list may also lose members, but never grows unnoticed, keeps track of it (`Tracks`).
-/

namespace Refactor.LocationIndex

variable {α : Type} {locate : α → Location} {items : List α} {index : LocationIndex}

/-- An index that takes a list for unchanged only if each member is filed under its location. -/
def Reliable (locate : α → Location) (items : List α) (index : LocationIndex) : Prop :=
  index.indexed = items.length →
    ∀ position item, items[position]? = some item → position ∈ index.positions (locate item)

theorem mem_positions {location : Location} {position : Nat} :
    position ∈ index.positions location ↔ (location, position) ∈ index.filed := by
  unfold positions
  rw [List.mem_filterMap]
  constructor
  · rintro ⟨entry, hentry, hposition⟩
    split at hposition
    · rename_i hlocation
      rw [← hlocation, ← Option.some.inj hposition]
      exact hentry
    · cases hposition
  · intro hentry
    exact ⟨(location, position), hentry, if_pos rfl⟩

theorem reliable_ofList (locate : α → Location) (items : List α) :
    Reliable locate items (ofList locate items) := by
  intro _ position item hitem
  refine mem_positions.mpr (List.mem_map.mpr ⟨(item, position), ?_, rfl⟩)
  exact List.mem_zipIdx_iff_getElem?.mpr hitem

theorem indexed_refresh (locate : α → Location) (items : List α) (index : LocationIndex) :
    (index.refresh locate items).indexed = items.length := by
  unfold refresh
  split
  · assumption
  · rfl

theorem Reliable.refresh (h : Reliable locate items index) :
    Reliable locate items (index.refresh locate items) := by
  unfold LocationIndex.refresh
  split
  · exact h
  · exact reliable_ofList locate items

section

variable [BEq α]

/-- Adding by a plain scan: the list afterwards, and whether the item was added. -/
def scanUnique (items : List α) (item : α) : List α × Bool :=
  if items.any (· == item) then (items, false) else (items ++ [item], true)

theorem scanUnique_fst [EquivBEq α] (items : List α) (item : α) :
    (scanUnique items item).1 = appendNew items item := by
  have hcontains : items.any (· == item) = items.contains item := by
    rw [List.contains_eq_any_beq]
    simp only [BEq.comm]
  unfold scanUnique appendNew
  rw [hcontains]
  split <;> rfl

/-- Whatever is filed, only a member of the list is taken for an equal. -/
theorem mem_of_holds {item : α} (h : index.holds locate items item = true) :
    items.any (· == item) = true := by
  rw [holds, List.any_eq_true] at h
  obtain ⟨position, -, hmatch⟩ := h
  split at hmatch
  · rename_i member hmember
    exact List.any_eq_true.mpr ⟨member, List.mem_of_getElem? hmember, hmatch⟩
  · cases hmatch

/-- Nothing comes in but the item. -/
theorem mem_of_mem_pushUnique {item member : α}
    (h : member ∈ (index.pushUnique locate items item).2.1) : member ∈ items ∨ member = item := by
  unfold pushUnique at h
  dsimp only at h
  split at h
  · exact .inl h
  · rwa [List.mem_append, List.mem_singleton] at h

theorem forall_mem_pushUnique {P : α → Prop} {item : α} (h : ∀ member ∈ items, P member)
    (hitem : P item) : ∀ member ∈ (index.pushUnique locate items item).2.1, P member := by
  intro member hmember
  rcases mem_of_mem_pushUnique hmember with hbefore | rfl
  · exact h member hbefore
  · exact hitem

/-- An equal member is found through the index, since it has the same location. -/
theorem holds_eq_any (hlocate : ∀ a b : α, (a == b) = true → locate a = locate b)
    (hlength : index.indexed = items.length) (h : Reliable locate items index) (item : α) :
    index.holds locate items item = items.any (· == item) := by
  rw [Bool.eq_iff_iff]
  refine ⟨mem_of_holds, fun hany => ?_⟩
  obtain ⟨member, hmember, hsame⟩ := List.any_eq_true.mp hany
  obtain ⟨position, hposition⟩ := List.getElem?_of_mem hmember
  rw [holds, List.any_eq_true]
  refine ⟨position, ?_, ?_⟩
  · rw [← hlocate member item hsame]
    exact h hlength position member hposition
  · rw [hposition]
    exact hsame

/-- **An addition through a reliable index is an addition by a plain scan.** -/
theorem pushUnique_eq_scanUnique (hlocate : ∀ a b : α, (a == b) = true → locate a = locate b)
    (h : Reliable locate items index) (item : α) :
    (index.pushUnique locate items item).2 = scanUnique items item := by
  have hholds := holds_eq_any hlocate (indexed_refresh locate items index) h.refresh item
  unfold pushUnique scanUnique
  dsimp only
  rw [hholds]
  split <;> rfl

theorem pushUnique_eq_appendNew [EquivBEq α]
    (hlocate : ∀ a b : α, (a == b) = true → locate a = locate b)
    (h : Reliable locate items index) (item : α) :
    (index.pushUnique locate items item).2.1 = appendNew items item := by
  rw [pushUnique_eq_scanUnique hlocate h, scanUnique_fst]

/-- After an addition the index is as long as the list, and still reliable. -/
theorem Reliable.pushUnique (h : Reliable locate items index) (item : α) :
    let added := index.pushUnique locate items item
    added.1.indexed = added.2.1.length ∧ Reliable locate added.2.1 added.1 := by
  have hlength := indexed_refresh locate items index
  unfold LocationIndex.pushUnique
  dsimp only
  split
  · exact ⟨hlength, h.refresh⟩
  · refine ⟨by simp, fun _ position member hmember => mem_positions.mpr ?_⟩
    rw [List.getElem?_append] at hmember
    split at hmember
    · have hfiled := mem_positions.mp (h.refresh hlength position member hmember)
      exact List.mem_append_left _ hfiled
    · -- The only position beyond the old list is that of the new member.
      rw [List.getElem?_singleton] at hmember
      split at hmember
      · obtain rfl := Option.some.inj hmember
        obtain rfl : position = items.length := by omega
        exact List.mem_append_right _ List.mem_cons_self
      · cases hmember

end

/-- Members may be exchanged for others at the same locations. -/
theorem Reliable.of_map_eq (h : Reliable locate items index) {others : List α}
    (hothers : others.map locate = items.map locate) : Reliable locate others index := by
  intro hlength position other hother
  have hlocated : (items.map locate)[position]? = some (locate other) := by
    rw [← hothers, List.getElem?_map, hother]
    rfl
  rw [List.getElem?_map, Option.map_eq_some_iff] at hlocated
  obtain ⟨item, hitem, hlocation⟩ := hlocated
  have hsame : items.length = others.length := by
    simpa using congrArg List.length hothers.symm
  rw [← hlocation]
  exact h (hlength.trans hsame.symm) position item hitem

/-! ## Lists that lose members -/

/-- A reliable index that was made when the list had at least as many members. -/
structure Tracks (locate : α → Location) (items : List α) (index : LocationIndex) : Prop where
  length_le : items.length ≤ index.indexed
  reliable : Reliable locate items index

theorem tracks_empty (locate : α → Location) : Tracks locate [] {} where
  length_le := Nat.le_refl _
  reliable := fun _ _ _ hmember => by cases hmember

theorem Tracks.pushUnique [BEq α] (h : Tracks locate items index) (item : α) :
    Tracks locate (index.pushUnique locate items item).2.1
      (index.pushUnique locate items item).1 :=
  have hadded := h.reliable.pushUnique item
  ⟨Nat.le_of_eq hadded.1.symm, hadded.2⟩

/-- Members that are gone are noticed by the length. -/
theorem Tracks.sublist (h : Tracks locate items index) {fewer : List α}
    (hfewer : fewer.Sublist items) : Tracks locate fewer index where
  length_le := Nat.le_trans hfewer.length_le h.length_le
  reliable := by
    intro hlength
    have hle : items.length ≤ fewer.length := hlength ▸ h.length_le
    rw [hfewer.eq_of_length_le hle] at hlength ⊢
    exact h.reliable hlength

theorem Tracks.of_map_eq (h : Tracks locate items index) {others : List α}
    (hothers : others.map locate = items.map locate) : Tracks locate others index where
  length_le := by
    rw [← List.length_map (f := locate), hothers, List.length_map]
    exact h.length_le
  reliable := h.reliable.of_map_eq hothers

end Refactor.LocationIndex
