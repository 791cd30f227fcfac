import Refactor.Location

/-!
# Indexed lists

Members are kept in the order in which they arrive, and one that equals an earlier member is
left out. To find equals without a scan, positions are filed under locations: equal members
have equal locations, so only the positions filed under the newcomer's location are looked at.

The list itself may also be edited from outside. Such an edit is noticed when it changes the
length, and the index is then built anew. An edit that keeps the length goes unnoticed: the
positions filed before it stay as they were.
-/

namespace Refactor

/-- Positions of a list filed under locations, and the length of the list when it was last
indexed. -/
structure LocationIndex where
  filed : List (Location × Nat) := []
  indexed : Nat := 0

namespace LocationIndex

/-- The positions filed under a location, in the order of filing. -/
def positions (index : LocationIndex) (location : Location) : List Nat :=
  index.filed.filterMap fun entry => if entry.1 = location then some entry.2 else none

/-- The index of a whole list. -/
def ofList (locate : α → Location) (items : List α) : LocationIndex :=
  { filed := items.zipIdx.map fun entry => (locate entry.1, entry.2)
    indexed := items.length }

/-- The index, built anew if the list has another length than it had. -/
def refresh (index : LocationIndex) (locate : α → Location) (items : List α) : LocationIndex :=
  if index.indexed = items.length then index else ofList locate items

/-- Whether an equal of the item stands at one of the positions filed under its location. -/
def holds [BEq α] (index : LocationIndex) (locate : α → Location) (items : List α) (item : α) :
    Bool :=
  (index.positions (locate item)).any fun position =>
    match items[position]? with
    | some member => member == item
    | none => false

/-- Appends an item unless an equal one is found. The answer says whether it was appended. -/
def pushUnique [BEq α] (index : LocationIndex) (locate : α → Location) (items : List α)
    (item : α) : LocationIndex × List α × Bool :=
  let current := index.refresh locate items
  if current.holds locate items item then (current, items, false)
  else
    ({ filed := current.filed ++ [(locate item, items.length)], indexed := items.length + 1 },
      items ++ [item], true)

end LocationIndex

end Refactor
