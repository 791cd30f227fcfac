/-!
# Maps keyed by texts

A finite map from texts (paths, names) to values, held as the list of its entries in increasing
order of the key. The order is part of the type, so two maps with the same entries are equal and
listing the entries needs no sorting. Keys are compared character by character, which is also
their order as bytes.
-/

namespace Refactor

/-- The keys of a list of entries increase strictly. -/
def Increasing (entries : List (String × α)) : Prop :=
  entries.Pairwise fun a b => a.1 < b.1

/-- A finite map from texts, its entries in increasing order. -/
structure TextMap (α : Type) where
  entries : List (String × α)
  increasing : Increasing entries

namespace TextMap

variable {α β : Type}

def empty : TextMap α :=
  ⟨[], List.Pairwise.nil⟩

instance : EmptyCollection (TextMap α) := ⟨empty⟩

instance : Inhabited (TextMap α) := ⟨empty⟩

/-! ## Entries -/

/-- Puts an entry in its place, over an earlier one of the same key. -/
def insertEntry (key : String) (value : α) : List (String × α) → List (String × α)
  | [] => [(key, value)]
  | (p, v) :: rest =>
    if key < p then (key, value) :: (p, v) :: rest
    else if key = p then (key, value) :: rest
    else (p, v) :: insertEntry key value rest

theorem mem_insertEntry {key : String} {value : α} {entries : List (String × α)}
    {entry : String × α} (h : entry ∈ insertEntry key value entries) :
    entry = (key, value) ∨ entry ∈ entries := by
  induction entries with
  | nil => simpa [insertEntry] using h
  | cons head rest ih =>
    obtain ⟨p, v⟩ := head
    rw [insertEntry] at h
    split at h
    · simpa using h
    · split at h
      · rcases List.mem_cons.mp h with h | h
        · exact .inl h
        · exact .inr (List.mem_cons_of_mem _ h)
      · rcases List.mem_cons.mp h with h | h
        · exact .inr (h ▸ List.mem_cons_self)
        · exact (ih h).imp id (List.mem_cons_of_mem _)

theorem increasing_insertEntry {key : String} {value : α} {entries : List (String × α)}
    (h : Increasing entries) : Increasing (insertEntry key value entries) := by
  induction entries with
  | nil => exact List.pairwise_singleton _ _
  | cons head rest ih =>
    obtain ⟨p, v⟩ := head
    obtain ⟨hp, hrest⟩ := List.pairwise_cons.mp h
    rw [insertEntry]
    split
    · rename_i hlt
      refine List.pairwise_cons.mpr ⟨fun entry hentry => ?_, h⟩
      rcases List.mem_cons.mp hentry with rfl | hentry
      · exact hlt
      · exact String.lt_trans hlt (hp entry hentry)
    · split
      · rename_i heq
        subst heq
        exact List.pairwise_cons.mpr ⟨hp, hrest⟩
      · rename_i hlt hne
        refine List.pairwise_cons.mpr ⟨fun entry hentry => ?_, ih hrest⟩
        rcases mem_insertEntry hentry with rfl | hentry
        · exact Std.lt_of_le_of_ne (String.not_lt.mp hlt) (Ne.symm hne)
        · exact hp entry hentry

/-! ## Operations -/

/-- The value at a key. -/
def get? (m : TextMap α) (key : String) : Option α :=
  m.entries.lookup key

def contains (m : TextMap α) (key : String) : Bool :=
  (m.get? key).isSome

/-- The value at a key is set, whether there was one or not. -/
def insert (m : TextMap α) (key : String) (value : α) : TextMap α :=
  ⟨insertEntry key value m.entries, increasing_insertEntry m.increasing⟩

/-- The value at a key is set unless there is one. -/
def insertIfNew (m : TextMap α) (key : String) (value : α) : TextMap α :=
  if m.contains key then m else m.insert key value

/-- The value at a key is changed, starting from `initial` when there is none. -/
def update (m : TextMap α) (key : String) (initial : α) (f : α → α) : TextMap α :=
  m.insert key (f ((m.get? key).getD initial))

/-- The map with the given entries, a later one replacing an earlier one of the same key. -/
def ofList (entries : List (String × α)) : TextMap α :=
  entries.foldl (fun m entry => m.insert entry.1 entry.2) empty

/-- The entries that satisfy `p`. -/
def filter (m : TextMap α) (p : String → α → Bool) : TextMap α :=
  ⟨m.entries.filter fun entry => p entry.1 entry.2, m.increasing.filter _⟩

/-- The keys in increasing order. -/
def keys (m : TextMap α) : List String :=
  m.entries.map Prod.fst

def size (m : TextMap α) : Nat :=
  m.entries.length

end TextMap

end Refactor
