/-!
# Tables ordered by key

A table is a finite map from text to values, kept as a list of entries in strictly increasing key
order (code point order, which for UTF-8 text is also byte order).  The order is part of the type,
so listing a table needs no sorting.  Main statements: `find?_insert_self` and `find?_insert_ne`.
-/

namespace Linkage

/-- Put `value` under `key` into a list of entries ordered by key, replacing an entry with the same
key. -/
def insertEntry {α : Type} (key : String) (value : α) :
    List (String × α) → List (String × α)
  | [] => [(key, value)]
  | entry :: rest =>
      if key < entry.1 then (key, value) :: entry :: rest
      else if key = entry.1 then (key, value) :: rest
      else entry :: insertEntry key value rest

/-- The value of the first entry under `key`. -/
def lookupEntry {α : Type} (key : String) : List (String × α) → Option α
  | [] => none
  | entry :: rest => if entry.1 = key then some entry.2 else lookupEntry key rest

/-- Keys strictly increase along the list. -/
def KeysIncrease {α : Type} (entries : List (String × α)) : Prop :=
  entries.Pairwise (fun a b => a.1 < b.1)

theorem text_lt_of_not_lt {a b : String} (notLt : ¬ a < b) (ne : a ≠ b) : b < a := by
  rcases String.le_total a b with h | h
  · exact absurd (Std.lt_of_le_of_ne h ne) notLt
  · exact Std.lt_of_le_of_ne h (Ne.symm ne)

theorem mem_insertEntry {α : Type} {key : String} {value : α} {entry : String × α}
    {entries : List (String × α)} (h : entry ∈ insertEntry key value entries) :
    entry = (key, value) ∨ entry ∈ entries := by
  induction entries with
  | nil => simpa [insertEntry] using h
  | cons head rest ih =>
      unfold insertEntry at h
      split at h
      · simpa using h
      · split at h
        · rcases List.mem_cons.mp h with h | h
          · exact .inl h
          · exact .inr (List.mem_cons_of_mem _ h)
        · rcases List.mem_cons.mp h with h | h
          · exact .inr (h ▸ List.mem_cons_self)
          · exact (ih h).imp id (List.mem_cons_of_mem _)

theorem KeysIncrease.insertEntry {α : Type} {entries : List (String × α)}
    (ordered : KeysIncrease entries) (key : String) (value : α) :
    KeysIncrease (insertEntry key value entries) := by
  induction entries with
  | nil => simp [Linkage.insertEntry, KeysIncrease]
  | cons head rest ih =>
      obtain ⟨above, tail⟩ := List.pairwise_cons.mp ordered
      unfold Linkage.insertEntry
      split
      · rename_i below
        refine List.pairwise_cons.mpr ⟨?_, ordered⟩
        intro entry member
        rcases List.mem_cons.mp member with rfl | member
        · exact below
        · exact String.lt_trans below (above entry member)
      · split
        · rename_i same
          refine List.pairwise_cons.mpr ⟨?_, tail⟩
          intro entry member
          exact same ▸ above entry member
        · rename_i notBelow different
          refine List.pairwise_cons.mpr ⟨?_, ih tail⟩
          intro entry member
          rcases mem_insertEntry member with rfl | member
          · exact text_lt_of_not_lt notBelow different
          · exact above entry member

theorem lookupEntry_insertEntry_self {α : Type} (key : String) (value : α)
    (entries : List (String × α)) :
    lookupEntry key (insertEntry key value entries) = some value := by
  induction entries with
  | nil => simp [insertEntry, lookupEntry]
  | cons head rest ih =>
      unfold insertEntry
      split
      · simp [lookupEntry]
      · split
        · simp [lookupEntry]
        · rename_i different
          simp [lookupEntry, Ne.symm different, ih]

theorem lookupEntry_insertEntry_ne {α : Type} {key other : String} (different : other ≠ key)
    (value : α) (entries : List (String × α)) :
    lookupEntry other (insertEntry key value entries) = lookupEntry other entries := by
  induction entries with
  | nil => simp [insertEntry, lookupEntry, Ne.symm different]
  | cons head rest ih =>
      unfold insertEntry
      split
      · simp [lookupEntry, Ne.symm different]
      · split
        · rename_i same
          simp [lookupEntry, ← same, Ne.symm different]
        · simp [lookupEntry, ih]

/-- A finite map from text to values, listed in key order. -/
structure Table (α : Type) where
  /-- The entries, keys strictly increasing. -/
  entries : List (String × α)
  /-- No key occurs twice and the listing is in order. -/
  ordered : KeysIncrease entries

namespace Table

variable {α β : Type}

/-- The table without entries. -/
def empty : Table α := ⟨[], List.Pairwise.nil⟩

instance : Inhabited (Table α) := ⟨empty⟩

instance : EmptyCollection (Table α) := ⟨empty⟩

/-- The value under `key`. -/
def find? (table : Table α) (key : String) : Option α :=
  lookupEntry key table.entries

/-- Whether there is an entry under `key`. -/
def contains (table : Table α) (key : String) : Bool :=
  (table.find? key).isSome

/-- Put `value` under `key`, replacing what was there. -/
def insert (table : Table α) (key : String) (value : α) : Table α :=
  ⟨insertEntry key value table.entries, table.ordered.insertEntry key value⟩

/-- Remove the entry under `key`. -/
def erase (table : Table α) (key : String) : Table α :=
  ⟨table.entries.filter (fun entry => entry.1 ≠ key), table.ordered.filter _⟩

/-- The keys in order. -/
def keys (table : Table α) : List String :=
  table.entries.map (·.1)

/-- Number of entries. -/
def size (table : Table α) : Nat :=
  table.entries.length

/-- Whether there is no entry. -/
def isEmpty (table : Table α) : Bool :=
  table.entries.isEmpty

/-- The table of a list of entries; of two with one key the later wins. -/
def ofList (entries : List (String × α)) : Table α :=
  entries.foldl (fun table entry => table.insert entry.1 entry.2) empty

@[simp] theorem find?_empty (key : String) : (empty : Table α).find? key = none := rfl

@[simp] theorem find?_insert_self (table : Table α) (key : String) (value : α) :
    (table.insert key value).find? key = some value :=
  lookupEntry_insertEntry_self key value table.entries

theorem find?_insert_ne (table : Table α) {key other : String} (different : other ≠ key)
    (value : α) : (table.insert key value).find? other = table.find? other :=
  lookupEntry_insertEntry_ne different value table.entries

end Table

end Linkage
