import Linkage.Table
import Mathlib.Data.List.Forall2
import Mathlib.Data.List.Nodup
import Mathlib.Data.List.Perm.Basic
import Mathlib.Tactic.Tauto

/-!
# Finding entries of a table

What is found under a key stands among the entries, and a key that is listed is found.  Entries in key
order, and so tables, are told by what is found under each key.

* `forall₂_lookupEntry`, `eq_of_keys_of_lookupEntry` : lists of entries with the same keys.
* `KeysIncrease.eq_of_lookupEntry`, `Table.ext_find?` : entries in key order.
* `Table.find?_ofList` : the table of a list whose keys are different.
* `Table.map` : a table with its values changed.
-/

namespace Linkage

theorem mem_of_lookupEntry {α : Type} {key : String} {value : α} {entries : List (String × α)}
    (hfound : lookupEntry key entries = some value) : (key, value) ∈ entries := by
  induction entries with
  | nil => simp [lookupEntry] at hfound
  | cons head rest ih =>
      unfold lookupEntry at hfound
      split at hfound
      · rename_i hkey
        obtain rfl : head.2 = value := by simpa using hfound
        simp [← hkey]
      · exact List.mem_cons_of_mem _ (ih hfound)

theorem lookupEntry_isSome_of_mem {α : Type} {key : String} {entries : List (String × α)}
    (hmem : key ∈ entries.map (·.1)) : (lookupEntry key entries).isSome := by
  induction entries with
  | nil => cases hmem
  | cons head rest ih =>
      unfold lookupEntry
      split
      · rfl
      · rename_i hkey
        rcases List.mem_cons.mp hmem with heq | hrest
        · exact absurd heq.symm hkey
        · exact ih hrest

section Entries

variable {α β : Type} {key : String}

theorem lookupEntry_eq_none_iff {entries : List (String × α)} :
    lookupEntry key entries = none ↔ key ∉ entries.map (·.1) := by
  constructor
  · intro hnone hmem
    have hsome := lookupEntry_isSome_of_mem hmem
    rw [hnone] at hsome
    cases hsome
  · intro hnot
    cases hfound : lookupEntry key entries with
    | none => rfl
    | some value => exact absurd (List.mem_map_of_mem (f := (·.1)) (mem_of_lookupEntry hfound)) hnot

/-- What stands in a list whose keys are different is found there. -/
theorem lookupEntry_eq_some {entries : List (String × α)} (hdistinct : (entries.map (·.1)).Nodup)
    {entry : String × α} (hmem : entry ∈ entries) : lookupEntry entry.1 entries = some entry.2 := by
  induction entries with
  | nil => cases hmem
  | cons head rest ih =>
      obtain ⟨hnot, hdistinct⟩ := List.nodup_cons.mp hdistinct
      rw [lookupEntry]
      rcases List.mem_cons.mp hmem with rfl | hrest
      · exact if_pos rfl
      · have hne : head.1 ≠ entry.1 := fun hkey =>
          hnot (List.mem_map.mpr ⟨entry, hrest, hkey.symm⟩)
        rw [if_neg hne]
        exact ih hdistinct hrest

/-- Lists with the same keys have something under the same keys. -/
theorem exists_lookupEntry_of_keys {entries : List (String × α)} {others : List (String × β)}
    (hkeys : entries.map (·.1) = others.map (·.1)) {value : α}
    (hfound : lookupEntry key entries = some value) :
    ∃ other, lookupEntry key others = some other := by
  cases hother : lookupEntry key others with
  | some other => exact ⟨other, rfl⟩
  | none =>
      rw [lookupEntry_eq_none_iff, ← hkeys, ← lookupEntry_eq_none_iff, hfound] at hother
      cases hother

/-- Entries that correspond one by one correspond under each key. -/
theorem forall₂_lookupEntry {R : α → β → Prop} {entries : List (String × α)}
    {others : List (String × β)}
    (hall : List.Forall₂ (fun entry other => other.1 = entry.1 ∧ R entry.2 other.2) entries others)
    {value : α} {other : β} (hfound : lookupEntry key entries = some value)
    (hother : lookupEntry key others = some other) : R value other := by
  induction hall with
  | nil => cases hfound
  | cons hhead _ ih =>
      rw [lookupEntry] at hfound hother
      rw [hhead.1] at hother
      split at hfound
      · rename_i hkey
        rw [if_pos hkey] at hother
        obtain rfl := Option.some.inj hfound
        obtain rfl := Option.some.inj hother
        exact hhead.2
      · rename_i hkey
        rw [if_neg hkey] at hother
        exact ih hfound hother

theorem forall₂_keys {R : α → β → Prop} {entries : List (String × α)} {others : List (String × β)}
    (hall : List.Forall₂ (fun entry other => other.1 = entry.1 ∧ R entry.2 other.2) entries others) :
    others.map (·.1) = entries.map (·.1) := by
  induction hall with
  | nil => rfl
  | cons hhead _ ih => rw [List.map_cons, List.map_cons, hhead.1, ih]

/-- A list of entries is told by its keys and what stands under them. -/
theorem eq_of_keys_of_lookupEntry {entries others : List (String × α)}
    (hkeys : entries.map (·.1) = others.map (·.1)) (hdistinct : (entries.map (·.1)).Nodup)
    (hsame : ∀ key value other, lookupEntry key entries = some value →
      lookupEntry key others = some other → value = other) : entries = others := by
  induction entries generalizing others with
  | nil => exact (List.map_eq_nil_iff.mp hkeys.symm).symm
  | cons entry rest ih =>
      cases others with
      | nil => cases hkeys
      | cons other more =>
          obtain ⟨hkey, hrest⟩ := List.cons.inj hkeys
          obtain ⟨hnot, hdistinct⟩ := List.nodup_cons.mp hdistinct
          have hvalue : entry.2 = other.2 :=
            hsame entry.1 _ _ (by rw [lookupEntry, if_pos rfl]) (by rw [lookupEntry, if_pos hkey.symm])
          refine congrArg₂ List.cons (Prod.ext hkey hvalue) (ih hrest hdistinct ?_)
          intro key value value' hfound hfound'
          have hne : entry.1 ≠ key := by
            rintro rfl
            exact hnot (List.mem_map_of_mem (f := (·.1)) (mem_of_lookupEntry hfound))
          exact hsame key _ _ (by rwa [lookupEntry, if_neg hne])
            (by rwa [lookupEntry, if_neg (fun heq => hne (hkey.trans heq))])

end Entries

/-! ## Entries in key order -/

namespace KeysIncrease

variable {α β : Type} {entries : List (String × α)} {others : List (String × β)}

theorem map (hordered : KeysIncrease entries) (f : α → β) :
    KeysIncrease (entries.map (fun entry => (entry.1, f entry.2))) := by
  unfold KeysIncrease
  rw [List.pairwise_map]
  exact hordered

theorem pairwise_keys (hordered : KeysIncrease entries) : (entries.map (·.1)).Pairwise (· < ·) :=
  List.pairwise_map.mpr hordered

theorem nodup_keys (hordered : KeysIncrease entries) : (entries.map (·.1)).Nodup := by
  refine hordered.pairwise_keys.imp (fun hlt => ?_)
  rintro rfl
  exact String.lt_irrefl _ hlt

/-- The same keys are listed in the same order. -/
theorem keys_eq (hordered : KeysIncrease entries) (hordered' : KeysIncrease others)
    (hkeys : ∀ key, key ∈ entries.map (·.1) ↔ key ∈ others.map (·.1)) :
    entries.map (·.1) = others.map (·.1) := by
  refine List.Perm.eq_of_pairwise ?_ hordered.pairwise_keys hordered'.pairwise_keys
    ((List.perm_ext_iff_of_nodup hordered.nodup_keys hordered'.nodup_keys).mpr hkeys)
  intro one other _ _ hlt hlt'
  exact absurd (String.lt_trans hlt hlt') (String.lt_irrefl one)

/-- Entries in key order are told by what stands under each key. -/
theorem eq_of_lookupEntry {others : List (String × α)} (hordered : KeysIncrease entries)
    (hordered' : KeysIncrease others)
    (hsame : ∀ key, lookupEntry key entries = lookupEntry key others) : entries = others := by
  have hkeys : entries.map (·.1) = others.map (·.1) := by
    refine hordered.keys_eq hordered' (fun key => ?_)
    rw [← not_iff_not, ← lookupEntry_eq_none_iff, ← lookupEntry_eq_none_iff, hsame]
  refine eq_of_keys_of_lookupEntry hkeys hordered.nodup_keys (fun key value other hfound hfound' => ?_)
  rw [hsame, hfound'] at hfound
  exact (Option.some.inj hfound).symm

end KeysIncrease

namespace Table

variable {α β : Type}

/-- Tables with the same entries are the same. -/
theorem ext_entries {table table' : Table α} (hentries : table.entries = table'.entries) :
    table = table' := by
  cases table
  cases table'
  congr

/-- Tables are told by what is found under each key. -/
theorem ext_find? {table table' : Table α} (hsame : ∀ key, table.find? key = table'.find? key) :
    table = table' :=
  ext_entries (table.ordered.eq_of_lookupEntry table'.ordered hsame)

theorem mem_keys_of_find? {table : Table α} {key : String} {value : α}
    (hfound : table.find? key = some value) : key ∈ table.keys :=
  List.mem_map_of_mem (f := (·.1)) (mem_of_lookupEntry hfound)

theorem mem_keys_iff {table : Table α} {key : String} :
    key ∈ table.keys ↔ (table.find? key).isSome := by
  refine ⟨lookupEntry_isSome_of_mem, fun hfound => ?_⟩
  obtain ⟨value, hvalue⟩ := Option.isSome_iff_exists.mp hfound
  exact mem_keys_of_find? hvalue

/-- Looking up a key after an insertion. -/
theorem find?_insert (table : Table α) (key other : String) (value : α) :
    (table.insert key value).find? other =
      if other = key then some value else table.find? other := by
  by_cases hkey : other = key
  · rw [hkey, if_pos rfl, find?_insert_self]
  · rw [if_neg hkey, find?_insert_ne _ hkey]

/-- Looking up a key after a removal. -/
theorem find?_erase (table : Table α) (key other : String) :
    (table.erase key).find? other = if other = key then none else table.find? other := by
  show lookupEntry other (table.entries.filter (fun entry => entry.1 ≠ key)) =
    if other = key then none else lookupEntry other table.entries
  induction table.entries with
  | nil => exact (ite_self none).symm
  | cons entry rest ih =>
      rw [List.filter_cons, lookupEntry]
      by_cases hentry : entry.1 = key
      · rw [if_neg (by simpa using hentry), ih]
        by_cases hother : other = key
        · rw [if_pos hother, if_pos hother]
        · rw [if_neg hother, if_neg hother, if_neg (by rw [hentry]; exact Ne.symm hother)]
      · rw [if_pos (by simpa using hentry), lookupEntry, ih]
        by_cases hother : other = key
        · rw [if_pos hother, if_pos hother, if_neg (by rw [hother]; exact hentry)]
        · rw [if_neg hother, if_neg hother]

theorem mem_keys_insert {table : Table α} {key other : String} {value : α} :
    other ∈ (table.insert key value).keys ↔ other = key ∨ other ∈ table.keys := by
  rw [mem_keys_iff, mem_keys_iff, find?_insert]
  split
  · rename_i hkey
    exact iff_of_true rfl (.inl hkey)
  · rename_i hkey
    exact (or_iff_right hkey).symm

/-- The keys of a table made of a list are those of the list. -/
theorem mem_keys_ofList {entries : List (String × α)} {key : String} :
    key ∈ (ofList entries).keys ↔ key ∈ entries.map (·.1) := by
  -- entry by entry, whatever the table holds before
  have hfold : ∀ table : Table α,
      key ∈ (entries.foldl (fun table entry => table.insert entry.1 entry.2) table).keys ↔
        key ∈ table.keys ∨ key ∈ entries.map (·.1) := by
    induction entries with
    | nil => simp
    | cons entry rest ih =>
        intro table
        rw [List.foldl_cons, ih, mem_keys_insert, List.map_cons, List.mem_cons]
        tauto
  rw [ofList, hfold empty]
  exact or_iff_right List.not_mem_nil

/-- Keys are listed in order, each once. -/
theorem pairwise_keys (table : Table α) : table.keys.Pairwise (· < ·) :=
  table.ordered.pairwise_keys

theorem nodup_keys (table : Table α) : table.keys.Nodup :=
  table.ordered.nodup_keys

/-- In the table of a list whose keys are different stands what stands in the list. -/
theorem find?_ofList {entries : List (String × α)} (hdistinct : (entries.map (·.1)).Nodup)
    (key : String) : (ofList entries).find? key = lookupEntry key entries := by
  -- entry by entry, whatever the table holds before
  have hfold : ∀ table : Table α,
      (entries.foldl (fun table entry => table.insert entry.1 entry.2) table).find? key =
        (lookupEntry key entries).or (table.find? key) := by
    induction entries with
    | nil => exact fun _ => rfl
    | cons entry rest ih =>
        intro table
        obtain ⟨hnot, hdistinct⟩ := List.nodup_cons.mp hdistinct
        rw [List.foldl_cons, ih hdistinct, find?_insert, lookupEntry]
        by_cases hkey : entry.1 = key
        · rw [if_pos hkey.symm, if_pos hkey, lookupEntry_eq_none_iff.mpr (hkey ▸ hnot)]
          rfl
        · rw [if_neg (Ne.symm hkey), if_neg hkey]
  rw [ofList, hfold empty]
  exact Option.or_none

/-- A list in key order is the list of entries of its table. -/
theorem entries_ofList {entries : List (String × α)} (hordered : KeysIncrease entries) :
    (ofList entries).entries = entries :=
  (ofList entries).ordered.eq_of_lookupEntry hordered (find?_ofList hordered.nodup_keys)

/-- The table of a list has no other entries than the list. -/
theorem mem_of_mem_entries_ofList {entries : List (String × α)} {entry : String × α}
    (hmem : entry ∈ (ofList entries).entries) : entry ∈ entries := by
  -- entry by entry, whatever the table holds before
  have hfold : ∀ table : Table α,
      entry ∈ (entries.foldl (fun table entry => table.insert entry.1 entry.2) table).entries →
        entry ∈ table.entries ∨ entry ∈ entries := by
    clear hmem
    induction entries with
    | nil => exact fun _ => .inl
    | cons head rest ih =>
        intro table hmem
        rw [List.foldl_cons] at hmem
        rcases ih _ hmem with htable | hrest
        · rcases mem_insertEntry htable with rfl | htable
          · exact .inr List.mem_cons_self
          · exact .inl htable
        · exact .inr (List.mem_cons_of_mem _ hrest)
  rcases hfold empty hmem with hempty | hmem
  · cases hempty
  · exact hmem

/-! ## Changed values -/

/-- The table with every value changed. -/
def map (f : α → β) (table : Table α) : Table β :=
  ⟨table.entries.map (fun entry => (entry.1, f entry.2)), table.ordered.map f⟩

@[simp] theorem map_empty (f : α → β) : map f {} = {} := rfl

theorem lookupEntry_map (f : α → β) (key : String) (entries : List (String × α)) :
    lookupEntry key (entries.map (fun entry => (entry.1, f entry.2))) =
      (lookupEntry key entries).map f := by
  induction entries with
  | nil => rfl
  | cons entry rest ih =>
      rw [List.map_cons, lookupEntry, lookupEntry]
      split
      · rfl
      · exact ih

@[simp] theorem find?_map (f : α → β) (table : Table α) (key : String) :
    (table.map f).find? key = (table.find? key).map f :=
  lookupEntry_map f key table.entries

theorem insertEntry_map (f : α → β) (key : String) (value : α) (entries : List (String × α)) :
    insertEntry key (f value) (entries.map (fun entry => (entry.1, f entry.2))) =
      (insertEntry key value entries).map (fun entry => (entry.1, f entry.2)) := by
  induction entries with
  | nil => rfl
  | cons entry rest ih =>
      rw [List.map_cons, insertEntry, insertEntry]
      split
      · rfl
      · split
        · rfl
        · rw [List.map_cons, ih]

@[simp] theorem insert_map (f : α → β) (table : Table α) (key : String) (value : α) :
    (table.map f).insert key (f value) = (table.insert key value).map f :=
  ext_entries (insertEntry_map f key value table.entries)

@[simp] theorem erase_map (f : α → β) (table : Table α) (key : String) :
    (table.map f).erase key = (table.erase key).map f := by
  refine ext_entries ?_
  show (table.entries.map _).filter _ = (table.entries.filter _).map _
  rw [List.filter_map]
  rfl

@[simp] theorem keys_map (f : α → β) (table : Table α) : (table.map f).keys = table.keys := by
  show (table.entries.map _).map _ = table.entries.map _
  rw [List.map_map]
  rfl

@[simp] theorem size_map (f : α → β) (table : Table α) : (table.map f).size = table.size :=
  List.length_map _

@[simp] theorem map_id (table : Table α) : table.map (fun value => value) = table := by
  refine ext_entries ?_
  show table.entries.map _ = table.entries
  exact List.map_id' _

end Table

end Linkage
