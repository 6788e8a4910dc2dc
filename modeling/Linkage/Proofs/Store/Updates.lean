import Linkage.Proofs.Table
import Linkage.Store.Basic

/-!
# Looking things up

`Store.Registered` says which record a module has, `Store.OwnsCell` which cell a record owns under a
local name.  Both are what `lookup?`, `find?` and `ownCell?` compute.  There is one equation for each
pair of an operation that changes the store and a way to look something up.
-/

namespace Linkage.Store

/-! ## Registered modules and their cells -/

/-- A module is registered, with this record behind this handle. -/
structure Registered (store : Store) (id : ModuleId) (ref : RecordRef) (record : Record) :
    Prop where
  /-- The handle under which the module is registered. -/
  lookup : store.lookup? id = some ref
  /-- The record behind the handle. -/
  record : store.record? ref = some record

theorem Registered.find {store : Store} {id : ModuleId} {ref : RecordRef} {record : Record}
    (hregistered : store.Registered id ref record) : store.find? id = some record := by
  simp [find?, hregistered.lookup, hregistered.record]

theorem exists_registered_of_find {store : Store} {id : ModuleId} {record : Record}
    (hfind : store.find? id = some record) : ∃ ref, store.Registered id ref record := by
  unfold find? at hfind
  obtain ⟨ref, hlookup, hrecord⟩ := Option.bind_eq_some_iff.mp hfind
  exact ⟨ref, hlookup, hrecord⟩

/-- A module has at most one record. -/
theorem Registered.unique {store : Store} {id : ModuleId} {ref ref' : RecordRef}
    {record record' : Record} (hregistered : store.Registered id ref record)
    (hregistered' : store.Registered id ref' record') : ref' = ref ∧ record' = record := by
  obtain rfl : ref' = ref :=
    Option.some.inj (hregistered'.lookup.symm.trans hregistered.lookup)
  exact ⟨rfl, Option.some.inj (hregistered'.record.symm.trans hregistered.record)⟩

/-- There are as many identifiers as modules. -/
theorem length_ids (store : Store) : store.ids.length = store.size := by
  simp [ids, size, Table.keys, Table.size]

/-- A registered module is listed among the identifiers of the store. -/
theorem Registered.mem_ids {store : Store} {id : ModuleId} {ref : RecordRef} {record : Record}
    (hregistered : store.Registered id ref record) : id ∈ store.ids := by
  unfold ids
  exact List.mem_map.mpr ⟨id.text, Table.mem_keys_of_find? hregistered.lookup, rfl⟩

/-- A local name of a record refers to a cell that the module itself owns. -/
def OwnsCell (store : Store) (record : Record) (name : String) (ref : CellRef) : Prop :=
  record.environment.find? name = some (.cell ref) ∧
    ∃ cell, store.cell? ref = some cell ∧ cell.owner = record.id

theorem ownCell?_eq_some_iff {store : Store} {record : Record} {name : String} {ref : CellRef} :
    store.ownCell? record name = some ref ↔ store.OwnsCell record name ref := by
  unfold ownCell? OwnsCell
  constructor
  · intro hcell
    split at hcell
    · rename_i found hbound
      split at hcell
      · rename_i howner
        obtain rfl : found = ref := by simpa using hcell
        obtain ⟨cell, hfound, hid⟩ := Option.map_eq_some_iff.mp howner
        exact ⟨hbound, cell, hfound, hid⟩
      · simp at hcell
    · simp at hcell
  · rintro ⟨hbound, cell, hfound, hid⟩
    simp [hbound, hfound, hid]

/-! ## After a change -/

variable {store : Store}

@[simp] theorem record?_heap (heap : Heap) (ref : RecordRef) :
    record? { store with heap } ref = store.record? ref := rfl

@[simp] theorem lookup?_heap (heap : Heap) (id : ModuleId) :
    lookup? { store with heap } id = store.lookup? id := rfl

@[simp] theorem cell?_heap (heap : Heap) (ref : CellRef) :
    cell? { store with heap } ref = store.cell? ref := rfl

theorem record?_modify (ref other : RecordRef) (f : Record → Record) :
    (store.modify ref f).record? other =
      if other = ref then (store.record? other).map f else store.record? other := by
  unfold modify record?
  rw [Array.getElem?_modify]
  by_cases href : ref.index = other.index
  · have hsame : other = ref := by cases ref; cases other; simp_all
    rw [if_pos href, if_pos hsame]
  · have hother : other ≠ ref := fun hsame => href (by rw [hsame])
    rw [if_neg href, if_neg hother]

theorem record?_modify_self {ref : RecordRef} {record : Record} (f : Record → Record)
    (hrecord : store.record? ref = some record) :
    (store.modify ref f).record? ref = some (f record) := by
  rw [record?_modify, if_pos rfl, hrecord, Option.map_some]

theorem record?_modify_ne {ref other : RecordRef} (hne : other ≠ ref) (f : Record → Record) :
    (store.modify ref f).record? other = store.record? other := by
  rw [record?_modify, if_neg hne]

/-- Only what a change does to the record it is made to matters. -/
theorem modify_congr {ref : RecordRef} {f g : Record → Record}
    (hsame : ∀ record, store.record? ref = some record → f record = g record) :
    store.modify ref f = store.modify ref g := by
  unfold modify
  congr 1
  apply Array.ext_getElem?
  intro index
  rw [Array.getElem?_modify, Array.getElem?_modify]
  split
  · rename_i hindex
    subst hindex
    cases hrecord : store.records[ref.index]? with
    | none => rfl
    | some record => rw [Option.map_some, Option.map_some, hsame record hrecord]
  · rfl

@[simp] theorem lookup?_modify (ref : RecordRef) (f : Record → Record) (id : ModuleId) :
    (store.modify ref f).lookup? id = store.lookup? id := rfl

@[simp] theorem cell?_modify (ref : RecordRef) (f : Record → Record) (cell : CellRef) :
    (store.modify ref f).cell? cell = store.cell? cell := rfl

@[simp] theorem record?_writeCell (cell : CellRef) (value : Value) (ref : RecordRef) :
    (store.writeCell cell value).record? ref = store.record? ref := rfl

@[simp] theorem lookup?_writeCell (cell : CellRef) (value : Value) (id : ModuleId) :
    (store.writeCell cell value).lookup? id = store.lookup? id := rfl

theorem cell?_writeCell (ref other : CellRef) (value : Value) :
    (store.writeCell ref value).cell? other =
      if other = ref then (store.cell? other).map (fun cell => { cell with value? := some value })
      else store.cell? other := by
  unfold writeCell modifyCell cell?
  rw [Array.getElem?_modify]
  by_cases href : ref.index = other.index
  · have hsame : other = ref := by cases ref; cases other; simp_all
    rw [if_pos href, if_pos hsame]
  · have hother : other ≠ ref := fun hsame => href (by rw [hsame])
    rw [if_neg href, if_neg hother]

/-! ## Fresh cells -/

@[simp] theorem lookup?_declare (ref : RecordRef) (owner : ModuleId) (name : String)
    (id : ModuleId) : (store.declare ref owner name).2.lookup? id = store.lookup? id := rfl

theorem record?_declare (ref other : RecordRef) (owner : ModuleId) (name : String) :
    (store.declare ref owner name).2.record? other =
      if other = ref then (store.record? other).map (fun record =>
        { record with environment := record.environment.insert name (.cell ⟨store.cells.size⟩) })
      else store.record? other := by
  unfold declare
  rw [record?_modify]
  rfl

theorem cell?_declare (ref : RecordRef) (owner : ModuleId) (name : String) (cell : CellRef) :
    (store.declare ref owner name).2.cell? cell =
      if cell.index = store.cells.size then some ⟨ref, owner, name, none⟩
      else store.cell? cell := by
  unfold declare
  simp only [cell?_modify]
  unfold cell?
  rw [Array.getElem?_push]

/-- A cell that exists is not the fresh one. -/
theorem cell?_declare_of_cell {ref : RecordRef} {owner : ModuleId} {name : String} {cell : CellRef}
    {found : Cell} (hcell : store.cell? cell = some found) :
    (store.declare ref owner name).2.cell? cell = some found := by
  rw [cell?_declare]
  have hlt : cell.index < store.cells.size := (Array.getElem?_eq_some_iff.mp hcell).1
  rw [if_neg (Nat.ne_of_lt hlt), hcell]

/-! ## Fresh records -/

@[simp] theorem cell?_register (record : Record) (cell : CellRef) :
    (store.register record).2.cell? cell = store.cell? cell := rfl

theorem record?_register (record : Record) (ref : RecordRef) :
    (store.register record).2.record? ref =
      if ref.index = store.records.size then some record else store.record? ref := by
  unfold register record?
  rw [Array.getElem?_push]

/-- A record that exists is not the fresh one. -/
theorem record?_register_of_record {record found : Record} {ref : RecordRef}
    (hrecord : store.record? ref = some found) :
    (store.register record).2.record? ref = some found := by
  rw [record?_register]
  have hlt : ref.index < store.records.size := (Array.getElem?_eq_some_iff.mp hrecord).1
  rw [if_neg (Nat.ne_of_lt hlt), hrecord]

theorem lookup?_register (record : Record) (id : ModuleId) :
    (store.register record).2.lookup? id =
      if id = record.id then some ⟨store.records.size⟩ else store.lookup? id := by
  unfold register lookup?
  rw [Table.find?_insert]
  by_cases hid : id = record.id
  · rw [if_pos hid, if_pos (congrArg ModuleId.text hid)]
  · have htext : id.text ≠ record.id.text := by
      intro htext
      exact hid (by cases id; cases hrecord : record.id; simp_all)
    rw [if_neg hid, if_neg htext]

@[simp] theorem record?_namespace_ (id : ModuleId) (requester? : Option ModuleId)
    (ref : RecordRef) :
    (store.namespace_ id requester?).2.record? ref = store.record? ref := by
  unfold namespace_
  split
  · rfl
  · split <;> rfl

@[simp] theorem lookup?_namespace_ (id other : ModuleId) (requester? : Option ModuleId) :
    (store.namespace_ id requester?).2.lookup? other = store.lookup? other := by
  unfold namespace_
  split
  · rfl
  · split <;> rfl

@[simp] theorem cell?_namespace_ (id : ModuleId) (requester? : Option ModuleId)
    (cell : CellRef) : (store.namespace_ id requester?).2.cell? cell = store.cell? cell := by
  unfold namespace_
  split
  · rfl
  · split <;> rfl

/-! ## Forgetting everything -/

@[simp] theorem record?_clear (ref : RecordRef) : store.clear.record? ref = store.record? ref :=
  rfl

@[simp] theorem cell?_clear (cell : CellRef) : store.clear.cell? cell = store.cell? cell := rfl

@[simp] theorem lookup?_clear (id : ModuleId) : store.clear.lookup? id = none := rfl

end Linkage.Store
