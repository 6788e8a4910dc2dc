import Linkage.Proofs.Fallible
import Linkage.Proofs.Store.Touch
import Linkage.Proofs.Table
import Linkage.Session.Machine
import Mathlib.Data.Option.Defs

/-!
# Things that are alike

Two engines that have done the same work may have given other numbers to records, cells and objects,
and may have cached other namespaces.  A pairing says which numbers of the one belong to which of the
other; things are alike if they differ in paired numbers only.  Which number a namespace has does not
matter: namespaces are alike if they show paired records to one requester.  A pairing need not pair
everything, and it says for which modules the two engines are compared.

* `Pairing` : paired numbers.
* `Value.Alike` and its like : things that differ in paired numbers only.
* `Pairing.same` : everything is paired with itself.
-/

namespace Linkage

/-- Which numbers of one engine belong to which of another. -/
structure Pairing where
  /-- Records that belong together. -/
  record : RecordRef → RecordRef → Prop
  /-- Cells that belong together. -/
  cell : CellRef → CellRef → Prop
  /-- Objects that belong together. -/
  object : ObjectRef → ObjectRef → Prop
  /-- The modules that are compared. -/
  covers : ModuleId → Prop
  /-- A record has one partner. -/
  record_iff : ∀ {one one' other other'}, record one one' → record other other' →
    (one = other ↔ one' = other')
  /-- A cell has one partner. -/
  cell_iff : ∀ {one one' other other'}, cell one one' → cell other other' →
    (one = other ↔ one' = other')
  /-- An object has one partner. -/
  object_iff : ∀ {one one' other other'}, object one one' → object other other' →
    (one = other ↔ one' = other')

/-- Everything is paired with itself, and all modules are compared. -/
def Pairing.same : Pairing where
  record := Eq
  cell := Eq
  object := Eq
  covers _ := True
  record_iff := by
    rintro _ _ _ _ rfl rfl
    exact Iff.rfl
  cell_iff := by
    rintro _ _ _ _ rfl rfl
    exact Iff.rfl
  object_iff := by
    rintro _ _ _ _ rfl rfl
    exact Iff.rfl

/-! ## Options and tables -/

section Options

variable {α β γ δ : Type} {R : α → β → Prop} {S : γ → δ → Prop}

/-- Two options that correspond are both nothing, or both hold something. -/
theorem rel_cases {value? : Option α} {value'? : Option β} (hrel : Option.Rel R value? value'?) :
    (value? = none ∧ value'? = none) ∨
      ∃ value value', value? = some value ∧ value'? = some value' ∧ R value value' := by
  cases hrel with
  | none => exact .inl ⟨rfl, rfl⟩
  | some hvalue => exact .inr ⟨_, _, rfl, rfl, hvalue⟩

theorem rel_map {value? : Option α} {value'? : Option β} {f : α → γ} {f' : β → δ}
    (hrel : Option.Rel R value? value'?)
    (hsame : ∀ value value', R value value' → S (f value) (f' value')) :
    Option.Rel S (value?.map f) (value'?.map f') := by
  cases hrel with
  | none => exact .none
  | some hvalue => exact .some (hsame _ _ hvalue)

theorem rel_bind {value? : Option α} {value'? : Option β} {f : α → Option γ} {f' : β → Option δ}
    (hrel : Option.Rel R value? value'?)
    (hsame : ∀ value value', R value value' → Option.Rel S (f value) (f' value')) :
    Option.Rel S (value?.bind f) (value'?.bind f') := by
  cases hrel with
  | none => exact .none
  | some hvalue => exact hsame _ _ hvalue

/-- What does not look at the difference gives the same. -/
theorem rel_map_eq {value? : Option α} {value'? : Option β} {f : α → γ} {f' : β → γ}
    (hrel : Option.Rel R value? value'?)
    (hsame : ∀ value value', R value value' → f value = f' value') :
    value?.map f = value'?.map f' := by
  cases hrel with
  | none => rfl
  | some hvalue => exact congrArg some (hsame _ _ hvalue)

theorem rel_bind_eq {value? : Option α} {value'? : Option β} {f : α → Option γ}
    {f' : β → Option γ} (hrel : Option.Rel R value? value'?)
    (hsame : ∀ value value', R value value' → f value = f' value') :
    value?.bind f = value'?.bind f' := by
  cases hrel with
  | none => rfl
  | some hvalue => exact hsame _ _ hvalue

theorem rel_refl {R : α → α → Prop} (hrefl : ∀ value, R value value) (value? : Option α) :
    Option.Rel R value? value? := by
  cases value? with
  | none => exact .none
  | some value => exact .some (hrefl value)

theorem rel_isSome {value? : Option α} {value'? : Option β} (hrel : Option.Rel R value? value'?) :
    value?.isSome = value'?.isSome := by
  cases hrel <;> rfl

theorem rel_some {value? : Option α} {value'? : Option β} {value : α}
    (hrel : Option.Rel R value? value'?) (hvalue : value? = some value) :
    ∃ value', value'? = some value' ∧ R value value' := by
  cases hrel with
  | none => cases hvalue
  | some hrel =>
      obtain rfl := Option.some.inj hvalue
      exact ⟨_, rfl, hrel⟩

end Options

/-- Two tables have the same keys, and what stands under one key corresponds. -/
def Table.Alike {α β : Type} (R : α → β → Prop) (table : Table α) (table' : Table β) : Prop :=
  ∀ key, Option.Rel R (table.find? key) (table'.find? key)

namespace Table

variable {α β : Type} {R : α → β → Prop} {table : Table α} {table' : Table β}

theorem alike_empty : Alike R {} {} := fun _ => .none

theorem Alike.insert (halike : table.Alike R table') (key : String) {value : α} {value' : β}
    (hvalue : R value value') : (table.insert key value).Alike R (table'.insert key value') := by
  intro other
  rw [find?_insert, find?_insert]
  split
  · exact .some hvalue
  · exact halike other

theorem alike_refl {R : α → α → Prop} (hrefl : ∀ value, R value value) (table : Table α) :
    table.Alike R table :=
  fun key => rel_refl hrefl (table.find? key)

/-- Two tables with the same keys list them alike. -/
theorem keys_eq {table : Table α} {table' : Table β}
    (hsame : ∀ key, key ∈ table.keys ↔ key ∈ table'.keys) : table.keys = table'.keys := by
  have hnodup : ∀ {γ : Type} (table : Table γ), table.keys.Nodup := fun table =>
    table.pairwise_keys.imp (fun hlt heq => absurd (heq ▸ hlt) (String.lt_irrefl _))
  have hperm : table.keys.Perm table'.keys :=
    (List.perm_ext_iff_of_nodup (hnodup table) (hnodup table')).mpr hsame
  refine hperm.eq_of_pairwise (fun one other _ _ hlt hgt => ?_) table.pairwise_keys
    table'.pairwise_keys
  exact absurd (String.lt_trans hlt hgt) (String.lt_irrefl _)

theorem Alike.keys (halike : table.Alike R table') : table.keys = table'.keys := by
  refine keys_eq (fun key => ?_)
  rw [mem_keys_iff, mem_keys_iff, rel_isSome (halike key)]

theorem Alike.size (halike : table.Alike R table') : table.size = table'.size := by
  have hkeys := congrArg List.length halike.keys
  rwa [Table.keys, Table.keys, List.length_map, List.length_map] at hkeys

end Table

/-! ## Things -/

section Definitions

variable (pairing : Pairing)

/-- Two namespaces show paired records of one module to one requester. -/
structure Namespace.Alike (found found' : Namespace) : Prop where
  record : pairing.record found.record found'.record
  id : found.id = found'.id
  requester : found.requester? = found'.requester?
  covered : pairing.covers found.id

/-- Two values are alike. -/
inductive Value.Alike : Value → Value → Prop
  | undefined : Value.Alike .undefined .undefined
  | null : Value.Alike .null .null
  | boolean (value : Bool) : Value.Alike (.boolean value) (.boolean value)
  | number (value : Float) : Value.Alike (.number value) (.number value)
  | text (value : String) : Value.Alike (.text value) (.text value)
  | object {ref ref' : ObjectRef} (href : pairing.object ref ref') :
      Value.Alike (.object ref) (.object ref')
  | space {found found' : Namespace} (hfound : found.Alike pairing found') :
      Value.Alike (.space found) (.space found')

/-- Two names refer to paired things. -/
inductive Binding.Alike : Binding → Binding → Prop
  | cell {ref ref' : CellRef} (href : pairing.cell ref ref') :
      Binding.Alike (.cell ref) (.cell ref')
  | star {id : ModuleId} (hcovered : pairing.covers id) : Binding.Alike (.star id) (.star id)
  | exports {ref ref' : RecordRef} (href : pairing.record ref ref') (property? : Option String) :
      Binding.Alike (.exports ref property?) (.exports ref' property?)

/-- Two names lead to the same, if anywhere. -/
inductive Resolution.Alike : Resolution → Resolution → Prop
  | found {binding binding' : Binding} (hbinding : binding.Alike pairing binding') :
      Resolution.Alike (.found binding) (.found binding')
  | missing : Resolution.Alike .missing .missing
  | ambiguous : Resolution.Alike .ambiguous .ambiguous

/-- Two cells hold the same. -/
structure Cell.Alike (cell cell' : Cell) : Prop where
  record : pairing.record cell.record cell'.record
  owner : cell.owner = cell'.owner
  name : cell.name = cell'.name
  value : Option.Rel (Value.Alike pairing) cell.value? cell'.value?

/-- Two exports values are alike. -/
structure Exports.Alike (exports exports' : Exports) : Prop where
  value : exports.value.Alike pairing exports'.value
  started : exports.started = exports'.started

/-- Two records say the same of one module, and it re-exports only from modules that are
compared. -/
structure Record.Alike (record record' : Record) : Prop where
  id : record.id = record'.id
  status : record.status = record'.status
  source : record.source? = record'.source?
  analysis : record.analysis? = record'.analysis?
  error : record.error? = record'.error?
  poison : record.poison? = record'.poison?
  exports : Option.Rel (Exports.Alike pairing) record.exports? record'.exports?
  environment : record.environment.Alike (Binding.Alike pairing) record'.environment
  covered : ∀ entry ∈ record.exportEntries, ∀ source, entry.source? = some source →
    pairing.covers source

/-- Two live bindings are of the same slot. -/
structure LiveBinding.Alike (live live' : LiveBinding) : Prop where
  binding : live.binding.Alike pairing live'.binding
  requester : live.requester = live'.requester

end Definitions

variable {pairing : Pairing}

namespace Value.Alike

variable {value value' : Value}

theorem typeName (halike : value.Alike pairing value') : value.typeName = value'.typeName := by
  cases halike <;> rfl

theorem toNumber (halike : value.Alike pairing value') : value.toNumber? = value'.toNumber? := by
  cases halike <;> rfl

theorem toObject (halike : value.Alike pairing value') :
    Option.Rel pairing.object value.toObject? value'.toObject? := by
  cases halike with
  | object href => exact .some href
  | _ => exact .none

end Value.Alike

/-- A name has one partner. -/
theorem Binding.alike_iff {one one' other other' : Binding} (hone : one.Alike pairing one')
    (hother : other.Alike pairing other') : one = other ↔ one' = other' := by
  cases hone <;> cases hother <;> simp
  · exact pairing.cell_iff ‹_› ‹_›
  · intro _
    exact pairing.record_iff ‹_› ‹_›

namespace Record.Alike

variable {record record' : Record}

theorem format (halike : record.Alike pairing record') : record.format = record'.format := by
  unfold Record.format
  rw [rel_isSome halike.exports]

theorem requested (halike : record.Alike pairing record') :
    record.requested = record'.requested := by
  unfold Record.requested
  rw [halike.analysis]

theorem imports (halike : record.Alike pairing record') : record.imports = record'.imports := by
  unfold Record.imports
  rw [halike.analysis]

theorem exportEntries (halike : record.Alike pairing record') :
    record.exportEntries = record'.exportEntries := by
  unfold Record.exportEntries
  rw [halike.analysis]

end Record.Alike

/-! ## Everything is like itself -/

section Same

theorem Namespace.alike_same (found : Namespace) : found.Alike .same found :=
  ⟨rfl, rfl, rfl, trivial⟩

theorem Value.alike_same (value : Value) : value.Alike .same value := by
  cases value with
  | undefined => exact .undefined
  | null => exact .null
  | boolean value => exact .boolean value
  | number value => exact .number value
  | text value => exact .text value
  | object ref => exact .object rfl
  | space found => exact .space found.alike_same

theorem Binding.alike_same (binding : Binding) : binding.Alike .same binding := by
  cases binding with
  | cell ref => exact .cell rfl
  | star id => exact .star trivial
  | exports ref property? => exact .exports rfl property?

theorem Cell.alike_same (cell : Cell) : cell.Alike .same cell :=
  ⟨rfl, rfl, rfl, rel_refl Value.alike_same cell.value?⟩

theorem Exports.alike_same (exports : Exports) : exports.Alike .same exports :=
  ⟨exports.value.alike_same, rfl⟩

theorem Record.alike_same (record : Record) : record.Alike .same record :=
  ⟨rfl, rfl, rfl, rfl, rfl, rfl, rel_refl Exports.alike_same record.exports?,
    Table.alike_refl Binding.alike_same record.environment, fun _ _ _ _ => trivial⟩

theorem LiveBinding.alike_same (live : LiveBinding) : live.Alike .same live :=
  ⟨live.binding.alike_same, rfl⟩

end Same

end Linkage
