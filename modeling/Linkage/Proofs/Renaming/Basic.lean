import Linkage.Proofs.Fallible
import Linkage.Proofs.Table
import Linkage.Session.Machine
import Mathlib.Logic.Function.Basic

/-!
# New names

Objects, records, cells, namespaces and pipelines are known by numbers, and the numbers depend on
the order in which they are made.  A renaming gives each of them another number, never one to two of
them; what is said of the engine is the same under the new names.

* `Renaming` : new numbers.
* `Value.rename` and its like : a thing under its new names.
-/

namespace Linkage

/-- New numbers for all that is known by a number, each given once. -/
structure Renaming where
  /-- Of a record. -/
  record : RecordRef → RecordRef
  /-- Of a cell. -/
  cell : CellRef → CellRef
  /-- Of an object. -/
  object : ObjectRef → ObjectRef
  /-- Of a namespace. -/
  serial : Nat → Nat
  /-- Of a pipeline. -/
  ticket : Nat → Nat
  /-- Two records keep different numbers. -/
  record_injective : Function.Injective record
  /-- Two cells keep different numbers. -/
  cell_injective : Function.Injective cell
  /-- Two objects keep different numbers. -/
  object_injective : Function.Injective object
  /-- Two namespaces keep different numbers. -/
  serial_injective : Function.Injective serial
  /-- Two pipelines keep different numbers. -/
  ticket_injective : Function.Injective ticket

/-- Everything keeps its number. -/
def Renaming.same : Renaming where
  record ref := ref
  cell ref := ref
  object ref := ref
  serial number := number
  ticket number := number
  record_injective _ _ heq := heq
  cell_injective _ _ heq := heq
  object_injective _ _ heq := heq
  serial_injective _ _ heq := heq
  ticket_injective _ _ heq := heq

section Definitions

variable (names : Renaming)

/-- A namespace under new names. -/
def Namespace.rename (found : Namespace) : Namespace :=
  { found with serial := names.serial found.serial, record := names.record found.record }

/-- A value under new names. -/
def Value.rename : Value → Value
  | undefined => undefined
  | null => null
  | boolean value => boolean value
  | number value => number value
  | text value => text value
  | object ref => object (names.object ref)
  | space found => space (found.rename names)

/-- A binding under new names. -/
def Binding.rename : Binding → Binding
  | cell ref => cell (names.cell ref)
  | star id => star id
  | exports ref property? => exports (names.record ref) property?

/-- The resolution of a name under new names. -/
def Resolution.rename : Resolution → Resolution
  | found binding => found (binding.rename names)
  | missing => missing
  | ambiguous => ambiguous

/-- A cell under new names. -/
def Cell.rename (cell : Cell) : Cell :=
  { cell with record := names.record cell.record, value? := cell.value?.map (Value.rename names) }

/-- An exports value under new names. -/
def Exports.rename (exports : Exports) : Exports :=
  { exports with value := exports.value.rename names }

/-- A record under new names. -/
def Record.rename (record : Record) : Record :=
  { record with
    exports? := record.exports?.map (Exports.rename names)
    environment := record.environment.map (Binding.rename names) }

/-- A namespace in the cache under new names. -/
def CachedNamespace.rename (cached : CachedNamespace) : CachedNamespace :=
  { cached with namespace_ := cached.namespace_.rename names }

/-- A live binding under new names. -/
def LiveBinding.rename (live : LiveBinding) : LiveBinding :=
  { live with binding := live.binding.rename names }

/-- A pipeline under new names. -/
def Pipeline.rename (pipeline : Pipeline) : Pipeline :=
  { pipeline with ticket := names.ticket pipeline.ticket }

/-- A frame under new names. -/
def Frame.rename : Frame → Frame
  | pass rest => pass rest
  | settle root => settle root
  | present id requester? => present id requester?
  | exported ref => exported (names.record ref)
  | body ref rest => body (names.record ref) rest
  | assign ref name => assign (names.record ref) name
  | «attempt» => «attempt»
  | report command save? => report command save?
  | batch rest => batch (rest.map (Pipeline.rename names))
  | finish pipeline => finish (pipeline.rename names)
  | drain => drain

/-- A signal under new names. -/
def Signal.rename : Signal → Signal
  | go => go
  | .reply given => .reply (given.map (Value.rename names))

end Definitions

/-! ## What new names leave alone -/

section Kept

variable (names : Renaming) (record : Record) (value : Value)

@[simp] theorem Record.rename_id : (record.rename names).id = record.id := rfl

@[simp] theorem Record.rename_status : (record.rename names).status = record.status := rfl

@[simp] theorem Record.rename_source : (record.rename names).source? = record.source? := rfl

@[simp] theorem Record.rename_analysis : (record.rename names).analysis? = record.analysis? := rfl

@[simp] theorem Record.rename_error : (record.rename names).error? = record.error? := rfl

@[simp] theorem Record.rename_poison : (record.rename names).poison? = record.poison? := rfl

@[simp] theorem Record.rename_requested :
    (record.rename names).requested = record.requested := rfl

@[simp] theorem Record.rename_imports : (record.rename names).imports = record.imports := rfl

@[simp] theorem Record.rename_exportEntries :
    (record.rename names).exportEntries = record.exportEntries := rfl

@[simp] theorem Record.rename_exports :
    (record.rename names).exports? = record.exports?.map (Exports.rename names) := rfl

@[simp] theorem Record.rename_environment :
    (record.rename names).environment = record.environment.map (Binding.rename names) := rfl

@[simp] theorem Record.rename_format : (record.rename names).format = record.format := by
  unfold Record.format
  rw [Record.rename_exports, Option.isSome_map]

@[simp] theorem Value.rename_typeName : (value.rename names).typeName = value.typeName := by
  cases value <;> rfl

@[simp] theorem Value.rename_toNumber : (value.rename names).toNumber? = value.toNumber? := by
  cases value <;> rfl

@[simp] theorem Value.rename_toObject :
    (value.rename names).toObject? = value.toObject?.map names.object := by
  cases value <;> rfl

theorem Binding.rename_injective : Function.Injective (Binding.rename names) := by
  intro binding binding' heq
  cases binding <;> cases binding' <;> simp_all [Binding.rename]
  · exact names.cell_injective heq
  · exact names.record_injective heq.1

end Kept

/-! ## Keeping all names -/

@[simp] theorem Renaming.same_record (ref : RecordRef) : Renaming.same.record ref = ref := rfl

@[simp] theorem Renaming.same_cell (ref : CellRef) : Renaming.same.cell ref = ref := rfl

@[simp] theorem Renaming.same_object (ref : ObjectRef) : Renaming.same.object ref = ref := rfl

@[simp] theorem Namespace.rename_same (found : Namespace) : found.rename .same = found := rfl

@[simp] theorem Value.rename_same : Value.rename .same = fun value => value := by
  funext value
  cases value <;> rfl

@[simp] theorem Binding.rename_same : Binding.rename .same = fun binding => binding := by
  funext binding
  cases binding <;> rfl

@[simp] theorem Cell.rename_same : Cell.rename .same = fun cell => cell := by
  funext cell
  simp [Cell.rename]

@[simp] theorem Exports.rename_same : Exports.rename .same = fun exports => exports := by
  funext exports
  simp [Exports.rename]

@[simp] theorem Record.rename_same : Record.rename .same = fun record => record := by
  funext record
  simp [Record.rename]

@[simp] theorem CachedNamespace.rename_same :
    CachedNamespace.rename .same = fun cached => cached := rfl

@[simp] theorem LiveBinding.rename_same : LiveBinding.rename .same = fun live => live := by
  funext live
  simp [LiveBinding.rename]

@[simp] theorem Pipeline.rename_same : Pipeline.rename .same = fun pipeline => pipeline := rfl

@[simp] theorem Frame.rename_same : Frame.rename .same = fun frame => frame := by
  funext frame
  cases frame <;> simp [Frame.rename]

end Linkage
