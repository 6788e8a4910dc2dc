import Linkage.Store.Record

/-!
# The module store

The store maps identifiers to records and caches namespaces, so that one requester always sees the
same namespace of a module.  Records, cells, objects and namespaces have identities: they are
numbered as they are made, and clearing the store forgets which records are registered but never
gives a number away twice.
-/

namespace Linkage

/-- A namespace in the cache, with the module it shows and the module that asked. -/
structure CachedNamespace where
  /-- The module shown. -/
  id : ModuleId
  /-- The module that asked. -/
  requester? : Option ModuleId
  /-- The namespace. -/
  namespace_ : Namespace
deriving DecidableEq, Repr, Inhabited

/-- Everything that modules share. -/
structure Store where
  /-- The objects. -/
  heap : Heap
  /-- The binding cells ever made. -/
  cells : Array Cell
  /-- The records ever made. -/
  records : Array Record
  /-- The records that are registered, by the text of their identifier. -/
  registry : Table RecordRef
  /-- The namespaces that are cached. -/
  namespaces : List CachedNamespace
  /-- How many namespaces have been made. -/
  issued : Nat
  /-- Nobody holds the store any more. -/
  closed : Bool
deriving Inhabited

namespace Store

/-- The store without modules. -/
def empty : Store := ⟨.empty, #[], #[], {}, [], 0, false⟩

/-- The record behind a handle. -/
def record? (store : Store) (ref : RecordRef) : Option Record :=
  store.records[ref.index]?

/-- The cell behind a handle. -/
def cell? (store : Store) (ref : CellRef) : Option Cell :=
  store.cells[ref.index]?

/-- The handle of a registered module. -/
def lookup? (store : Store) (id : ModuleId) : Option RecordRef :=
  store.registry.find? id.text

/-- The record of a registered module. -/
def find? (store : Store) (id : ModuleId) : Option Record :=
  (store.lookup? id).bind store.record?

/-- Whether a module is registered. -/
def contains (store : Store) (id : ModuleId) : Bool :=
  (store.lookup? id).isSome

/-- The registered modules, in order. -/
def ids (store : Store) : List ModuleId :=
  store.registry.keys.map ModuleId.mk

/-- Number of registered modules. -/
def size (store : Store) : Nat :=
  store.registry.size

/-- Change the record behind a handle. -/
def modify (store : Store) (ref : RecordRef) (f : Record → Record) : Store :=
  { store with records := store.records.modify ref.index f }

/-- Change the cell behind a handle. -/
def modifyCell (store : Store) (ref : CellRef) (f : Cell → Cell) : Store :=
  { store with cells := store.cells.modify ref.index f }

/-- Add a record and register its module. -/
def register (store : Store) (record : Record) : RecordRef × Store :=
  let ref : RecordRef := ⟨store.records.size⟩
  (ref, { store with
    records := store.records.push record
    registry := store.registry.insert record.id.text ref })

/-- The handle of a module, which is registered with this format if it is not there yet.  The
exports value of a legacy module is a fresh object from the start. -/
def getOrCreate (store : Store) (id : ModuleId) (format : Format) : RecordRef × Store :=
  match store.lookup? id with
  | some ref => (ref, store)
  | none => match format with
    | .modern => store.register (.modern id)
    | .legacy =>
        let (object, heap) := store.heap.alloc {}
        { store with heap }.register (.legacy id (.object object))

/-- Forget every module and every namespace. -/
def clear (store : Store) : Store :=
  { store with registry := {}, namespaces := [] }

/-- The cached namespace of a module for a requester. -/
def cached? (store : Store) (id : ModuleId) (requester? : Option ModuleId) : Option Namespace :=
  (store.namespaces.find? (fun cached => cached.id = id ∧ cached.requester? = requester?)).map
    (·.namespace_)

/-- The namespace of a module for a requester, made at the first time of asking. -/
def namespace_ (store : Store) (id : ModuleId) (requester? : Option ModuleId) :
    Except ModuleError Namespace × Store :=
  match store.cached? id requester? with
  | some found => (.ok found, store)
  | none => match store.lookup? id, store.find? id with
    | some ref, some record =>
        let fresh : Namespace := ⟨store.issued, ref, record.id, record.format, requester?⟩
        (.ok fresh, { store with
          namespaces := store.namespaces ++ [⟨id, requester?, fresh⟩]
          issued := store.issued + 1 })
    | _, _ => (.error (.detached id), store)

/-- Whether a namespace still shows the module it was made for. -/
def isAttached (store : Store) (found : Namespace) : Bool :=
  !store.closed && store.lookup? found.id == some found.record

/-- A fresh cell of a record, bound there under its name. -/
def declare (store : Store) (ref : RecordRef) (owner : ModuleId) (name : String) :
    CellRef × Store :=
  let cell : CellRef := ⟨store.cells.size⟩
  let store := { store with cells := store.cells.push ⟨ref, owner, name, none⟩ }
  (cell, store.modify ref (fun record =>
    { record with environment := record.environment.insert name (.cell cell) }))

/-- Bind a name in a record. -/
def bind (store : Store) (ref : RecordRef) (name : String) (binding : Binding) : Store :=
  store.modify ref (fun record =>
    { record with environment := record.environment.insert name binding })

/-- What a name refers to in a record. -/
def binding? (store : Store) (ref : RecordRef) (name : String) : Option Binding :=
  (store.record? ref).bind (·.environment.find? name)

/-- The cell that a name refers to in a record, if a module of that identifier owns it. -/
def ownCell? (store : Store) (record : Record) (name : String) : Option CellRef :=
  match record.environment.find? name with
  | some (.cell ref) =>
      if (store.cell? ref).map (·.owner) = some record.id then some ref else none
  | _ => none

/-- Give a cell its value. -/
def writeCell (store : Store) (ref : CellRef) (value : Value) : Store :=
  store.modifyCell ref (fun cell => { cell with value? := some value })

/-- Set how far a record has come. -/
def setStatus (store : Store) (ref : RecordRef) (status : Status) : Store :=
  store.modify ref (fun record => { record with status })

/-- Read a cell: a failed owner shows its error, and what was never written cannot be read. -/
def readCell (store : Store) (ref : CellRef) : Except ModuleError Value :=
  match store.cell? ref with
  | none => .ok .undefined
  | some cell => match (store.record? cell.record).bind (·.poison?) with
    | some error => .error error
    | none => match cell.value? with
      | some value => .ok value
      | none => .error (.uninitialized cell.owner cell.name)

/-- Read the exports value of a legacy record, or a property of it, as an importer sees it. -/
def readExports (store : Store) (ref : RecordRef) (property? : Option String) :
    Except ModuleError Value :=
  match store.record? ref with
  | none => .ok .undefined
  | some record => match record.poison?, record.exports? with
    | some error, _ => .error error
    | none, none => .ok .undefined
    | none, some exports =>
        if !exports.started then
          .error (.uninitialized record.id (property?.getD "default"))
        else match property? with
          | none => .ok exports.value
          | some name => .ok (store.heap.read exports.value name)

/-- Read what a name refers to, on behalf of a requester. -/
def read (store : Store) (binding : Binding) (requester? : Option ModuleId) :
    Except ModuleError Value × Store :=
  match binding with
  | .cell ref => (store.readCell ref, store)
  | .star id =>
      let (found, store) := store.namespace_ id requester?
      (found.map .space, store)
  | .exports ref property? => (store.readExports ref property?, store)

end Store

end Linkage
