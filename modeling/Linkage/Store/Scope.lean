import Linkage.Store.Exported

/-!
# The scope of a running body

What a body can do with the names of its own module: read any, write those it owns, and change its
exports value.  Writing a name that nothing binds declares it.  Reading through an import goes to
the module that owns the slot; no operation here writes a slot of another module.
-/

namespace Linkage

/-- A computation on a store that may fail and keeps what it changed. -/
abbrev Access (α : Type) : Type := ExceptT ModuleError (StateM Store) α

/-- An access from a function on stores. -/
def Access.of {α : Type} (f : Store → Except ModuleError α × Store) : Access α :=
  ExceptT.mk f

/-- Run an access on a store. -/
def Store.access {α : Type} (store : Store) (action : Access α) : Except ModuleError α × Store :=
  action.run.run store

/-- A binding that is kept after the body that looked it up, with the module it was kept for. -/
structure LiveBinding where
  /-- What the name referred to. -/
  binding : Binding
  /-- The module that keeps it. -/
  requester : ModuleId
deriving DecidableEq, Repr, Inhabited

namespace Scope

/-- The module that a record stands for. -/
def idOf (ref : RecordRef) : Access ModuleId := do
  return (((← get).record? ref).map (·.id)).getD default

/-- What a name refers to. -/
def lookup (ref : RecordRef) (name : String) : Access Binding := do
  match (← get).binding? ref name with
  | some binding => return binding
  | none => throw (.unresolvedName (← idOf ref) name)

/-- Read a name. -/
def read (ref : RecordRef) (name : String) : Access Value := do
  let binding ← lookup ref name
  let id ← idOf ref
  Access.of (·.read binding (some id))

/-- Write a name: a cell of the module itself, or a new one if nothing is bound. -/
def write (ref : RecordRef) (name : String) (value : Value) : Access Unit := do
  let store ← get
  let id ← idOf ref
  match store.binding? ref name with
  | some (.cell cell) =>
      if (store.cell? cell).map (·.owner) = some id then set (store.writeCell cell value)
      else throw (.immutableBinding id name)
  | some _ => throw (.immutableBinding id name)
  | none =>
      let (cell, store) := store.declare ref id name
      set (store.writeCell cell value)

/-- The exports of a legacy module. -/
def exports (ref : RecordRef) : Access Exports := do
  match ((← get).record? ref).bind (·.exports?) with
  | some exports => return exports
  | none => throw (.notLegacy (← idOf ref))

/-- Replace the exports value. -/
def replaceExports (ref : RecordRef) (value : Value) : Access Unit := do
  let found ← exports ref
  modify (·.modify ref (fun record => { record with exports? := some { found with value } }))

/-- Set a property of the exports value. -/
def exportProperty (ref : RecordRef) (name : String) (value : Value) : Access Unit := do
  match (← exports ref).value.toObject? with
  | none => throw (.invalidExports (← idOf ref) name)
  | some object => modify (fun store => { store with heap := store.heap.set object name value })

/-- Keep what a name refers to. -/
def capture (ref : RecordRef) (name : String) : Access LiveBinding := do
  return ⟨← lookup ref name, ← idOf ref⟩

/-- Bring a JSON value into the heap. -/
def literal (json : Json) : Access Value :=
  modifyGet (fun store =>
    let (value, heap) := Value.ofJson json store.heap
    (value, { store with heap }))

/-- Read a property of a value: of an object or of a namespace. -/
def property (value : Value) (name : String) : Access Value := do
  match value with
  | .space found => Access.of (·.readName found name)
  | .object ref => return (((← get).heap.get? ref name).getD .undefined)
  | other => throw (.thrown s!"TypeError: Cannot read property '{name}' of {other.typeName}")

/-- Run a statement that stays within the scope; gives what it writes to the log.  To `require`
another module is not such a statement. -/
def run (ref : RecordRef) : Statement → Access (Option String)
  | .set name value => do
      write ref name (← literal value)
      return none
  | .copy source target => do
      write ref target (← read ref source)
      return none
  | .get object name target => do
      write ref target (← property (← read ref object) name)
      return none
  | .add name amount => do
      let current := ((← read ref name).toNumber?).getD (0.0 / 0.0)
      write ref name (.number (current + amount))
      return none
  | .setDefault value => do
      write ref defaultLocal (← literal value)
      return none
  | .require _ _ => return none
  | .exportValue name value => do
      exportProperty ref name (← literal value)
      return none
  | .exportBinding name source => do
      exportProperty ref name (← read ref source)
      return none
  | .setExports value => do
      replaceExports ref (← literal value)
      return none
  | .throw text => throw (.thrown text)
  | .log name => do
      let value ← read ref name
      return some (value.toJson (← get).heap).compact

end Scope

namespace LiveBinding

/-- Read the slot behind a live binding as it is now. -/
def read (live : LiveBinding) : Access Value :=
  Access.of (·.read live.binding (some live.requester))

/-- The name by which a live binding is known when it cannot be written. -/
def nameIn (live : LiveBinding) (store : Store) : String :=
  match live.binding with
  | .cell ref => ((store.cell? ref).map (·.name)).getD ""
  | .star id => id.text
  | .exports _ property? => property?.getD "default"

/-- Write the slot behind a live binding; only the module that owns it may. -/
def write (live : LiveBinding) (value : Value) : Access Unit := do
  let store ← get
  match live.binding with
  | .cell ref =>
      if (store.cell? ref).map (·.owner) = some live.requester then
        set (store.writeCell ref value)
      else throw (.immutableBinding live.requester (live.nameIn store))
  | _ => throw (.immutableBinding live.requester (live.nameIn store))

end LiveBinding

end Linkage
