import Linkage.Store.Exported

/-!
# Linking

Linking takes the modern modules of a graph that are not linked yet.  First each gets a cell for
every local name it exports, then every import is bound to what its name leads to, and every
re-export by name is tried.  If one of them leads nowhere or is ambiguous, all modules taken are put
back as they were.
-/

namespace Linkage.Store

/-- The records of an order that have to be linked. -/
def pendingLinks (store : Store) (order : List ModuleId) : List RecordRef :=
  (order.filterMap store.lookup?).filter (fun ref => match store.record? ref with
    | some record => record.format = .modern ∧ record.status = .unlinked
    | none => false)

/-- Begin to link a record: an empty environment, then a cell for every local name exported. -/
def beginLink (store : Store) (ref : RecordRef) : Store :=
  match store.record? ref with
  | none => store
  | some record =>
      let store := store.modify ref (fun record =>
        { record with status := .linking, environment := {} })
      record.exportEntries.foldl (fun store entry => match entry with
        | .own _ name => match (store.record? ref).bind (store.ownCell? · name) with
          | some _ => store
          | none => (store.declare ref record.id name).2
        | _ => store) store

/-- What an imported name leads to; a name that leads nowhere or is ambiguous cannot be imported. -/
def resolveImport (store : Store) (source : ModuleId) (name : String) :
    Except ModuleError Binding :=
  match store.resolveExport source name with
  | .found binding => .ok binding
  | .missing => .error (.missingExport source name)
  | .ambiguous => .error (.duplicateExport source name)

/-- Bind one import of a record. -/
def bindImport (store : Store) (ref : RecordRef) (entry : ImportEntry) :
    Except ModuleError Store :=
  match entry.imported with
  | .star => .ok (store.bind ref entry.as_ (.star entry.source))
  | .name name => do
      let binding ← store.resolveImport entry.source name
      return store.bind ref entry.as_ binding

/-- Try one re-export; nothing is bound for it. -/
def checkExport (store : Store) (entry : ExportEntry) : Except ModuleError Unit :=
  match entry with
  | .indirect _ source (.name name) => do
      let _ ← store.resolveImport source name
      return ()
  | _ => .ok ()

/-- Bind every import of a record and try its re-exports. -/
def bindImports (store : Store) (ref : RecordRef) : Except ModuleError Store := do
  let entries := ((store.record? ref).map (·.imports)).getD []
  let reexports := ((store.record? ref).map (·.exportEntries)).getD []
  let store ← entries.foldlM (fun store entry => store.bindImport ref entry) store
  reexports.forM store.checkExport
  return store

/-- Put a record back as it was before linking. -/
def undoLink (store : Store) (ref : RecordRef) : Store :=
  store.modify ref (fun record => { record with status := .unlinked, environment := {} })

/-- Link the modules of an order: all that are pending, or none. -/
def link (store : Store) (order : List ModuleId) : Except ModuleError Unit × Store :=
  let pending := store.pendingLinks order
  let begun := pending.foldl beginLink store
  match pending.foldlM bindImports begun with
  | .ok store => (.ok (), pending.foldl (fun store ref => store.setStatus ref .linked) store)
  | .error error => (.error error, pending.foldl undoLink begun)

end Linkage.Store
