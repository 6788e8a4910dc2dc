import Linkage.Error
import Linkage.Program
import Linkage.Value.Heap

/-!
# Module records

A record is all the engine knows of one module: how far it has come, its source, what its
declarations say once they are analyzed, the names bound in it, and the error of a body that failed.
-/

namespace Linkage

/-- How far a module has come. -/
inductive Status where
  /-- Known, but not linked, or linking was undone. -/
  | unlinked
  /-- Being linked. -/
  | linking
  /-- Every import is bound. -/
  | linked
  /-- The body is running. -/
  | evaluating
  /-- The body has finished. -/
  | evaluated
  /-- The body has failed. -/
  | errored
deriving DecidableEq, Repr, Inhabited

namespace Status

/-- The name that is shown. -/
def name : Status → String
  | unlinked => "unlinked"
  | linking => "linking"
  | linked => "linked"
  | evaluating => "evaluating"
  | evaluated => "evaluated"
  | errored => "errored"

/-- Whether the body has finished or failed. -/
def isSettled : Status → Bool
  | evaluated | errored => true
  | _ => false

end Status

/-- A handle to a binding cell. -/
structure CellRef where
  /-- Its place among all cells ever made. -/
  index : Nat
deriving DecidableEq, Repr, Inhabited

/-- A slot that one module owns and others may read. -/
structure Cell where
  /-- The record that declared it; a failed body spoils every cell of its record. -/
  record : RecordRef
  /-- The module that declared it. -/
  owner : ModuleId
  /-- Its local name there. -/
  name : String
  /-- The value, once one has been written. -/
  value? : Option Value
deriving Inhabited

/-- What a name in a module refers to. -/
inductive Binding where
  /-- A cell. -/
  | cell (ref : CellRef)
  /-- The namespace of a module. -/
  | star (id : ModuleId)
  /-- The exports value of a legacy module, or one property of it. -/
  | exports (record : RecordRef) (property? : Option String)
deriving DecidableEq, Repr, Inhabited

/-- What an import asks a module for. -/
inductive ImportName where
  /-- One public name. -/
  | name (name : String)
  /-- The namespace. -/
  | star
deriving DecidableEq, Repr, Inhabited

/-- One imported name, its module resolved. -/
structure ImportEntry where
  /-- The module it comes from. -/
  source : ModuleId
  /-- What is taken. -/
  imported : ImportName
  /-- The local name. -/
  as_ : String
deriving DecidableEq, Repr, Inhabited

/-- One public name, or the names of another module, with modules resolved. -/
inductive ExportEntry where
  /-- A local name under a public one. -/
  | own (as_ name : String)
  /-- A name or the namespace of another module under a public name. -/
  | indirect (as_ : String) (source : ModuleId) (imported : ImportName)
  /-- Every name of another module. -/
  | star (source : ModuleId)
deriving DecidableEq, Repr, Inhabited

namespace ExportEntry

/-- The public name of an entry that has one. -/
def publicName? : ExportEntry → Option String
  | own as_ _ | indirect as_ _ _ => some as_
  | star _ => none

/-- Whether an entry gives the default export. -/
def isDefault (entry : ExportEntry) : Bool :=
  entry.publicName? == some "default"

end ExportEntry

/-- What the declarations of a module say. -/
structure Analysis where
  /-- The modules asked for, in the order they are first named. -/
  requested : List ModuleId
  /-- The imported names. -/
  imports : List ImportEntry
  /-- The public names; for a legacy module the names its exports value is said to have. -/
  exports : List ExportEntry
  /-- A module named more than once is asked for once. -/
  requested_nodup : requested.Nodup
deriving DecidableEq, Repr

/-- The exports value of a legacy module. -/
structure Exports where
  /-- The value now. -/
  value : Value
  /-- Whether the body has begun. -/
  started : Bool
deriving Inhabited

/-- All that is known of one module. -/
structure Record where
  /-- The module. -/
  id : ModuleId
  /-- The exports value; a modern module has none. -/
  exports? : Option Exports
  /-- How far the module has come. -/
  status : Status
  /-- The source, once it is loaded. -/
  source? : Option ModuleSource
  /-- What the declarations say, once they are analyzed. -/
  analysis? : Option Analysis
  /-- What the names in the module refer to. -/
  environment : Table Binding
  /-- The error of a failed body, as the record shows it. -/
  error? : Option ModuleError
  /-- The error that spoils every binding of the module; once there it stays. -/
  poison? : Option ModuleError
deriving Inhabited

namespace Record

/-- The format of the module, fixed when the record is made. -/
def format (record : Record) : Format :=
  if record.exports?.isSome then .legacy else .modern

/-- The modules asked for, as far as that is known. -/
def requested (record : Record) : List ModuleId :=
  (record.analysis?.map (·.requested)).getD []

/-- The imported names, as far as they are known. -/
def imports (record : Record) : List ImportEntry :=
  (record.analysis?.map (·.imports)).getD []

/-- The public names, as far as they are known. -/
def exportEntries (record : Record) : List ExportEntry :=
  (record.analysis?.map (·.exports)).getD []

/-- The record after its body has failed. -/
def fail (record : Record) (error : ModuleError) : Record :=
  { record with
    status := .errored
    error? := some error
    poison? := some (record.poison?.getD error) }

/-- A fresh record of a modern module. -/
def modern (id : ModuleId) : Record :=
  ⟨id, none, .unlinked, none, none, {}, none, none⟩

/-- A fresh record of a legacy module with this exports value. -/
def legacy (id : ModuleId) (value : Value) : Record :=
  { modern id with exports? := some ⟨value, false⟩ }

end Record

end Linkage
