import Linkage.Engine.Basic

/-!
# Analyzing declarations

The declarations of a modern module are read once: every specifier is resolved, in the order the
declarations stand, and every item becomes an entry.  A local name that is exported although it is
imported leads to where it is imported from.  Two entries with one public name, and an `export *`
without a source, are refused.  Of a legacy module only the names that its exports value is said to
have are taken.
-/

namespace Linkage

namespace Analysis

/-- Nothing analyzed yet. -/
def empty : Analysis := ⟨[], [], [], .nil⟩

/-- Note that a module is asked for. -/
def request (analysis : Analysis) (id : ModuleId) : Analysis :=
  if hid : id ∈ analysis.requested then analysis
  else { analysis with
    requested := analysis.requested ++ [id]
    requested_nodup := by
      have hnew : ∀ other ∈ analysis.requested, other ≠ id :=
        fun _ hother => ne_of_mem_of_not_mem hother hid
      simpa [List.nodup_append, analysis.requested_nodup] using hnew }

/-- The entry of an import item. -/
def importEntry (source : ModuleId) (item : ImportItem) : ImportEntry :=
  let imported := match item with
    | .default _ => .name "default"
    | .named imported _ => .name imported
    | .star _ => .star
  ⟨source, imported, item.localName⟩

/-- The entry of an export item, given the imports of the module and the source of the
declaration. -/
def exportEntry (id : ModuleId) (imports : List ImportEntry) (source? : Option ModuleId)
    (item : ExportItem) : Except ModuleError ExportEntry :=
  match item, source? with
  | .default, none => .ok (.own "default" defaultLocal)
  | .default, some source => .ok (.indirect "default" source (.name "default"))
  | .named name alias?, none =>
      match imports.find? (·.as_ = name) with
      | some entry => .ok (.indirect (alias?.getD name) entry.source entry.imported)
      | none => .ok (.own (alias?.getD name) name)
  | .named name alias?, some source => .ok (.indirect (alias?.getD name) source (.name name))
  | .star, some source => .ok (.star source)
  | .starAs as_, some source => .ok (.indirect as_ source .star)
  | .star, none | .starAs _, none =>
      .error (.malformed id "`export *` without a source module")

/-- Add an export entry, unless its public name is taken. -/
def addExport (id : ModuleId) (analysis : Analysis) (entry : ExportEntry) :
    Except ModuleError Analysis :=
  match entry.publicName? with
  | some name =>
      if analysis.exports.any (fun other => other.publicName? == some name) then
        .error (.duplicateExport id name)
      else .ok { analysis with exports := analysis.exports ++ [entry] }
  | none => .ok { analysis with exports := analysis.exports ++ [entry] }

/-- Add the items of one export declaration. -/
def addItems (id : ModuleId) (source? : Option ModuleId) (analysis : Analysis)
    (items : List ExportItem) : Except ModuleError Analysis :=
  items.foldlM (fun analysis item => do
    analysis.addExport id (← exportEntry id analysis.imports source? item)) analysis

/-- The names that the exports value of a legacy module is said to have. -/
def ofLegacy (source : ModuleSource) : Analysis :=
  let items := (source.exports.filter (·.source?.isNone)).flatMap (·.items)
  ⟨[], [], items.filterMap (fun item => match item with
    | .named name alias? => some (.own (alias?.getD name) (alias?.getD name))
    | _ => none), .nil⟩

end Analysis

namespace Attempt

/-- Resolve and register one specifier of a module under analysis. -/
def request (id : ModuleId) (specifier : String) (analysis : Analysis) :
    Attempt (ModuleId × Analysis) := do
  let (resolved, _) ← resolveAndRegister specifier (some id)
  return (resolved.id, analysis.request resolved.id)

/-- Add one import declaration. -/
def addImports (id : ModuleId) (analysis : Analysis) (declaration : ImportDeclaration) :
    Attempt Analysis := do
  let (source, analysis) ← request id declaration.specifier analysis
  return { analysis with
    imports := analysis.imports ++ declaration.items.map (Analysis.importEntry source) }

/-- Add one export declaration. -/
def addExports (id : ModuleId) (analysis : Analysis) (declaration : ExportDeclaration) :
    Attempt Analysis := do
  match declaration.source? with
  | none => MonadExcept.ofExcept (analysis.addItems id none declaration.items)
  | some specifier =>
      let (source, analysis) ← request id specifier analysis
      MonadExcept.ofExcept (analysis.addItems id (some source) declaration.items)

/-- Analyze the declarations of a modern module. -/
def analyzeModern (id : ModuleId) (source : ModuleSource) : Attempt Analysis := do
  let analysis ← source.imports.foldlM (addImports id) Analysis.empty
  source.exports.foldlM (addExports id) analysis

/-- Load and analyze a module once; gives the modules it asks for, which a legacy module does only
while it runs. -/
def analyze (ref : RecordRef) (record : Record) : Attempt (List ModuleId) := do
  match record.analysis? with
  | some analysis => return (match record.format with
      | .modern => analysis.requested
      | .legacy => [])
  | none =>
      let source ← sourceOf ref record
      let analysis ← match record.format with
        | .legacy => pure (Analysis.ofLegacy source)
        | .modern => analyzeModern record.id source
      onStore (fun store =>
        ((), store.modify ref (fun record => { record with analysis? := some analysis })))
      return analysis.requested

end Attempt

end Linkage
