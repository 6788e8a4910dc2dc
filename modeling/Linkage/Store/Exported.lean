import Linkage.Store.Basic

/-!
# Exported names

`Store.resolveExport` finds what backs a public name of a module: its own cell, a name of another
module, or the one thing that all of its `export *` sources agree on.  A request that is already
being answered gives nothing, so re-exports may go in circles.  `Store.exportedNames` lists the
public names of a module, those that are ambiguous included.
-/

namespace Linkage

/-- What an exported name leads to. -/
inductive Resolution where
  /-- Exactly one thing. -/
  | found (binding : Binding)
  /-- Nothing. -/
  | missing
  /-- Different things from different `export *` sources. -/
  | ambiguous
deriving DecidableEq, Repr, Inhabited

namespace Store

/-- A request for a public name of a module. -/
abbrev Request : Type := ModuleId × String

/-- What a legacy module offers under a name: its exports value as the default, and the properties
it is said to have. -/
def resolveLegacy (ref : RecordRef) (record : Record) (name : String) : Resolution :=
  if name = "default" then .found (.exports ref none)
  else if record.exportEntries.any (fun entry => entry.publicName? == some name) then
    .found (.exports ref (some name))
  else .missing

/-- The entry that gives a public name by itself. -/
def explicitExport? (entries : List ExportEntry) (name : String) : Option ExportEntry :=
  entries.find? (fun entry => entry.publicName? == some name)

/-- The sources of all `export *` entries, in order. -/
def starSources (entries : List ExportEntry) : List ModuleId :=
  entries.filterMap (fun entry => match entry with
    | .star source => some source
    | _ => none)

/-- Ask the sources of `export *` one after the other: the first ambiguity or the first disagreement
decides, otherwise what was found.  `resolve` answers one request and gives the requests answered so
far. -/
def resolveStars (resolve : ModuleId → List Request → Resolution × List Request) :
    List ModuleId → Option Binding → List Request → Resolution × List Request
  | [], known?, asked => ((known?.map .found).getD .missing, asked)
  | source :: rest, known?, asked =>
      match resolve source asked with
      | (.ambiguous, asked) => (.ambiguous, asked)
      | (.missing, asked) => resolveStars resolve rest known? asked
      | (.found binding, asked) => match known? with
        | none => resolveStars resolve rest (some binding) asked
        | some known =>
            if known = binding then resolveStars resolve rest known? asked
            else (.ambiguous, asked)

/-- Answer a request, given those that have been asked already.  `fuel` bounds how many different
requests can still come up. -/
def resolveWithin (store : Store) : Nat → ModuleId → String → List Request →
    Resolution × List Request
  | 0, _, _, asked => (.missing, asked)
  | fuel + 1, id, name, asked =>
      match store.lookup? id, store.find? id with
      | some ref, some record =>
          if (id, name) ∈ asked then (.missing, asked)
          else
            let asked := asked ++ [(id, name)]
            if record.format = .legacy then (resolveLegacy ref record name, asked)
            else match explicitExport? record.exportEntries name with
              | some (.own _ local_) => match store.ownCell? record local_ with
                | some cell => (.found (.cell cell), asked)
                | none => (.missing, asked)
              | some (.indirect _ source .star) => (.found (.star source), asked)
              | some (.indirect _ source (.name imported)) =>
                  store.resolveWithin fuel source imported asked
              | _ =>
                  if name = "default" then (.missing, asked)
                  else resolveStars (fun source asked => store.resolveWithin fuel source name asked)
                    (starSources record.exportEntries) none asked
      | _, _ => (.missing, asked)

/-- How many export entries the registered modules have. -/
def entryCount (store : Store) : Nat :=
  store.ids.foldr (fun id count =>
    ((store.find? id).map (·.exportEntries.length)).getD 0 + count) 0

/-- More than the number of requests that can come up: a registered module with the name first asked
for, or with a name that some entry imports. -/
def requestBound (store : Store) : Nat :=
  store.size * (store.entryCount + 1) + 1

/-- What a public name of a module leads to. -/
def resolveExport (store : Store) (id : ModuleId) (name : String) : Resolution :=
  (store.resolveWithin store.requestBound id name []).1

/-- The public names of a module before they are ordered, given the modules already visited; also
give back the modules visited now. -/
def namesWithin (store : Store) : Nat → ModuleId → List ModuleId → List String × List ModuleId
  | 0, _, visited => ([], visited)
  | fuel + 1, id, visited =>
      if id ∈ visited then ([], visited)
      else
        let visited := visited ++ [id]
        match store.find? id with
        | none => ([], visited)
        | some record =>
            let explicit := record.exportEntries.filterMap ExportEntry.publicName?
            match record.format with
            | .legacy => ("default" :: explicit, visited)
            | .modern =>
                (starSources record.exportEntries).foldl (fun (names, visited) source =>
                  let (more, visited) := store.namesWithin fuel source visited
                  (names ++ more.filter (fun name => name ≠ "default" ∧ name ∉ names), visited))
                  (explicit, visited)

/-- The public names of a module in order, each once. -/
def exportedNames (store : Store) (id : ModuleId) : List String :=
  (Table.ofList ((store.namesWithin (store.size + 1) id []).1.map (fun name => (name, ())))).keys

/-- Read a public name through a namespace: what is not exported is undefined. -/
def readName (store : Store) (found : Namespace) (name : String) :
    Except ModuleError Value × Store :=
  if !store.isAttached found then (.error (.detached found.id), store)
  else match store.resolveExport found.id name with
    | .found binding => store.read binding found.requester?
    | .missing => (.ok .undefined, store)
    | .ambiguous => (.error (.duplicateExport found.id name), store)

/-- The public names that a namespace shows. -/
def keysOf (store : Store) (found : Namespace) : Except ModuleError (List String) :=
  if store.isAttached found then .ok (store.exportedNames found.id)
  else .error (.detached found.id)

/-- Whether a namespace shows a name. -/
def showsName (store : Store) (found : Namespace) (name : String) : Bool :=
  match store.keysOf found with
  | .ok keys => name ∈ keys
  | .error _ => false

/-- Read every public name of a namespace; each may fail by itself. -/
def entriesOf (store : Store) (found : Namespace) :
    Except ModuleError (List (String × Except ModuleError Value)) × Store :=
  match store.keysOf found with
  | .error error => (.error error, store)
  | .ok keys =>
      let (entries, store) := keys.foldl (fun (entries, store) key =>
        let (value, store) := store.readName found key
        (entries ++ [(key, value)], store)) ([], store)
      (.ok entries, store)

/-- Show a namespace as a JSON object; a name that cannot be read stands with its error. -/
def spaceToJson (store : Store) (found : Namespace) : Except ModuleError Json × Store :=
  match store.entriesOf found with
  | (.error error, store) => (.error error, store)
  | (.ok entries, store) =>
      (.ok (.obj (entries.map (fun (key, value) => (key, match value with
        | .ok value => value.toJson store.heap
        | .error error => .str s!"<{error.message}>")))), store)

end Store

end Linkage
