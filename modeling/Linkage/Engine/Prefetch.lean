import Linkage.Engine.Analyzing

/-!
# Fetching sources ahead

Before a dynamic import is linked, the host is asked for the sources of all modules its target leads
to, one level of specifiers after the other.
-/

namespace Linkage.Attempt

/-- The unsettled records of some modules. -/
def unsettled (ids : List ModuleId) : Attempt (List (RecordRef × Record)) := do
  let store := (← get).store
  return ids.filterMap (fun id => match store.lookup? id, store.find? id with
    | some ref, some record => if record.status.isSettled then none else some (ref, record)
    | _, _ => none)

/-- Fetch the source of a record unless it is there. -/
def fetchSource (ref : RecordRef) (record : Record) : Attempt Unit := do
  if record.source?.isNone then
    let _ ← keepSource ref ((← get).host.fetch record.id)

/-- The modules that a fetched module names and that have not been seen, and all seen so far. -/
def nextLevel (ref : RecordRef) (record : Record) (found seen : List ModuleId) :
    Attempt (List ModuleId × List ModuleId) := do
  if record.format = .legacy then return (found, seen)
  match ((← get).store.record? ref).bind (·.source?) with
  | none => return (found, seen)
  | some source => source.specifiers.foldlM (fun (found, seen) specifier => do
      let (resolved, _) ← resolveAndRegister specifier (some record.id)
      if resolved.id ∈ seen then return (found, seen)
      else return (found ++ [resolved.id], resolved.id :: seen)) (found, seen)

/-- Fetch level after level; `fuel` bounds the number of levels. -/
def prefetchLevels : Nat → List ModuleId → List ModuleId → Attempt Unit
  | 0, _, _ => return ()
  | fuel + 1, level, seen => do
      if level.isEmpty then return ()
      let records ← unsettled level
      records.forM (fun (ref, record) => fetchSource ref record)
      let (next, seen) ← records.foldlM (fun (found, seen) (ref, record) =>
        nextLevel ref record found seen) ([], seen)
      prefetchLevels fuel next seen

/-- Fetch the sources of all modules that a root leads to. -/
def prefetch (root : ModuleId) : Attempt Unit := do
  prefetchLevels ((← get).reach + 1) [root] [root]

end Linkage.Attempt
