import Linkage.Resolving
import Linkage.Store.Exported

/-!
# The engine

An engine joins a host, a configuration, the answers of the resolver, the module store, and the
dynamic imports that are running.  An `Attempt` is a computation that changes an engine and may
fail; what it changed before it failed stays changed.
-/

namespace Linkage

/-- A pipeline of a dynamic import: the run that loads, links and evaluates one module.  The ticket
is its identity. -/
structure Pipeline where
  /-- Its number among all pipelines ever started. -/
  ticket : Nat
  /-- The module it runs. -/
  target : ModuleId
deriving DecidableEq, Repr, Inhabited

/-- How a pipeline ended. -/
structure Outcome where
  /-- The pipeline. -/
  ticket : Nat
  /-- The error it ended with, if it failed. -/
  error? : Option ModuleError
deriving DecidableEq, Repr, Inhabited

/-- The dynamic imports of an engine. -/
structure Imports where
  /-- The unfinished pipelines, by the text of their target. -/
  inFlight : Table Pipeline
  /-- The pipelines that have been started but have not begun to run, in order. -/
  queue : List Pipeline
  /-- How the finished pipelines ended. -/
  outcomes : List Outcome
  /-- How many pipelines have been started. -/
  issued : Nat
deriving Inhabited

/-- No dynamic import. -/
def Imports.empty : Imports := ⟨{}, [], [], 0⟩

/-- How many pipelines have not finished. -/
def Imports.pending (imports : Imports) : Nat := imports.inFlight.size

/-- Start a pipeline. -/
def Imports.start (imports : Imports) (target : ModuleId) : Pipeline × Imports :=
  let pipeline : Pipeline := ⟨imports.issued, target⟩
  (pipeline, { imports with
    inFlight := imports.inFlight.insert target.text pipeline
    queue := imports.queue ++ [pipeline]
    issued := imports.issued + 1 })

/-- End a pipeline. -/
def Imports.finish (imports : Imports) (pipeline : Pipeline) (error? : Option ModuleError) :
    Imports :=
  { imports with
    inFlight := imports.inFlight.erase pipeline.target.text
    outcomes := imports.outcomes ++ [⟨pipeline.ticket, error?⟩] }

/-- How a pipeline ended, once it has. -/
def Imports.outcome? (imports : Imports) (ticket : Nat) : Option Outcome :=
  imports.outcomes.find? (·.ticket = ticket)

/-- Resolution, linking and evaluation over one host. -/
structure Engine where
  /-- The settings. -/
  config : Config
  /-- Where modules come from. -/
  host : Host
  /-- The remembered resolutions. -/
  resolver : Resolver
  /-- The modules. -/
  store : Store
  /-- The dynamic imports. -/
  imports : Imports
  /-- How many sources the host has given. -/
  loads : Nat
deriving Inhabited

/-- A computation on an engine that may fail and keeps what it changed. -/
abbrev Attempt (α : Type) : Type := ExceptT ModuleError (StateM Engine) α

namespace Engine

/-- A new engine. -/
def new (host : Host) (config : Config) : Engine :=
  ⟨config, host, .empty, .empty, .empty, 0⟩

/-- Forget every module and every resolution; dynamic imports that are running go on. -/
def reset (engine : Engine) : Engine :=
  { engine with store := engine.store.clear, resolver := .empty }

/-- At least as many modules as can ever be registered while the host stays as it is: those that
are, those that are remembered, and those that exist. -/
def reach (engine : Engine) : Nat :=
  engine.store.size + engine.resolver.size + engine.host.size + 1

/-- Run an attempt. -/
def attempt {α : Type} (engine : Engine) (action : Attempt α) : Except ModuleError α × Engine :=
  action.run.run engine

end Engine

namespace Attempt

/-- Resolve a specifier. -/
def resolve (specifier : String) (referrer? : Option ModuleId) : Attempt Resolved := do
  let engine ← get
  let (answer, resolver) := engine.resolver.resolve engine.config engine.host specifier referrer?
  set { engine with resolver }
  MonadExcept.ofExcept answer

/-- Change the store. -/
def onStore {α : Type} (f : Store → α × Store) : Attempt α :=
  modifyGet (fun engine =>
    let (value, store) := f engine.store
    (value, { engine with store }))

/-- Change the store, and fail if that fails. -/
def tryStore {α : Type} (f : Store → Except ModuleError α × Store) : Attempt α := do
  MonadExcept.ofExcept (← onStore f)

/-- Resolve a specifier and register the module it names. -/
def resolveAndRegister (specifier : String) (referrer? : Option ModuleId) :
    Attempt (Resolved × RecordRef) := do
  let resolved ← resolve specifier referrer?
  let ref ← onStore (·.getOrCreate resolved.id resolved.format)
  return (resolved, ref)

/-- The record of a registered module. -/
def registered (id : ModuleId) : Attempt (RecordRef × Record) := do
  let store := (← get).store
  match store.lookup? id, store.find? id with
  | some ref, some record => return (ref, record)
  | _, _ => throw (.detached id)

/-- Give a record the source that the host gave for it. -/
def keepSource (ref : RecordRef) (given : Except ModuleError ModuleSource) :
    Attempt ModuleSource := do
  let source ← MonadExcept.ofExcept given
  modify (fun engine => { engine with
    loads := engine.loads + 1
    store := engine.store.modify ref (fun record => { record with source? := some source }) })
  return source

/-- The source of a record, loaded at the first time of asking. -/
def sourceOf (ref : RecordRef) (record : Record) : Attempt ModuleSource :=
  match record.source? with
  | some source => pure source
  | none => do keepSource ref ((← get).host.load record.id)

end Attempt

end Linkage
