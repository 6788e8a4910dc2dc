import Linkage.Engine.Prefetch

/-!
# Dynamic imports

A dynamic import never finishes at once.  It joins the pipeline that is running for its module, or
starts one; if the module has settled it waits for one turn.  When its wait is over, the module must
still be registered and must not have failed.
-/

namespace Linkage

/-- What a dynamic import waits for. -/
inductive Wait where
  /-- One turn, since the module has settled. -/
  | turn
  /-- The end of a pipeline. -/
  | pipeline (ticket : Nat)
  /-- Nothing more: this is the result. -/
  | over (result : Except ModuleError Namespace)
deriving Inhabited

/-- A dynamic import that somebody waits for. -/
structure Waiter where
  /-- The module. -/
  target : ModuleId
  /-- The module that asked. -/
  requester? : Option ModuleId
  /-- What it waits for. -/
  wait : Wait
deriving Inhabited

namespace Attempt

/-- Join the pipeline that runs a module, or start one unless the module has settled. -/
def joinOrStart (resolved : Resolved) : Attempt Wait := do
  let engine ← get
  match engine.imports.inFlight.find? resolved.id.text with
  | some pipeline => return .pipeline pipeline.ticket
  | none =>
      let ref ← onStore (·.getOrCreate resolved.id resolved.format)
      let engine ← get
      if ((engine.store.record? ref).map (·.status.isSettled)).getD false then return .turn
      else
        let (pipeline, imports) := engine.imports.start resolved.id
        set { engine with imports }
        return .pipeline pipeline.ticket

/-- Begin a dynamic import. -/
def beginImport (specifier : String) (requester? : Option ModuleId) : Attempt Waiter := do
  let resolved ← resolve specifier requester?
  return ⟨resolved.id, requester?, ← joinOrStart resolved⟩

/-- The result of a dynamic import whose wait is over. -/
def concludeImport (target : ModuleId) (requester? : Option ModuleId) : Attempt Namespace := do
  let (_, record) ← registered target
  match record.error? with
  | some error => throw error
  | none => tryStore (·.namespace_ target requester?)

end Attempt

namespace Engine

/-- Begin a dynamic import; one that fails at once waits for nothing. -/
def beginImport (engine : Engine) (specifier : String) (requester? : Option ModuleId) :
    Waiter × Engine :=
  match engine.attempt (Attempt.beginImport specifier requester?) with
  | (.ok waiter, engine) => (waiter, engine)
  | (.error error, engine) => (⟨default, requester?, .over (.error error)⟩, engine)

/-- End the wait of a dynamic import. -/
def conclude (engine : Engine) (waiter : Waiter) : Waiter × Engine :=
  let (result, engine) :=
    engine.attempt (Attempt.concludeImport waiter.target waiter.requester?)
  ({ waiter with wait := .over result }, engine)

/-- Let a turn pass for a waiter. -/
def passTurn (engine : Engine) (waiter : Waiter) : Waiter × Engine :=
  match waiter.wait with
  | .turn => engine.conclude waiter
  | _ => (waiter, engine)

/-- Tell a waiter that its pipeline has ended, if it has. -/
def notice (engine : Engine) (waiter : Waiter) : Waiter × Engine :=
  match waiter.wait with
  | .pipeline ticket => match engine.imports.outcome? ticket with
    | none => (waiter, engine)
    | some ⟨_, some error⟩ => ({ waiter with wait := .over (.error error) }, engine)
    | some ⟨_, none⟩ => engine.conclude waiter
  | _ => (waiter, engine)

/-- Do something for every waiter in order. -/
def forWaiters (engine : Engine) (f : Engine → Waiter → Waiter × Engine)
    (waiters : List Waiter) : List Waiter × Engine :=
  waiters.foldl (fun (done, engine) waiter =>
    let (waiter, engine) := f engine waiter
    (done ++ [waiter], engine)) ([], engine)

/-- Take all pipelines that have not begun and fetch their sources; one whose sources cannot be
fetched ends at once, the others are given back. -/
def prefetchQueue (engine : Engine) : List Pipeline × Engine :=
  let batch := engine.imports.queue
  let engine := { engine with imports := { engine.imports with queue := [] } }
  batch.foldl (fun (ready, engine) pipeline =>
    match engine.attempt (Attempt.prefetch pipeline.target) with
    | (.ok (), engine) => (ready ++ [pipeline], engine)
    | (.error error, engine) =>
        (ready, { engine with imports := engine.imports.finish pipeline (some error) }))
    ([], engine)

end Engine

end Linkage
