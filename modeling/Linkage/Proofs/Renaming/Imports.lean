import Linkage.Proofs.Engine.Pipelines
import Linkage.Proofs.Renaming.Machines

/-!
# Dynamic imports under new names

Pipelines that begin side by side get numbers that correspond, end alike, and those who wait for
them are told the same.

* `Imports.Mirrors` : dynamic imports that do not differ but in the numbers of pipelines.
* `Engine.Parallels` : engines that mirror each other, dynamic imports included.
* `Engine.Parallels.beginImport`, `Engine.Parallels.prefetchQueue`, `Engine.Parallels.forWaiters` :
  what engines do for dynamic imports.
-/

namespace Linkage

/-- How a pipeline ended, under new names. -/
def Outcome.rename (names : Renaming) (outcome : Outcome) : Outcome :=
  { outcome with ticket := names.ticket outcome.ticket }

/-- What a dynamic import waits for, under new names. -/
def Wait.rename (names : Renaming) : Wait → Wait
  | .turn => .turn
  | .pipeline ticket => .pipeline (names.ticket ticket)
  | .over result => .over (result.map (Namespace.rename names))

/-- One who waits, under new names. -/
def Waiter.rename (names : Renaming) (waiter : Waiter) : Waiter :=
  { waiter with wait := waiter.wait.rename names }

/-- Dynamic imports that do not differ but in the numbers of pipelines; there may have been more
before. -/
structure Imports.Mirrors (names : Renaming) (imports imports' : Imports) : Prop where
  inFlight : imports'.inFlight = imports.inFlight.map (Pipeline.rename names)
  queue : imports'.queue = imports.queue.map (Pipeline.rename names)
  outcome : ∀ ticket, imports'.outcome? (names.ticket ticket) =
    (imports.outcome? ticket).map (Outcome.rename names)
  fresh : ∀ more, names.ticket (imports.issued + more) = imports'.issued + more

/-- Engines that do not differ but in what things are called. -/
structure Engine.Parallels (names : Renaming) (engine engine' : Engine) : Prop where
  inner : engine.Mirrors names engine.imports engine'.imports engine'
  imports : engine.imports.Mirrors names engine'.imports

variable {names : Renaming}

namespace Imports.Mirrors

variable {imports imports' : Imports}

theorem pending (hmirrors : imports.Mirrors names imports') : imports'.pending = imports.pending := by
  unfold Imports.pending
  rw [hmirrors.inFlight, Table.size_map]

theorem start (hmirrors : imports.Mirrors names imports') (target : ModuleId) :
    (imports'.start target).1 = (imports.start target).1.rename names ∧
      (imports.start target).2.Mirrors names (imports'.start target).2 := by
  have hticket : names.ticket imports.issued = imports'.issued := hmirrors.fresh 0
  have hnew : (⟨imports'.issued, target⟩ : Pipeline) =
      Pipeline.rename names ⟨imports.issued, target⟩ := by
    rw [← hticket]
    rfl
  refine ⟨hnew, ⟨?_, ?_, hmirrors.outcome, fun more => ?_⟩⟩
  · show imports'.inFlight.insert target.text ⟨imports'.issued, target⟩ = _
    rw [hmirrors.inFlight, hnew, Table.insert_map]
    rfl
  · show imports'.queue ++ [⟨imports'.issued, target⟩] = (imports.queue ++ [_]).map _
    rw [hmirrors.queue, hnew, List.map_append]
    rfl
  · show names.ticket (imports.issued + 1 + more) = imports'.issued + 1 + more
    rw [Nat.add_assoc, Nat.add_assoc]
    exact hmirrors.fresh (1 + more)

theorem finish (hmirrors : imports.Mirrors names imports') (pipeline : Pipeline)
    (error? : Option ModuleError) :
    (imports.finish pipeline error?).Mirrors names
      (imports'.finish (pipeline.rename names) error?) := by
  refine ⟨?_, hmirrors.queue, fun ticket => ?_, hmirrors.fresh⟩
  · show imports'.inFlight.erase pipeline.target.text = _
    rw [hmirrors.inFlight, Table.erase_map]
    rfl
  · rw [Imports.outcome?_finish, Imports.outcome?_finish, hmirrors.outcome]
    have hiff : names.ticket pipeline.ticket = names.ticket ticket ↔ pipeline.ticket = ticket :=
      names.ticket_injective.eq_iff
    cases imports.outcome? ticket with
    | some outcome => rfl
    | none =>
        show (if names.ticket pipeline.ticket = names.ticket ticket then _ else _) = _
        by_cases hticket : pipeline.ticket = ticket
        · rw [if_pos hticket, if_pos (hiff.mpr hticket)]
          rfl
        · rw [if_neg hticket, if_neg (fun hsame => hticket (hiff.mp hsame))]
          rfl

theorem withQueue (hmirrors : imports.Mirrors names imports') (queue : List Pipeline) :
    Imports.Mirrors names { imports with queue }
      { imports' with queue := queue.map (Pipeline.rename names) } :=
  { hmirrors with queue := rfl }

end Imports.Mirrors

namespace Engine.Parallels

variable {engine engine' : Engine}

/-- An attempt that leaves dynamic imports alone. -/
theorem attempt (hparallel : engine.Parallels names engine') {α β : Type} {R : α → β → Prop}
    {action : Attempt α} {action' : Attempt β}
    (haction : Attempt.Mirrors names engine.imports engine'.imports R action action') :
    Matches R (engine.attempt action).1 (engine'.attempt action').1 ∧
      (engine.attempt action).2.Parallels names (engine'.attempt action').2 := by
  obtain ⟨hresult, hmirrors⟩ := haction _ _ hparallel.inner
  refine ⟨hresult, ⟨?_, ?_⟩⟩
  · rw [hmirrors.imports_left, hmirrors.imports_right]
    exact hmirrors
  · rw [hmirrors.imports_left, hmirrors.imports_right]
    exact hparallel.imports

/-- The dynamic imports may change side by side. -/
theorem withImports (hparallel : engine.Parallels names engine') {imports imports' : Imports}
    (himports : imports.Mirrors names imports') :
    Engine.Parallels names { engine with imports } { engine' with imports := imports' } where
  inner := { hparallel.inner with imports_left := rfl, imports_right := rfl }
  imports := himports

theorem withStore (hparallel : engine.Parallels names engine') {store store' : Store}
    (hstore : store.Mirrors names store') :
    Engine.Parallels names { engine with store } { engine' with store := store' } where
  inner := hparallel.inner.withStore hstore
  imports := hparallel.imports

/-- Two dynamic imports of the same begin alike. -/
theorem beginImport (hparallel : engine.Parallels names engine') (specifier : String)
    (requester? : Option ModuleId) :
    (engine'.beginImport specifier requester?).1 =
        (engine.beginImport specifier requester?).1.rename names ∧
      (engine.beginImport specifier requester?).2.Parallels names
        (engine'.beginImport specifier requester?).2 := by
  obtain ⟨hresult, hasked⟩ := hparallel.attempt (Attempt.resolve_mirrors specifier requester?)
  rw [Engine.beginImport_eq, Engine.beginImport_eq]
  generalize engine.attempt (Attempt.resolve specifier requester?) = ended at hresult hasked
  generalize engine'.attempt (Attempt.resolve specifier requester?) = ended' at hresult hasked
  obtain ⟨result, asked⟩ := ended
  obtain ⟨result', asked'⟩ := ended'
  cases hresult with
  | error error => exact ⟨rfl, hasked⟩
  | @ok resolved _ hsame =>
      subst hsame
      dsimp only
      rw [hasked.imports.inFlight, Table.find?_map]
      cases asked.imports.inFlight.find? resolved.id.text with
      | some pipeline => exact ⟨rfl, hasked⟩
      | none =>
          obtain ⟨href, hstore⟩ := hasked.inner.store.getOrCreate resolved.id resolved.format
          dsimp only [Option.map_none]
          have hsettled : ∀ found : Option Record,
              ((found.map (Record.rename names)).map (·.status.isSettled)).getD false =
                (found.map (·.status.isSettled)).getD false := by
            intro found
            cases found <;> rfl
          rw [href, hstore.record, hsettled]
          split
          · exact ⟨rfl, hasked.withStore hstore⟩
          · obtain ⟨hticket, hstarted⟩ := hasked.imports.start resolved.id
            have hwait : asked'.imports.issued = names.ticket asked.imports.issued :=
              (hasked.imports.fresh 0).symm
            refine ⟨?_, (hasked.withStore hstore).withImports hstarted⟩
            rw [hwait]
            rfl

/-- The results of two dynamic imports are the same. -/
theorem conclude (hparallel : engine.Parallels names engine') (waiter : Waiter) :
    (engine'.conclude (waiter.rename names)).1 = (engine.conclude waiter).1.rename names ∧
      (engine.conclude waiter).2.Parallels names (engine'.conclude (waiter.rename names)).2 := by
  obtain ⟨hresult, hended⟩ := hparallel.attempt
    (Attempt.concludeImport_mirrors waiter.target waiter.requester?)
  refine ⟨?_, hended⟩
  have hsame := hresult.eq_map
  show Waiter.mk waiter.target waiter.requester? (.over (engine'.attempt
    (Attempt.concludeImport waiter.target waiter.requester?)).1) = _
  rw [hsame]
  rfl

theorem passTurn (hparallel : engine.Parallels names engine') (waiter : Waiter) :
    (engine'.passTurn (waiter.rename names)).1 = (engine.passTurn waiter).1.rename names ∧
      (engine.passTurn waiter).2.Parallels names (engine'.passTurn (waiter.rename names)).2 := by
  have hconclude := hparallel.conclude waiter
  obtain ⟨target, requester?, wait⟩ := waiter
  match wait with
  | .turn => exact hconclude
  | .pipeline ticket => exact ⟨rfl, hparallel⟩
  | .over result => exact ⟨rfl, hparallel⟩

theorem notice (hparallel : engine.Parallels names engine') (waiter : Waiter) :
    (engine'.notice (waiter.rename names)).1 = (engine.notice waiter).1.rename names ∧
      (engine.notice waiter).2.Parallels names (engine'.notice (waiter.rename names)).2 := by
  have hconclude := hparallel.conclude waiter
  obtain ⟨target, requester?, wait⟩ := waiter
  match wait with
  | .turn => exact ⟨rfl, hparallel⟩
  | .over result => exact ⟨rfl, hparallel⟩
  | .pipeline ticket =>
      unfold Engine.notice Waiter.rename Wait.rename
      dsimp only
      rw [hparallel.imports.outcome]
      rcases engine.imports.outcome? ticket with _ | ⟨_, _ | error⟩
      · exact ⟨rfl, hparallel⟩
      · exact hconclude
      · exact ⟨rfl, hparallel⟩

/-- Those who wait are served alike. -/
theorem forWaiters {f : Engine → Waiter → Waiter × Engine}
    (hserves : ∀ {engine engine' : Engine}, engine.Parallels names engine' → ∀ waiter,
      (f engine' (waiter.rename names)).1 = (f engine waiter).1.rename names ∧
        (f engine waiter).2.Parallels names (f engine' (waiter.rename names)).2)
    (hparallel : engine.Parallels names engine') (waiters : List Waiter) :
    (engine'.forWaiters f (waiters.map (Waiter.rename names))).1 =
        (engine.forWaiters f waiters).1.map (Waiter.rename names) ∧
      (engine.forWaiters f waiters).2.Parallels names
        (engine'.forWaiters f (waiters.map (Waiter.rename names))).2 := by
  rw [Engine.forWaiters_eq, Engine.forWaiters_eq]
  suffices hfold : ∀ (done : List Waiter) (engine engine' : Engine),
      engine.Parallels names engine' →
      ((waiters.map (Waiter.rename names)).foldl (Engine.serveOne f)
          (done.map (Waiter.rename names), engine')).1 =
        (waiters.foldl (Engine.serveOne f) (done, engine)).1.map (Waiter.rename names) ∧
      (waiters.foldl (Engine.serveOne f) (done, engine)).2.Parallels names
        ((waiters.map (Waiter.rename names)).foldl (Engine.serveOne f)
          (done.map (Waiter.rename names), engine')).2 from hfold [] engine engine' hparallel
  clear hparallel
  induction waiters with
  | nil => exact fun done engine engine' hparallel => ⟨rfl, hparallel⟩
  | cons waiter rest ih =>
      intro done engine engine' hparallel
      obtain ⟨hwaiter, hserved⟩ := hserves hparallel waiter
      rw [List.map_cons, List.foldl_cons, List.foldl_cons]
      have hstep : Engine.serveOne f (done.map (Waiter.rename names), engine')
          (waiter.rename names) = ((done ++ [(f engine waiter).1]).map (Waiter.rename names),
            (f engine' (waiter.rename names)).2) := by
        unfold Engine.serveOne
        rw [hwaiter, List.map_append]
        rfl
      rw [hstep]
      exact ih _ _ _ hserved

/-- The sources of all that wait are fetched alike. -/
theorem prefetchQueue (hparallel : engine.Parallels names engine') :
    engine'.prefetchQueue.1 = engine.prefetchQueue.1.map (Pipeline.rename names) ∧
      engine.prefetchQueue.2.Parallels names engine'.prefetchQueue.2 := by
  rw [Engine.prefetchQueue_eq, Engine.prefetchQueue_eq, hparallel.imports.queue]
  suffices hfold : ∀ (batch ready : List Pipeline) (engine engine' : Engine),
      engine.Parallels names engine' →
      ((batch.map (Pipeline.rename names)).foldl Engine.prefetchOne
          (ready.map (Pipeline.rename names), engine')).1 =
        (batch.foldl Engine.prefetchOne (ready, engine)).1.map (Pipeline.rename names) ∧
      (batch.foldl Engine.prefetchOne (ready, engine)).2.Parallels names
        ((batch.map (Pipeline.rename names)).foldl Engine.prefetchOne
          (ready.map (Pipeline.rename names), engine')).2 from
    hfold engine.imports.queue [] _ _ (hparallel.withImports (hparallel.imports.withQueue []))
  clear hparallel
  intro batch
  induction batch with
  | nil => exact fun ready engine engine' hparallel => ⟨rfl, hparallel⟩
  | cons pipeline rest ih =>
      intro ready engine engine' hparallel
      obtain ⟨hresult, hfetched⟩ :=
        hparallel.attempt (Attempt.prefetch_mirrors pipeline.target)
      rw [List.map_cons, List.foldl_cons, List.foldl_cons]
      rw [Engine.prefetchOne, Engine.prefetchOne,
        show (pipeline.rename names).target = pipeline.target from rfl]
      dsimp only
      generalize engine.attempt (Attempt.prefetch pipeline.target) = ended at hresult hfetched
      generalize engine'.attempt (Attempt.prefetch pipeline.target) = ended' at hresult hfetched
      obtain ⟨result, engine⟩ := ended
      obtain ⟨result', engine'⟩ := ended'
      cases hresult with
      | error error =>
          exact ih _ _ _ (hfetched.withImports (hfetched.imports.finish pipeline (some error)))
      | ok _ =>
          have hnext := ih (ready ++ [pipeline]) _ _ hfetched
          rw [List.map_append] at hnext
          exact hnext

end Engine.Parallels

end Linkage
