import Linkage.Engine.Importing
import Linkage.Proofs.Engine.Walking

/-!
# Attempts that only touch the store

Resolving, building a graph, fetching ahead, and beginning and concluding a dynamic import neither
link nor start a module.
-/

namespace Linkage

namespace Attempt

theorem quiet_resolve (specifier : String) (referrer? : Option ModuleId) :
    (resolve specifier referrer?).Quiet :=
  .of_meets (fun _ => ⟨_, fun _ _ => True, meets_resolve specifier referrer?
    (fun _ _ _ _ => trivial)⟩)

theorem quiet_resolveAndRegister (specifier : String) (referrer? : Option ModuleId) :
    (resolveAndRegister specifier referrer?).Quiet :=
  .of_meets (fun _ => ⟨_, fun _ _ => True, meets_resolveAndRegister specifier referrer?
    (fun _ _ _ _ => trivial) (fun _ _ _ _ => trivial)⟩)

theorem quiet_registered (id : ModuleId) : (registered id).Quiet :=
  .of_meets (fun _ => ⟨_, _, meets_registered id⟩)

theorem quiet_buildGraph (root : ModuleId) : (buildGraph root).Quiet :=
  .of_meets (fun _ => ⟨_, _, meets_buildGraph root⟩)

theorem quiet_graphOf (specifier : String) : (graphOf specifier).Quiet :=
  (quiet_resolveAndRegister specifier none).bind (fun found => quiet_buildGraph found.1.id)

theorem quiet_keepSource (ref : RecordRef) (given : Except ModuleError ModuleSource) :
    (keepSource ref given).Quiet := by
  intro host engine hhost _
  unfold keepSource
  cases given with
  | error error => exact ⟨hhost, .refl, fun _ _ => trivial, fun _ _ => trivial⟩
  | ok source =>
      exact ⟨hhost, .single (.source ref source), fun _ _ => trivial, fun _ _ => trivial⟩

theorem quiet_fetchSource (ref : RecordRef) (record : Record) :
    (fetchSource ref record).Quiet := by
  unfold fetchSource
  cases record.source? with
  | none => exact .get_bind (fun engine => (quiet_keepSource _ _).bind (fun _ => .pure _))
  | some source => exact .pure _

theorem quiet_nextLevel (ref : RecordRef) (record : Record) (found seen : List ModuleId) :
    (nextLevel ref record found seen).Quiet := by
  unfold nextLevel
  split
  · exact .pure _
  · refine .get_bind (fun engine => ?_)
    split
    · exact .pure _
    · refine .foldlM _ _ (fun known specifier => ?_)
      obtain ⟨found, seen⟩ := known
      refine (quiet_resolveAndRegister specifier (some record.id)).bind (fun answer => ?_)
      obtain ⟨resolved, _⟩ := answer
      dsimp only
      split
      · exact .pure _
      · exact .pure _

theorem quiet_prefetchLevels (fuel : Nat) (level seen : List ModuleId) :
    (prefetchLevels fuel level seen).Quiet := by
  induction fuel generalizing level seen with
  | zero => exact .pure ()
  | succ fuel ih =>
      unfold prefetchLevels
      split
      · exact .pure ()
      · refine Quiet.bind (.get_bind (fun engine => .pure _)) (fun records => ?_)
        refine Quiet.bind (.forM records (fun entry => quiet_fetchSource entry.1 entry.2))
          (fun _ => ?_)
        · refine Quiet.bind (.foldlM _ _ (fun known entry => ?_)) (fun next => ih next.1 next.2)
          exact quiet_nextLevel entry.1 entry.2 known.1 known.2

theorem quiet_prefetch (root : ModuleId) : (prefetch root).Quiet :=
  .get_bind (fun engine => quiet_prefetchLevels (engine.reach + 1) [root] [root])

theorem quiet_joinOrStart (resolved : Resolved) : (joinOrStart resolved).Quiet := by
  unfold joinOrStart
  refine .get_bind (fun engine => ?_)
  split
  · exact .pure _
  · refine (Quiet.onStore (fun store => .single (.register _ _))).bind (fun ref host => ?_)
    refine .get_bind (fun engine hhost _ => ?_)
    split
    · exact .pure (fun _ _ => trivial)
    · have hset : Meets host (fun store => store = engine.store)
          (MonadStateOf.set { engine with imports := (engine.imports.start resolved.id).2 })
          (fun _ _ => True) (fun _ _ => True) :=
        .set hhost (fun store hsame => hsame ▸ .refl) (fun _ _ => trivial)
      exact hset.bind (fun _ => .pure (fun _ _ => trivial))

theorem quiet_beginImport (specifier : String) (requester? : Option ModuleId) :
    (beginImport specifier requester?).Quiet :=
  (quiet_resolve specifier requester?).bind (fun resolved =>
    (quiet_joinOrStart resolved).bind (fun _ => .pure _))

theorem quiet_concludeImport (target : ModuleId) (requester? : Option ModuleId) :
    (concludeImport target requester?).Quiet := by
  unfold concludeImport
  refine (quiet_registered target).bind (fun found => ?_)
  obtain ⟨_, record⟩ := found
  dsimp only
  split
  · exact .throw _
  · exact (Quiet.onStore (fun store => .single (.space target requester?))).bind
      (fun answer => .ofExcept answer)

end Attempt

namespace Engine

variable (engine : Engine)

theorem touches_beginImport (specifier : String) (requester? : Option ModuleId) :
    engine.store.Touches (engine.beginImport specifier requester?).2.store := by
  have htouches := (Attempt.quiet_beginImport specifier requester?).touches engine
  unfold beginImport
  generalize engine.attempt (Attempt.beginImport specifier requester?) = ended at htouches
  obtain ⟨result, engine'⟩ := ended
  cases result with
  | ok waiter => exact htouches
  | error error => exact htouches

theorem touches_conclude (waiter : Waiter) :
    engine.store.Touches (engine.conclude waiter).2.store :=
  (Attempt.quiet_concludeImport waiter.target waiter.requester?).touches engine

theorem touches_passTurn (waiter : Waiter) :
    engine.store.Touches (engine.passTurn waiter).2.store := by
  unfold passTurn
  split
  · exact engine.touches_conclude waiter
  · exact .refl

theorem touches_notice (waiter : Waiter) : engine.store.Touches (engine.notice waiter).2.store := by
  unfold notice
  split
  · split
    · exact .refl
    · exact .refl
    · exact engine.touches_conclude waiter
  · exact .refl

theorem touches_forWaiters {f : Engine → Waiter → Waiter × Engine}
    (hstep : ∀ (engine : Engine) waiter, engine.store.Touches (f engine waiter).2.store)
    (waiters : List Waiter) : engine.store.Touches (engine.forWaiters f waiters).2.store :=
  Store.reaches_foldl (fun state : List Waiter × Engine => state.2.store)
    (fun state waiter => hstep state.2 waiter) waiters ([], engine)

theorem touches_prefetchQueue : engine.store.Touches engine.prefetchQueue.2.store := by
  unfold prefetchQueue
  refine Store.reaches_foldl (fun state : List Pipeline × Engine => state.2.store) ?_
    engine.imports.queue ([], { engine with imports := { engine.imports with queue := [] } })
  intro state pipeline
  have htouches := (Attempt.quiet_prefetch pipeline.target).touches state.2
  dsimp only
  generalize state.2.attempt (Attempt.prefetch pipeline.target) = ended at htouches
  obtain ⟨result, engine'⟩ := ended
  cases result with
  | ok _ => exact htouches
  | error error => exact htouches

end Engine

end Linkage
