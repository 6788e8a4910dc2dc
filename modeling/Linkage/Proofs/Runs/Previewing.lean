import Linkage.Proofs.Engine.Enriching
import Linkage.Proofs.Runs.Repeating

/-!
# Looking at a graph first

To ask for the graph of an entry, and not to evaluate it, leaves all modules where they are.  What the
engine learns on the way it would have learnt anyway when the entry is evaluated, and an attempt that
fails fails in the same way again.  So the graph can be looked at first, and nothing comes of it.

* `Engine.Completes` : the graph of an entry is built to its end.
* `Engine.attempt_graphOf_again` : the graph is built again, and nothing is learnt.
* `Machine.enterEvaluate_of_graphed` : evaluating the entry afterwards is evaluating it at once.
* `Machine.graph_is_only_looked_at` : what asking for a graph comes to, in every state.
-/

namespace Linkage

namespace Engine

open Attempt

variable {engine : Engine} {specifier : String}

/-- The graph of an entry is built to its end, unless the entry cannot be resolved. -/
def Completes (engine : Engine) (specifier : String) : Prop :=
  ∀ resolved ref between,
    engine.attempt (resolveAndRegister specifier none) = (.ok (resolved, ref), between) →
      Builds resolved.id between (between.attempt (buildGraph resolved.id))

/-- Over a host with finitely many modules every graph is built to its end. -/
theorem completes_of_confines {ids : List ModuleId}
    (hconfines : engine.config.Confines engine.host ids) (specifier : String) :
    engine.Completes specifier := by
  intro resolved ref between hresolved
  obtain ⟨_, -, hfenced⟩ := engine.exists_fenced hconfines
  have hkept := (keeps_fenced_register _ _ _ specifier none).after hfenced
  rw [hresolved] at hkept
  have hbetween : between.config.Confines between.host ids := by
    rw [hkept.settings, hkept.place]
    exact hconfines
  exact builds_of_confines hbetween resolved.id

/-- The graph of an entry is that of the module it names. -/
theorem attempt_graphOf (engine : Engine) (specifier : String) :
    engine.attempt (graphOf specifier) =
      match engine.attempt (resolveAndRegister specifier none) with
      | (.error error, between) => (.error error, between)
      | (.ok (resolved, _), between) => between.attempt (buildGraph resolved.id) := by
  unfold graphOf
  rw [attempt_bind]
  generalize engine.attempt (resolveAndRegister specifier none) = ended
  obtain ⟨result, between⟩ := ended
  cases result with
  | error error => rfl
  | ok found => rfl

variable (hread : engine.store.SettledAnalyzed)
include hread

/-- A graph that has been built to its end is built again, and nothing is learnt. -/
theorem buildGraph_again {root : ModuleId} {ended : Except ModuleError Graph × Engine}
    (hbuilds : Builds root engine ended) :
    ended.2.attempt (buildGraph root) = ended := by
  obtain ⟨result, hagain, -, hequal⟩ := hbuilds.repeated (.refl ended)
  rw [hagain, hequal hread]

/-- To resolve an entry and to build its graph is to find both done, once both have been done. -/
theorem again_of_completes (hcompletes : engine.Completes specifier) {resolved : Resolved}
    {ref : RecordRef} {between : Engine}
    (hresolved : engine.attempt (resolveAndRegister specifier none) =
      (.ok (resolved, ref), between)) :
    (between.attempt (buildGraph resolved.id)).2.attempt (resolveAndRegister specifier none) =
        (.ok (resolved, ref), (between.attempt (buildGraph resolved.id)).2) ∧
      (between.attempt (buildGraph resolved.id)).2.attempt (buildGraph resolved.id) =
        between.attempt (buildGraph resolved.id) := by
  have hbuilds := hcompletes resolved ref between hresolved
  have htouches := (quiet_resolveAndRegister specifier none).touches engine
  rw [hresolved] at htouches
  obtain ⟨hknown, hlookup⟩ := known_of_resolveAndRegister hresolved
  refine ⟨?_, buildGraph_again (Store.settledAnalyzed_lasting.touches htouches hread) hbuilds⟩
  exact attempt_resolveAndRegister_of_known (hbuilds.recalls.resolver _ _ _ hknown)
    (hbuilds.recalls.lookup _ _ hlookup)

/-- **The same graph, or the same error,** comes of asking again, and nothing is learnt. -/
theorem attempt_graphOf_again (hcompletes : engine.Completes specifier) :
    (engine.attempt (graphOf specifier)).2.attempt (graphOf specifier) =
      engine.attempt (graphOf specifier) := by
  rw [engine.attempt_graphOf]
  cases hresolved : engine.attempt (resolveAndRegister specifier none) with
  | mk result between =>
      cases result with
      | error error =>
          have hagain := (repeats_resolveAndRegister specifier none engine).2 _ (.refl _)
          rw [hresolved] at hagain
          dsimp only at hagain ⊢
          rw [attempt_graphOf, hagain]
      | ok found =>
          obtain ⟨resolved, ref⟩ := found
          obtain ⟨hagain, hbuilt⟩ := again_of_completes hread hcompletes hresolved
          dsimp only
          rw [attempt_graphOf, hagain]
          exact hbuilt

end Engine

/-- In every state of every run, what is settled has been analyzed. -/
theorem Store.Closed.settledAnalyzed {store : Store} (hclosed : store.Closed) :
    store.SettledAnalyzed := by
  intro ref record hrecord hsettled
  exact ((hclosed.coherent ref record hrecord).linked
    (Status.hasLinked_of_isSettled hsettled)).analyzed

namespace Machine

open Attempt

variable {session : Session} {specifier : String}

/-- A run begins in the same way with any two engines that build the same graph. -/
theorem enterRun_of_built {engine other : Engine} {root : ModuleId}
    (hagain : engine.attempt (buildGraph root) = other.attempt (buildGraph root))
    (session : Session) (stack : List Frame) :
    enterRun { session with engine := engine } stack root =
      enterRun { session with engine := other } stack root := by
  have hprepared : engine.attempt (prepare root) = other.attempt (prepare root) := by
    unfold prepare
    rw [Engine.attempt_bind, Engine.attempt_bind, hagain]
  unfold enterRun Session.attempt
  dsimp only
  rw [hprepared]

/-- **Evaluating an entry after looking at its graph** is evaluating it at once. -/
theorem enterEvaluate_of_graphed (hread : session.store.SettledAnalyzed)
    (hcompletes : session.engine.Completes specifier) (stack : List Frame) :
    enterEvaluate { session with engine := (session.engine.attempt (graphOf specifier)).2 } stack
      specifier none = enterEvaluate session stack specifier none := by
  rw [session.engine.attempt_graphOf]
  unfold enterEvaluate Session.attempt
  dsimp only
  cases hresolved : session.engine.attempt (resolveAndRegister specifier none) with
  | mk result between =>
      cases result with
      | error error =>
          have hagain := (repeats_resolveAndRegister specifier none session.engine).2 _ (.refl _)
          rw [hresolved] at hagain
          dsimp only at hagain ⊢
          rw [hagain]
      | ok found =>
          obtain ⟨resolved, ref⟩ := found
          obtain ⟨hagain, hbuilt⟩ := Engine.again_of_completes hread hcompletes hresolved
          dsimp only
          rw [hagain]
          exact enterRun_of_built hbuilt session _

/-- **To ask for a graph is only to look.**  In every state of every run, over whatever host, and
whether it gives the graph or an error: no body begins, and more is known of the modules, but nothing
else has changed, no status, environment, error or exports value.  If the graph is built to its end, as
it is over every host with finitely many modules, then asking again gives the same answer and changes
nothing; and evaluating the entry afterwards is what it would be without the question, from the first
step to the last, with the same bodies, statuses and errors. -/
theorem graph_is_only_looked_at (place : Place) (config : Config) (acts : List Act)
    (specifier : String) (queries : List ModuleId) (save? : Option String) :
    let session := ((new place config).perform acts).session
    let graphed := (session.answer (.graph specifier queries) save?).2
    (((idle session).act (.call (.graph specifier queries) save?) = idle graphed ∧
        (idle session).bodies [.call (.graph specifier queries) save?] = []) ∧
      ∀ stack, (enterCommand session stack (.graph specifier queries) save?).stack = stack) ∧
    (session.store.Enriches graphed.store ∧
      graphed = { session with engine := { session.engine with
        resolver := graphed.engine.resolver
        store := graphed.store
        loads := graphed.engine.loads } }) ∧
    (session.engine.Completes specifier →
      graphed.answer (.graph specifier queries) save? =
          session.answer (.graph specifier queries) save? ∧
        graphed.evaluate specifier none = session.evaluate specifier none ∧
        ∀ keep? others,
          (idle graphed).perform (.call (.evaluate specifier none) keep? :: others) =
              (idle session).perform (.call (.evaluate specifier none) keep? :: others) ∧
            (idle graphed).bodies (.call (.evaluate specifier none) keep? :: others) =
              (idle session).bodies (.call (.evaluate specifier none) keep? :: others)) := by
  intro session graphed
  have hread := (closed_perform place config acts).settledAnalyzed
  have hgraphed : graphed =
      { session with engine := (session.engine.attempt (graphOf specifier)).2 } := rfl
  have henriched := ((Engine.taught_enriched session.engine).keeps_graphOf specifier).after (.refl _)
  refine ⟨⟨⟨rfl, ?_⟩, fun _ => rfl⟩, ⟨henriched.store.enriches, ?_⟩, fun hcompletes => ?_⟩
  · exact (List.append_nil _).trans (beyond_self _)
  · rw [hgraphed]
    dsimp only
    exact congrArg (fun engine => { session with engine }) henriched.frame
  · have hagain := Engine.attempt_graphOf_again hread hcompletes
    have henters := enterEvaluate_of_graphed hread hcompletes
    refine ⟨?_, ?_, fun keep? others => ?_⟩
    · rw [hgraphed]
      unfold Session.answer Session.attempt
      dsimp only
      rw [hagain]
    · unfold Session.evaluate
      rw [hgraphed, henters []]
    · have hbegun : (idle graphed).act (.call (.evaluate specifier none) keep?) =
          (idle session).act (.call (.evaluate specifier none) keep?) := by
        rw [hgraphed]
        exact henters []
      refine ⟨congrArg (perform · others) hbegun, ?_⟩
      unfold bodies begins
      rw [hbegun]
      rfl

/-- The graph of a module that cannot be linked is built, and then the linking fails as if nobody had
asked for the graph. -/
theorem graph_is_only_looked_at_torn :
    let session := ((new (.shelf torn) .standard).perform []).session
    let graphed := (session.answer (.graph "/left.mjs" []) none).2
    session.store.size = 0 ∧ graphed.store.size = 2 ∧ session.store.Enriches graphed.store ∧
      graphed.answer (.graph "/left.mjs" []) none = session.answer (.graph "/left.mjs" []) none ∧
      graphed.evaluate "/left.mjs" none = session.evaluate "/left.mjs" none := by
  intro session graphed
  have hcompletes : session.engine.Completes "/left.mjs" :=
    Engine.completes_of_confines ((Shelf.covers torn).confines .standard) "/left.mjs"
  have hlooked := graph_is_only_looked_at (.shelf torn) .standard [] "/left.mjs" [] none
  obtain ⟨hagain, hequal, -⟩ := hlooked.2.2 hcompletes
  exact ⟨rfl, by decide +kernel, hlooked.2.1.1, hagain, hequal⟩

end Machine

end Linkage
