import Linkage.Proofs.Engine.Fencing
import Mathlib.Data.Finset.Card

/-!
# Walks end by themselves

The walk over a graph takes a number that bounds how many modules can be walked at once, and an
engine begins it with a number that is never used up: the modules being walked are registered and no
two are the same, so there are no more of them than can come to be registered.  `Attempt.Visits` is the walk
without any such number; it is given by finite derivations, so a walk that follows it ends.

* `Attempt.Visits`, `Attempt.Builds` : the walk and the building of a graph, without a bound.
* `Attempt.visits_walk`, `Attempt.builds_of_confines` : what engines do is that.
-/

namespace Linkage

/-- Only these modules can be named, and they are no more than the host says. -/
def Config.Confines (config : Config) (host : Host) (ids : List ModuleId) : Prop :=
  ids.length ≤ host.size ∧ ∀ resolved, config.Names host resolved → resolved.id ∈ ids

/-- Only modules that exist can be named. -/
theorem Host.Covers.confines {host : Host} {ids : List ModuleId} (hcovers : host.Covers ids)
    (config : Config) : config.Confines host ids :=
  ⟨hcovers.1, fun resolved hnames => hcovers.2 resolved.id hnames.held.1⟩

namespace Attempt

/-- The walk over what is left of the modules that one module asks for.  `above` are the modules
being walked, this one included. -/
inductive Visits : List ModuleId → ModuleId → List ModuleId → Graph → Engine →
    Except ModuleError Graph × Engine → Prop
  /-- All have been visited. -/
  | done {above id graph engine} : Visits above id [] graph engine (.ok graph, engine)
  /-- A module that is being walked closes a cycle. -/
  | cycle {above id dependency rest graph engine ended} (habove : dependency ∈ above)
      (hrest : Visits above id rest (graph.closeCycle id dependency) engine ended) :
      Visits above id (dependency :: rest) graph engine ended
  /-- A module that is listed is passed by. -/
  | listed {above id dependency rest graph engine ended} (habove : dependency ∉ above)
      (hlisted : dependency ∈ graph.order) (hrest : Visits above id rest graph engine ended) :
      Visits above id (dependency :: rest) graph engine ended
  /-- A module without a record ends the walk. -/
  | missing {above id dependency rest graph engine error} (habove : dependency ∉ above)
      (hlisted : dependency ∉ graph.order)
      (hmissing : (engine.attempt (registered dependency)).1 = .error error) :
      Visits above id (dependency :: rest) graph engine (.error error, engine)
  /-- A settled module is listed as it is. -/
  | leaf {above id dependency rest graph engine ended ref record} (habove : dependency ∉ above)
      (hlisted : dependency ∉ graph.order)
      (hregistered : engine.store.Registered dependency ref record)
      (hsettled : record.status.isSettled = true)
      (hrest : Visits above id rest (graph.list dependency record.requested) engine ended) :
      Visits above id (dependency :: rest) graph engine ended
  /-- A module that cannot be analyzed ends the walk. -/
  | fault {above id dependency rest graph engine engine' ref record error}
      (habove : dependency ∉ above) (hlisted : dependency ∉ graph.order)
      (hregistered : engine.store.Registered dependency ref record)
      (hunsettled : record.status.isSettled = false)
      (hanalyze : engine.attempt (analyze ref record) = (.error error, engine')) :
      Visits above id (dependency :: rest) graph engine (.error error, engine')
  /-- A module is walked over, and listed after all it asks for. -/
  | down {above id dependency rest further graph graph' engine engine' engine'' ended ref record}
      (habove : dependency ∉ above) (hlisted : dependency ∉ graph.order)
      (hregistered : engine.store.Registered dependency ref record)
      (hunsettled : record.status.isSettled = false)
      (hanalyze : engine.attempt (analyze ref record) = (.ok further, engine'))
      (hbelow : Visits (dependency :: above) dependency further graph engine' (.ok graph', engine''))
      (hrest : Visits above id rest (graph'.list dependency further) engine'' ended) :
      Visits above id (dependency :: rest) graph engine ended
  /-- A walk that fails ends the walks above it. -/
  | stop {above id dependency rest further graph engine engine' engine'' ref record error}
      (habove : dependency ∉ above) (hlisted : dependency ∉ graph.order)
      (hregistered : engine.store.Registered dependency ref record)
      (hunsettled : record.status.isSettled = false)
      (hanalyze : engine.attempt (analyze ref record) = (.ok further, engine'))
      (hbelow : Visits (dependency :: above) dependency further graph engine'
        (.error error, engine'')) :
      Visits above id (dependency :: rest) graph engine (.error error, engine'')

/-- The building of a graph. -/
inductive Builds (root : ModuleId) (engine : Engine) : Except ModuleError Graph × Engine → Prop
  /-- The root has no record. -/
  | missing {error : ModuleError} (hmissing : (engine.attempt (registered root)).1 = .error error) :
      Builds root engine (.error error, engine)
  /-- The root cannot be analyzed. -/
  | fault {engine' : Engine} {ref : RecordRef} {record : Record} {error : ModuleError}
      (hregistered : engine.store.Registered root ref record)
      (hanalyze : engine.attempt (analyze ref record) = (.error error, engine')) :
      Builds root engine (.error error, engine')
  /-- What the root asks for is walked over, and the root is listed last. -/
  | walked {engine' : Engine} {ref : RecordRef} {record : Record} {dependencies : List ModuleId}
      {ended : Except ModuleError Graph × Engine}
      (hregistered : engine.store.Registered root ref record)
      (hanalyze : engine.attempt (analyze ref record) = (.ok dependencies, engine'))
      (hvisits : Visits [root] root dependencies (.empty root) engine' ended) :
      Builds root engine (ended.1.map (·.list root dependencies), ended.2)

variable {config : Config} {host : Host} {ids : List ModuleId} {engine : Engine}

/-- The modules of a list that are being walked are no more than there are modules. -/
theorem length_above_le {above : List ModuleId} (hnodup : above.Nodup) (hsub : above ⊆ ids) :
    above.length ≤ ids.length :=
  (List.subperm_of_subset hnodup hsub).length_le

/-- One dependency of a walk: what it does to the graph so far. -/
def visit (fuel : Nat) (above : List ModuleId) (id : ModuleId) (graph : Graph)
    (dependency : ModuleId) : Attempt Graph := do
  if dependency ∈ above then return graph.closeCycle id dependency
  else if dependency ∈ graph.order then return graph
  else
    let (ref, record) ← registered dependency
    if record.status.isSettled then return graph.list dependency record.requested
    else
      let further ← analyze ref record
      walk fuel (dependency :: above) dependency further graph

theorem walk_succ (fuel : Nat) (above : List ModuleId) (id : ModuleId)
    (dependencies : List ModuleId) (graph : Graph) :
    walk (fuel + 1) above id dependencies graph = (do
      let graph ← dependencies.foldlM (visit fuel above id) graph
      return graph.list id dependencies) := rfl

/-- One dependency and then the rest of a walk. -/
theorem visits_cons {fuel : Nat} {above : List ModuleId} {id dependency : ModuleId}
    {rest : List ModuleId} {graph : Graph} (hfenced : engine.Fenced config host ids)
    (hdown : ∀ ref record, engine.store.Registered dependency ref record → dependency ∉ above →
      ∀ further engine', engine'.Fenced config host ids →
        ∃ ended, Visits (dependency :: above) dependency further graph engine' ended ∧
          engine'.attempt (walk fuel (dependency :: above) dependency further graph) =
            (ended.1.map (·.list dependency further), ended.2))
    (hrest : ∀ (graph : Graph) (engine' : Engine), engine'.Fenced config host ids →
      Visits above id rest graph engine' (engine'.attempt (rest.foldlM (visit fuel above id) graph))) :
    Visits above id (dependency :: rest) graph engine
      (engine.attempt ((dependency :: rest).foldlM (visit fuel above id) graph)) := by
  have htaught := (Engine.taughtAhead_fenced config host ids).toTaught
  rw [List.foldlM_cons, Engine.attempt_bind]
  unfold visit
  by_cases habove : dependency ∈ above
  · rw [if_pos habove]
    exact .cycle habove (hrest _ engine hfenced)
  rw [if_neg habove]
  by_cases hlisted : dependency ∈ graph.order
  · rw [if_pos hlisted]
    exact .listed habove hlisted (hrest graph engine hfenced)
  rw [if_neg hlisted, Engine.attempt_bind]
  rcases engine.attempt_registered_cases dependency with
    ⟨ref, record, hregistered⟩ | ⟨error, hmissing⟩
  · rw [Engine.attempt_registered hregistered]
    dsimp only
    cases hsettled : record.status.isSettled with
    | true => exact .leaf habove hlisted hregistered hsettled (hrest _ engine hfenced)
    | false =>
        have hkept := (htaught.analyze ref record).after ⟨hfenced, hregistered.record⟩
        rw [if_neg (by simp), Engine.attempt_bind]
        cases hanalyze : engine.attempt (analyze ref record) with
        | mk result engine' =>
            rw [hanalyze] at hkept
            cases result with
            | error error => exact .fault habove hlisted hregistered hsettled hanalyze
            | ok further =>
                obtain ⟨⟨result, engine''⟩, hbelow, hwalked⟩ :=
                  hdown ref record hregistered habove further engine' hkept
                have hkept' := (htaught.keeps_walk fuel (dependency :: above) dependency further
                  graph).after hkept
                rw [hwalked] at hkept'
                dsimp only
                rw [hwalked]
                cases result with
                | error error => exact .stop habove hlisted hregistered hsettled hanalyze hbelow
                | ok graph' =>
                    exact .down habove hlisted hregistered hsettled hanalyze hbelow
                      (hrest _ engine'' hkept')
  · rw [hmissing]
    exact .missing habove hlisted (by rw [hmissing])

/-- **A walk that may go as deep as there are modules left is a walk without a bound.** -/
theorem visits_walk (fuel : Nat) (above : List ModuleId) (id : ModuleId)
    (dependencies : List ModuleId) (graph : Graph) (hnodup : above.Nodup) (habove : above ⊆ ids)
    (hfuel : ids.length ≤ fuel + above.length) (hfenced : engine.Fenced config host ids) :
    Visits above id dependencies graph engine
      (engine.attempt (dependencies.foldlM (visit fuel above id) graph)) := by
  -- on the fuel, since one more module is being walked each time there is one less of it
  induction fuel generalizing above id dependencies graph engine with
  | zero =>
      induction dependencies generalizing graph engine with
      | nil => exact .done
      | cons dependency rest ih =>
          refine visits_cons hfenced (fun ref record hregistered hfresh => ?_)
            (fun graph engine' hfenced' => ih graph hfenced')
          -- no module is left that could be walked
          have hlength := length_above_le (List.nodup_cons.mpr ⟨hfresh, hnodup⟩)
            (List.cons_subset.mpr
              ⟨hfenced.registered dependency ref hregistered.lookup, habove⟩)
          rw [List.length_cons] at hlength
          omega
  | succ fuel ihfuel =>
      induction dependencies generalizing graph engine with
      | nil => exact .done
      | cons dependency rest ih =>
          refine visits_cons hfenced (fun ref record hregistered hfresh further engine' hfenced' => ?_)
            (fun graph engine' hfenced' => ih graph hfenced')
          have hbelow := ihfuel (dependency :: above) dependency further graph
            (List.nodup_cons.mpr ⟨hfresh, hnodup⟩)
            (List.cons_subset.mpr
              ⟨hfenced.registered dependency ref hregistered.lookup, habove⟩)
            (by rw [List.length_cons]; omega) hfenced'
          refine ⟨_, hbelow, ?_⟩
          rw [walk_succ, Engine.attempt_bind]
          generalize engine'.attempt (further.foldlM _ graph) = ended
          obtain ⟨result, engine''⟩ := ended
          cases result <;> rfl

/-- **The building of a graph never uses up the number it begins with**, whatever the engine has
registered or remembers. -/
theorem builds_of_confines (hconfines : engine.config.Confines engine.host ids) (root : ModuleId) :
    Builds root engine (engine.attempt (buildGraph root)) := by
  unfold buildGraph
  rw [Engine.attempt_bind]
  rcases engine.attempt_registered_cases root with ⟨ref, record, hregistered⟩ | ⟨error, hmissing⟩
  · -- the number is taken once the root is analyzed, still over the same host
    obtain ⟨_, -, hfenced⟩ := engine.exists_fenced hconfines
    have htouches := (meets_analyze engine rfl hregistered.record).touches
    have hkept := ((Engine.taughtAhead_fenced _ _ _).analyze ref record).after
      ⟨hfenced, hregistered.record⟩
    rw [Engine.attempt_registered hregistered]
    dsimp only
    rw [Engine.attempt_bind]
    cases hanalyze : engine.attempt (analyze ref record) with
    | mk result engine' =>
        rw [hanalyze] at hkept htouches
        cases result with
        | error error => exact .fault hregistered hanalyze
        | ok dependencies =>
            dsimp only
            rw [Engine.attempt_bind, Engine.attempt_get]
            dsimp only
            rw [← hkept.settings, ← hkept.place] at hconfines
            obtain ⟨all, hlength, hfenced'⟩ := engine'.exists_fenced hconfines
            obtain ⟨fuel, hfuel⟩ : ∃ fuel, engine'.reach = fuel + 1 := ⟨_, rfl⟩
            have hlookup := Store.touches_lookup htouches hregistered.lookup
            have hvisits := visits_walk fuel [root] root dependencies (.empty root)
              (List.nodup_singleton root)
              (List.cons_subset.mpr ⟨hfenced'.registered root ref hlookup, List.nil_subset _⟩)
              (by rw [List.length_singleton]; omega) hfenced'
            have hbuilds := Builds.walked hregistered hanalyze hvisits
            rw [hfuel, walk_succ, Engine.attempt_bind]
            generalize engine'.attempt (dependencies.foldlM _ _) = ended at hbuilds
            obtain ⟨result, engine''⟩ := ended
            cases result <;> exact hbuilds
  · rw [hmissing]
    exact .missing (by rw [hmissing])

/-- So it is if all that the engine has is from its host. -/
theorem builds_buildGraph (hconfines : config.Confines host ids) (hhoused : engine.Housed config host)
    (root : ModuleId) : Builds root engine (engine.attempt (buildGraph root)) := by
  obtain rfl := hhoused.settings
  obtain rfl := hhoused.place
  exact builds_of_confines hconfines root

end Attempt

end Linkage
