import Linkage.Proofs.Engine.DepthFirst
import Linkage.Proofs.Runs.Closure
import Mathlib.Data.List.Nodup
import Mathlib.Data.List.Perm.Subperm

/-!
# The graph of a module that is linked

Whatever a linked module leads to is analyzed and linked, so its graph is built again without asking
the host and without changing anything, and nothing is left to link.  The walk goes down no further
than there are registered modules, so it does not run out of fuel.

* `Store.attempt_walk_of_ready` : a walk among modules that are ready.
* `Machine.enterRun_of_ready` : a run of a module that is ready begins at once, with nothing changed.
-/

namespace Linkage

namespace Engine

/-- An attempt that succeeds and changes nothing, and then another. -/
theorem attempt_bind_of_still {α β : Type} {engine : Engine} {x : Attempt α} {f : α → Attempt β}
    (fact : α → Prop) {fact' : β → Prop}
    (hfirst : ∃ value, engine.attempt x = (.ok value, engine) ∧ fact value)
    (hthen : ∀ value, fact value →
      ∃ value', engine.attempt (f value) = (.ok value', engine) ∧ fact' value') :
    ∃ value', engine.attempt (x >>= f) = (.ok value', engine) ∧ fact' value' := by
  obtain ⟨value, hvalue, hfact⟩ := hfirst
  rw [attempt_bind, hvalue]
  exact hthen value hfact

/-- A fold of attempts that all succeed and change nothing. -/
theorem attempt_foldlM_of_still {α β : Type} {engine : Engine} {f : β → α → Attempt β}
    {fact : β → Prop} (items : List α) (start : β) (hstart : fact start)
    (hstep : ∀ item ∈ items, ∀ value, fact value → ∃ value',
      engine.attempt (f value item) = (.ok value', engine) ∧ fact value') :
    ∃ value, engine.attempt (items.foldlM f start) = (.ok value, engine) ∧ fact value := by
  induction items generalizing start with
  | nil => exact ⟨start, rfl, hstart⟩
  | cons item rest ih =>
      obtain ⟨value, hvalue, hfact⟩ := hstep item List.mem_cons_self start hstart
      obtain ⟨value', hvalue', hfact'⟩ :=
        ih value hfact (fun other hother => hstep other (List.mem_cons_of_mem _ hother))
      refine ⟨value', ?_, hfact'⟩
      rw [List.foldlM_cons, attempt_bind, hvalue]
      exact hvalue'

end Engine

namespace Store

variable {engine : Engine} {id : ModuleId}

/-- What a module that is ready depends on is ready. -/
theorem Closed.ready_of_dependencies {store : Store} (hclosed : store.Closed) {ref : RecordRef}
    {record : Record} (hregistered : store.Registered id ref record)
    (hlinked : record.format = .modern → record.status.hasLinked = true) {dependency : ModuleId}
    (hdependency : dependency ∈ record.dependencies) : store.Ready dependency := by
  unfold Record.dependencies at hdependency
  split at hdependency
  · rename_i hmodern
    exact hclosed.ready id ref record hregistered hmodern (hlinked hmodern) dependency hdependency
  · cases hdependency

/-- A walk among modules that are ready succeeds, lists only such modules and changes nothing. -/
theorem attempt_walk_of_ready (hclosed : engine.store.Closed) (fuel : Nat) (above : List ModuleId)
    (id : ModuleId) (dependencies : List ModuleId) (graph : Graph)
    (hdependencies : ∀ dependency ∈ dependencies, engine.store.Ready dependency)
    (hid : engine.store.Ready id) (hlisted : ∀ other ∈ graph.order, engine.store.Ready other)
    (hnodup : above.Nodup) (hknown : above ⊆ engine.store.ids)
    (hfuel : engine.store.size < fuel + above.length) :
    ∃ graph', engine.attempt (Attempt.walk fuel above id dependencies graph) = (.ok graph', engine) ∧
      ∀ other ∈ graph'.order, engine.store.Ready other := by
  -- on the fuel: each module walked further down is another registered one
  induction fuel generalizing above id dependencies graph with
  | zero =>
      have hlength := (hnodup.subperm hknown).length_le
      rw [length_ids] at hlength
      omega
  | succ fuel ih =>
      have hlist : ∀ {graph : Graph} {other : ModuleId} (further : List ModuleId),
          (∀ id ∈ graph.order, engine.store.Ready id) → engine.store.Ready other →
          ∀ id ∈ (graph.list other further).order, engine.store.Ready id := by
        intro graph other further hgraph hother id hmem
        rcases List.mem_append.mp hmem with hbefore | hlast
        · exact hgraph id hbefore
        · rwa [List.mem_singleton.mp hlast]
      unfold Attempt.walk
      refine Engine.attempt_bind_of_still
        (fun graph' => ∀ other ∈ graph'.order, engine.store.Ready other) ?_ ?_
      · refine Engine.attempt_foldlM_of_still dependencies graph hlisted ?_
        intro dependency hdependency graph hgraph
        split
        · exact ⟨_, rfl, hgraph⟩
        · rename_i hcycle
          split
          · exact ⟨graph, rfl, hgraph⟩
          · have hself := hdependencies dependency hdependency
            obtain ⟨ref, record, hregistered, hanalyzed, hlinked⟩ := hself
            rw [Engine.attempt_bind, Engine.attempt_registered hregistered]
            dsimp only
            split
            · exact ⟨_, rfl, hlist _ hgraph (hdependencies dependency hdependency)⟩
            · rw [Engine.attempt_bind, Engine.attempt_analyze_of_analyzed engine ref hanalyzed]
              dsimp only
              refine ih (dependency :: above) dependency record.dependencies graph
                (fun _ => hclosed.ready_of_dependencies hregistered hlinked)
                (hdependencies dependency hdependency) hgraph
                (List.nodup_cons.mpr ⟨hcycle, hnodup⟩) ?_ ?_
              · exact List.cons_subset.mpr ⟨hregistered.mem_ids, hknown⟩
              · rw [List.length_cons]
                omega
      · intro graph' hready
        exact ⟨_, rfl, hlist _ hready hid⟩

/-- The graph of a module that is ready lists only such modules and changes nothing. -/
theorem attempt_buildGraph_of_ready (hclosed : engine.store.Closed)
    (hready : engine.store.Ready id) :
    ∃ graph, engine.attempt (Attempt.buildGraph id) = (.ok graph, engine) ∧
      ∀ other ∈ graph.order, engine.store.Ready other := by
  have hself := hready
  obtain ⟨ref, record, hregistered, hanalyzed, hlinked⟩ := hself
  unfold Attempt.buildGraph
  rw [Engine.attempt_bind, Engine.attempt_registered hregistered]
  dsimp only
  rw [Engine.attempt_bind, Engine.attempt_analyze_of_analyzed engine ref hanalyzed]
  dsimp only
  rw [Engine.attempt_bind, Engine.attempt_get]
  dsimp only
  refine attempt_walk_of_ready hclosed engine.reach [id] id record.dependencies (.empty id)
    (fun _ => hclosed.ready_of_dependencies hregistered hlinked) hready
    (fun _ hnone => absurd hnone List.not_mem_nil) (List.nodup_singleton id) ?_ ?_
  · exact List.cons_subset.mpr ⟨hregistered.mem_ids, List.nil_subset _⟩
  · unfold Engine.reach
    rw [List.length_singleton]
    omega

/-- Nothing is left to link among modules that are ready. -/
theorem link_of_ready {store : Store} {order : List ModuleId}
    (hready : ∀ id ∈ order, store.Ready id) : store.link order = (.ok (), store) := by
  have hpending : store.pendingLinks order = [] := by
    refine List.eq_nil_iff_forall_not_mem.mpr (fun ref hmem => ?_)
    obtain ⟨id, hid, record, hregistered, hmodern, hunlinked⟩ := mem_pendingLinks.mp hmem
    obtain ⟨_, _, hfound, -, hlinked⟩ := hready id hid
    obtain ⟨rfl, rfl⟩ := hregistered.unique hfound
    have hnot := hlinked hmodern
    rw [hunlinked] at hnot
    cases hnot
  unfold link
  rw [hpending]
  rfl

end Store

namespace Machine

/-- A run of a module that is ready begins at once: nothing has to be loaded or linked. -/
theorem enterRun_of_ready {session : Session} {id : ModuleId} (hclosed : session.store.Closed)
    (hready : session.store.Ready id) :
    ∃ graph : Graph, graph.root = id ∧ (∀ other ∈ graph.order, session.store.Ready other) ∧
      session.engine.attempt (Attempt.buildGraph id) = (.ok graph, session.engine) ∧
      ∀ stack, enterRun session stack id =
        ⟨session, .pass graph.order :: .settle graph.root :: stack, .go⟩ := by
  obtain ⟨graph, hbuilt, horder⟩ := Store.attempt_buildGraph_of_ready hclosed hready
  obtain ⟨-, hroot, -⟩ := Engine.explored_of_buildGraph hbuilt
  refine ⟨graph, hroot, horder, hbuilt, fun stack => ?_⟩
  have hprepared := attempt_prepare session.engine id
  rw [hbuilt] at hprepared
  dsimp only at hprepared
  rw [Store.link_of_ready horder] at hprepared
  unfold enterRun Session.attempt
  rw [hprepared, hroot]
  rfl

end Machine

end Linkage
