import Linkage.Proofs.Engine.Walking

/-!
# The course of a walk

What a walk does depends on the store only through what stays as it is while modules are loaded and
analyzed.  So its course can be told in the store in which it ends.

* `Store.Expanded`, `Store.Leaf` : what a graph makes of a module.
* `Store.Traverses` : the course of a walk, as a relation between the graphs before and after.
* `Attempt.meets_buildGraph_traverses` : every graph comes of such a walk.
-/

namespace Linkage

/-- Nothing is depended on twice. -/
theorem Record.nodup_dependencies (record : Record) : record.dependencies.Nodup := by
  unfold Record.dependencies Record.requested
  cases record.format with
  | legacy => exact .nil
  | modern =>
      cases record.analysis? with
      | none => exact .nil
      | some analysis => exact analysis.requested_nodup

namespace Store

/-- A module that a graph expands, the root or one that is not settled, with all it depends on. -/
def Expanded (store : Store) (root id : ModuleId) (dependencies : List ModuleId) : Prop :=
  ∃ ref record, store.Registered id ref record ∧
    (id = root ∨ record.status.isSettled = false) ∧ record.analysis?.isSome ∧
    dependencies = record.dependencies

/-- A module that a graph does not expand. -/
def Leaf (store : Store) (root id : ModuleId) : Prop :=
  ∃ ref record, store.Registered id ref record ∧ id ≠ root ∧ record.status.isSettled = true

/-- An edge of the graph of a root. -/
def Edge (store : Store) (root id dependency : ModuleId) : Prop :=
  ∃ dependencies, store.Expanded root id dependencies ∧ dependency ∈ dependencies

/-- How a walk comes from one graph to the next, in the store in which it ends: `id` is the module
that is walked, `outer` are those within which it is walked, and the list is what is still to be
looked at of what it depends on. -/
inductive Traverses (store : Store) (root : ModuleId) :
    List ModuleId → ModuleId → List ModuleId → Graph → Graph → Prop
  | done (outer : List ModuleId) (id : ModuleId) (graph : Graph) :
      Traverses store root outer id [] graph graph
  | cycle {outer : List ModuleId} {id dependency : ModuleId} {rest : List ModuleId}
      {graph graph' : Graph} (hcycle : dependency ∈ id :: outer)
      (hrest : Traverses store root outer id rest (graph.closeCycle id dependency) graph') :
      Traverses store root outer id (dependency :: rest) graph graph'
  | listed {outer : List ModuleId} {id dependency : ModuleId} {rest : List ModuleId}
      {graph graph' : Graph} (hlisted : dependency ∈ graph.order)
      (hrest : Traverses store root outer id rest graph graph') :
      Traverses store root outer id (dependency :: rest) graph graph'
  | leaf {outer : List ModuleId} {id dependency : ModuleId} {rest : List ModuleId}
      {graph graph' : Graph} (requested : List ModuleId) (hcycle : dependency ∉ id :: outer)
      (hlisted : dependency ∉ graph.order) (hleaf : store.Leaf root dependency)
      (hrest : Traverses store root outer id rest (graph.list dependency requested) graph') :
      Traverses store root outer id (dependency :: rest) graph graph'
  | down {outer : List ModuleId} {id dependency : ModuleId} {rest further : List ModuleId}
      {graph middle graph' : Graph} (hcycle : dependency ∉ id :: outer)
      (hlisted : dependency ∉ graph.order) (hexpanded : store.Expanded root dependency further)
      (hdown : Traverses store root (id :: outer) dependency further graph middle)
      (hrest : Traverses store root outer id rest (middle.list dependency further) graph') :
      Traverses store root outer id (dependency :: rest) graph graph'

theorem Expanded.lasting (root id : ModuleId) (dependencies : List ModuleId) :
    Lasting (fun store => store.Expanded root id dependencies) := by
  rintro store store' htouch ⟨ref, record, hregistered, hopen, hanalyzed, rfl⟩
  obtain ⟨record', hregistered', htouched⟩ := htouch.registered hregistered
  refine ⟨ref, record', hregistered', ?_, ?_, (htouched.dependencies hanalyzed).symm⟩
  · rwa [htouched.status]
  · rwa [htouched.analyzed hanalyzed]

theorem Leaf.lasting (root id : ModuleId) : Lasting (fun store => store.Leaf root id) := by
  rintro store store' htouch ⟨ref, record, hregistered, hroot, hsettled⟩
  obtain ⟨record', hregistered', htouched⟩ := htouch.registered hregistered
  exact ⟨ref, record', hregistered', hroot, by rwa [htouched.status]⟩

theorem Traverses.lasting (root : ModuleId) (outer : List ModuleId) (id : ModuleId)
    (dependencies : List ModuleId) (graph graph' : Graph) :
    Lasting (fun store => store.Traverses root outer id dependencies graph graph') := by
  intro store store' htouch htraverses
  induction htraverses with
  | done outer id graph => exact .done outer id graph
  | cycle hcycle _ ih => exact .cycle hcycle ih
  | listed hlisted _ ih => exact .listed hlisted ih
  | leaf requested hcycle hlisted hleaf _ ih =>
      exact .leaf requested hcycle hlisted (Leaf.lasting _ _ _ _ htouch hleaf) ih
  | down hcycle hlisted hexpanded _ _ ihdown ihrest =>
      exact .down hcycle hlisted (Expanded.lasting _ _ _ _ _ htouch hexpanded) ihdown ihrest

theorem Traverses.cons {store : Store} {root : ModuleId} {outer rest : List ModuleId}
    {id dependency : ModuleId} {graph graph' graph'' : Graph}
    (hfirst : store.Traverses root outer id [dependency] graph graph')
    (hrest : store.Traverses root outer id rest graph' graph'') :
    store.Traverses root outer id (dependency :: rest) graph graph'' := by
  cases hfirst with
  | cycle hcycle hdone =>
      cases hdone
      exact .cycle hcycle hrest
  | listed hlisted hdone =>
      cases hdone
      exact .listed hlisted hrest
  | leaf requested hcycle hlisted hleaf hdone =>
      cases hdone
      exact .leaf requested hcycle hlisted hleaf hrest
  | down hcycle hlisted hexpanded hdown hdone =>
      cases hdone
      exact .down hcycle hlisted hexpanded hdown hrest

end Store

namespace Attempt

variable {host : Host}

/-- A walk goes along what a module depends on if each of its steps does. -/
theorem meets_traverse (root id : ModuleId) (outer : List ModuleId)
    {f : Graph → ModuleId → Attempt Graph} (hstep : ∀ graph dependency,
      Meets host (fun _ => True) (f graph dependency)
        (fun graph' store => store.Traverses root outer id [dependency] graph graph')
        (fun _ _ => True)) (dependencies : List ModuleId) (graph : Graph) :
    Meets host (fun _ => True) (dependencies.foldlM f graph)
      (fun graph' store => store.Traverses root outer id dependencies graph graph')
      (fun _ _ => True) := by
  induction dependencies generalizing graph with
  | nil => exact .pure (fun _ _ => .done outer id graph)
  | cons dependency rest ih =>
      rw [List.foldlM_cons]
      refine (hstep graph dependency).bind (fun middle => ?_)
      have hrest := (ih middle).frame
        (Store.Traverses.lasting root outer id [dependency] graph middle)
      exact hrest.imp (fun _ hfirst => ⟨trivial, hfirst⟩)
        (fun _ _ hpost => hpost.2.cons hpost.1) (fun _ _ _ => trivial)

/-- A module that is not settled is expanded once it is analyzed. -/
theorem meets_expand (root id : ModuleId) (ref : RecordRef) (record : Record)
    (hopen : id = root ∨ record.status.isSettled = false) :
    Meets host (fun store => store.Registered id ref record) (analyze ref record)
      (fun dependencies store => store.Expanded root id dependencies) (fun _ _ => True) := by
  have hlasting : Store.Lasting (fun store => ∃ record', store.Registered id ref record' ∧
      (id = root ∨ record'.status.isSettled = false)) := by
    rintro store store' htouch ⟨record', hregistered, hopen'⟩
    obtain ⟨record'', hregistered', htouched⟩ := htouch.registered hregistered
    exact ⟨record'', hregistered', by rwa [htouched.status]⟩
  refine ((meets_analyze_registered host id ref record).frame hlasting).imp
    (fun store hregistered => ⟨hregistered, record, hregistered, hopen⟩) ?_ (fun _ _ _ => trivial)
  rintro dependencies store ⟨⟨ref', found, hfound, hanalyzed, rfl⟩, record', hregistered, hopen'⟩
  obtain ⟨rfl, rfl⟩ := hfound.unique hregistered
  exact ⟨ref, record', hregistered, hopen', hanalyzed, rfl⟩

/-- A walk goes along all that its module depends on, and lists the module. -/
theorem meets_walk_traverses (root : ModuleId) (fuel : Nat) (outer : List ModuleId) (id : ModuleId)
    (dependencies : List ModuleId) (graph : Graph) (hroot : root ∈ id :: outer) :
    Meets host (fun _ => True) (walk fuel (id :: outer) id dependencies graph)
      (fun graph'' store => ∃ graph', store.Traverses root outer id dependencies graph graph' ∧
        graph'' = graph'.list id dependencies) (fun _ _ => True) := by
  induction fuel generalizing outer id dependencies graph with
  | zero => exact .throw (fun _ _ => trivial)
  | succ fuel ih =>
      unfold walk
      refine (meets_traverse root id outer ?_ dependencies graph).bind
        (fun graph' => .pure (fun store htraverses => ⟨graph', htraverses, rfl⟩))
      -- a dependency is being walked, is listed already, is a leaf, or is walked now
      intro graph dependency
      by_cases hcycle : dependency ∈ id :: outer
      · rw [if_pos hcycle]
        exact .pure (fun _ _ => .cycle hcycle (.done outer id _))
      rw [if_neg hcycle]
      by_cases hlisted : dependency ∈ graph.order
      · rw [if_pos hlisted]
        exact .pure (fun _ _ => .listed hlisted (.done outer id _))
      rw [if_neg hlisted]
      refine ((meets_registered dependency).imp (fun _ hpre => hpre) (fun _ _ hpost => hpost.2)
        (fun _ _ _ => trivial)).bind ?_
      rintro ⟨ref, record⟩
      dsimp only
      by_cases hsettled : record.status.isSettled = true
      · rw [if_pos hsettled]
        refine .pure (fun store hregistered => ?_)
        -- the root is being walked, so this is another module
        have hne : dependency ≠ root := fun hsame => hcycle (hsame ▸ hroot)
        exact .leaf record.requested hcycle hlisted ⟨ref, record, hregistered, hne, hsettled⟩
          (.done outer id _)
      · rw [if_neg hsettled]
        refine (meets_expand root dependency ref record (.inr (by simpa using hsettled))).bind
          (fun further => ?_)
        have hdown := (ih (id :: outer) dependency further graph
          (List.mem_cons_of_mem _ hroot)).frame (Store.Expanded.lasting root dependency further)
        refine hdown.imp (fun _ hexpanded => ⟨trivial, hexpanded⟩) ?_ (fun _ _ _ => trivial)
        rintro _ store ⟨⟨middle, htraverses, rfl⟩, hexpanded⟩
        exact .down hcycle hlisted hexpanded htraverses (.done outer id _)

/-- A graph comes of a walk that begins at the root with nothing listed. -/
theorem meets_buildGraph_traverses (root : ModuleId) :
    Meets host (fun _ => True) (buildGraph root)
      (fun graph store => ∃ dependencies graph', store.Expanded root root dependencies ∧
        store.Traverses root [] root dependencies (.empty root) graph' ∧
        graph = graph'.list root dependencies) (fun _ _ => True) := by
  unfold buildGraph
  refine ((meets_registered root).imp (fun _ hpre => hpre) (fun _ _ hpost => hpost.2)
    (fun _ _ _ => trivial)).bind ?_
  rintro ⟨ref, record⟩
  refine (meets_expand root root ref record (.inl rfl)).bind (fun dependencies => ?_)
  refine .get_bind (fun engine _ hexpanded => ?_)
  refine ((meets_walk_traverses root engine.reach [] root dependencies (.empty root)
    List.mem_cons_self).frame (Store.Expanded.lasting root root dependencies)).imp ?_ ?_
    (fun _ _ _ => trivial)
  · rintro store rfl
    exact ⟨trivial, hexpanded⟩
  · rintro graph store ⟨⟨graph', htraverses, heq⟩, hexpanded⟩
    exact ⟨dependencies, graph', hexpanded, htraverses, heq⟩

end Attempt

end Linkage
