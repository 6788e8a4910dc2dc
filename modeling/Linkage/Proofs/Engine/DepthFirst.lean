import Linkage.Host.Shelf
import Linkage.Proofs.Engine.Traversing
import Mathlib.Data.List.Basic

/-!
# Graphs are made depth first

The order of a graph lists what the root leads to, each module after those it depends on, back edges
apart, and the back edges are edges that close a cycle.  So there are none if and only if the graph
has no cycle.

* `Store.Explored` : the invariant of a walk, with what it means to close a cycle, to pass by a
  leaf, to enter a module and to leave it.
* `Store.Traverses.explored` : a walk keeps it.
* `Engine.graph_is_depth_first` : what a graph says of its modules.
-/

namespace Linkage

open Relation (ReflTransGen TransGen)

namespace Graph

/-- One module stands before another in the order. -/
def Before (graph : Graph) (first second : ModuleId) : Prop := [first, second].Sublist graph.order

/-- The order and the back edges of a graph have only grown. -/
structure Grows (graph graph' : Graph) : Prop where
  root : graph'.root = graph.root
  order : graph.order ⊆ graph'.order
  backEdges : graph.backEdges ⊆ graph'.backEdges

variable {graph graph' graph'' : Graph} {id dependency first second : ModuleId}
  {dependencies : List ModuleId}

namespace Grows

theorem refl (graph : Graph) : graph.Grows graph := ⟨rfl, fun _ hmem => hmem, fun _ hmem => hmem⟩

theorem trans (hfirst : graph.Grows graph') (hsecond : graph'.Grows graph'') :
    graph.Grows graph'' :=
  ⟨hsecond.root.trans hfirst.root, fun _ hmem => hsecond.order (hfirst.order hmem),
    fun _ hmem => hsecond.backEdges (hfirst.backEdges hmem)⟩

theorem list (graph : Graph) (id : ModuleId) (dependencies : List ModuleId) :
    graph.Grows (graph.list id dependencies) :=
  ⟨rfl, fun _ hmem => List.mem_append_left _ hmem, fun _ hmem => hmem⟩

theorem closeCycle (graph : Graph) (id dependency : ModuleId) :
    graph.Grows (graph.closeCycle id dependency) :=
  ⟨rfl, fun _ hmem => hmem, fun _ hmem => List.mem_append_left _ hmem⟩

end Grows

theorem mem_order_list : first ∈ (graph.list id dependencies).order ↔
    first ∈ graph.order ∨ first = id := by
  simp [Graph.list]

theorem mem_backEdges_closeCycle : (first, second) ∈ (graph.closeCycle id dependency).backEdges ↔
    (first, second) ∈ graph.backEdges ∨ first = id ∧ second = dependency := by
  simp [Graph.closeCycle]

theorem Before.mem (hbefore : graph.Before first second) : first ∈ graph.order :=
  hbefore.subset List.mem_cons_self

theorem Before.list (hbefore : graph.Before first second) :
    (graph.list id dependencies).Before first second :=
  hbefore.trans (List.sublist_append_left _ _)

theorem before_list_of_mem (hfirst : first ∈ graph.order) :
    (graph.list id dependencies).Before first id :=
  (List.singleton_sublist.mpr hfirst).append (.refl [id])

/-- Who stands before another has a smaller place in the order. -/
theorem Before.idxOf_lt (hnodup : graph.order.Nodup) (hbefore : graph.Before first second) :
    graph.order.idxOf first < graph.order.idxOf second := by
  obtain ⟨front, back, horder, hfirst, hsecond⟩ := List.cons_sublist_iff.mp hbefore
  have hapart : second ∉ front := by
    intro hmem
    rw [horder] at hnodup
    exact (List.nodup_append.mp hnodup).2.2 second hmem second
      (List.singleton_sublist.mp hsecond) rfl
  rw [horder, List.idxOf_append_of_mem hfirst, List.idxOf_append_of_notMem hapart]
  exact Nat.lt_add_right _ (List.idxOf_lt_length_of_mem hfirst)

end Graph

namespace Store

/-- A listed module is a leaf, or it is recorded with all it depends on, and each of these stands
before it or closes a cycle. -/
def Placed (store : Store) (root : ModuleId) (graph : Graph) (id : ModuleId) : Prop :=
  store.Leaf root id ∨ ∃ dependencies, store.Expanded root id dependencies ∧
    graph.edges.find? id.text = some dependencies ∧
    ∀ dependency ∈ dependencies,
      graph.Before dependency id ∨ (id, dependency) ∈ graph.backEdges

/-- How far a walk has come: `above` are the modules being walked, the last one first. -/
structure Explored (store : Store) (root : ModuleId) (above : List ModuleId) (graph : Graph) :
    Prop where
  nodup : (above ++ graph.order).Nodup
  keys : ∀ key, graph.edges.contains key = true ↔ ∃ id ∈ graph.order, id.text = key
  placed : ∀ id ∈ graph.order, store.Placed root graph id
  reached : ∀ id ∈ above ++ graph.order, ReflTransGen (store.Edge root) root id
  below : above.Pairwise (fun upper lower => ReflTransGen (store.Edge root) lower upper)
  backEdges_nodup : graph.backEdges.Nodup
  back : ∀ id dependency, (id, dependency) ∈ graph.backEdges →
    store.Edge root id dependency ∧ ReflTransGen (store.Edge root) dependency id ∧
      id ∈ above ++ graph.order ∧ dependency ∈ above ++ graph.order

variable {store : Store} {root id dependency : ModuleId} {outer dependencies : List ModuleId}
  {graph graph' : Graph}

/-- Listing another module leaves the place of a listed one as it is. -/
theorem Placed.list {other : ModuleId} (hplaced : store.Placed root graph id) (hne : id ≠ other) :
    store.Placed root (graph.list other dependencies) id := by
  refine hplaced.imp_right ?_
  rintro ⟨asked, hexpanded, hfound, hbefore⟩
  have htext : id.text ≠ other.text := fun hsame => hne (congrArg ModuleId.mk hsame)
  refine ⟨asked, hexpanded, ?_, fun dependency hdependency => ?_⟩
  · exact (Table.find?_insert_ne _ htext _).trans hfound
  · exact (hbefore dependency hdependency).imp_left .list

theorem Placed.closeCycle {importer imported : ModuleId} (hplaced : store.Placed root graph id) :
    store.Placed root (graph.closeCycle importer imported) id := by
  refine hplaced.imp_right ?_
  rintro ⟨asked, hexpanded, hfound, hbefore⟩
  refine ⟨asked, hexpanded, hfound, fun dependency hdependency => ?_⟩
  exact (hbefore dependency hdependency).imp_right (List.mem_append_left _)

/-- A module is placed when it is listed after all it depends on, back edges apart. -/
theorem placed_of_expanded (hexpanded : store.Expanded root id dependencies)
    (hreached : ∀ dependency ∈ dependencies,
      dependency ∈ graph.order ∨ (id, dependency) ∈ graph.backEdges) :
    store.Placed root (graph.list id dependencies) id := by
  refine .inr ⟨dependencies, hexpanded, Table.find?_insert_self _ _ _, ?_⟩
  intro dependency hdependency
  exact (hreached dependency hdependency).imp_left Graph.before_list_of_mem

namespace Explored

/-- At the beginning only the root is being walked. -/
theorem start (store : Store) (root : ModuleId) : store.Explored root [root] (.empty root) where
  nodup := by simp [Graph.empty]
  keys key := by
    have hnone : (Graph.empty root).edges.contains key = false := rfl
    rw [hnone]
    simp [Graph.empty]
  placed := by simp [Graph.empty]
  reached id hid := by
    obtain rfl : id = root := by simpa [Graph.empty] using hid
    exact .refl
  below := List.pairwise_singleton _ _
  backEdges_nodup := List.nodup_nil
  back := by simp [Graph.empty]

/-- A module that is not listed may be walked when the walk comes to it. -/
theorem enter (hexplored : store.Explored root (id :: outer) graph)
    (hedge : store.Edge root id dependency) (hcycle : dependency ∉ id :: outer)
    (hlisted : dependency ∉ graph.order) :
    store.Explored root (dependency :: id :: outer) graph where
  nodup := by
    rw [List.cons_append, List.nodup_cons, List.mem_append, not_or]
    exact ⟨⟨hcycle, hlisted⟩, hexplored.nodup⟩
  keys := hexplored.keys
  placed := hexplored.placed
  reached other hother := by
    rcases List.mem_cons.mp hother with rfl | hother
    · exact (hexplored.reached id List.mem_cons_self).tail hedge
    · exact hexplored.reached other hother
  below := by
    refine List.pairwise_cons.mpr ⟨fun lower hlower => ?_, hexplored.below⟩
    -- what is walked below leads to the module that was walked so far
    rcases List.mem_cons.mp hlower with rfl | hlower
    · exact .single hedge
    · exact ((List.pairwise_cons.mp hexplored.below).1 lower hlower).tail hedge
  backEdges_nodup := hexplored.backEdges_nodup
  back importer imported hmem := by
    obtain ⟨hedge, hpath, hfirst, hsecond⟩ := hexplored.back importer imported hmem
    exact ⟨hedge, hpath, List.mem_cons_of_mem _ hfirst, List.mem_cons_of_mem _ hsecond⟩

/-- A module is listed when its walk is over. -/
theorem leave (hexplored : store.Explored root (id :: outer) graph)
    (hplaced : store.Placed root (graph.list id dependencies) id) :
    store.Explored root outer (graph.list id dependencies) := by
  have hperm : (outer ++ (graph.list id dependencies).order).Perm (id :: outer ++ graph.order) := by
    show (outer ++ (graph.order ++ [id])).Perm (id :: (outer ++ graph.order))
    rw [← List.append_assoc]
    exact List.perm_append_singleton id (outer ++ graph.order)
  have hid : id ∉ graph.order := by
    intro hmem
    exact (List.nodup_cons.mp hexplored.nodup).1 (List.mem_append_right _ hmem)
  refine ⟨hperm.nodup_iff.mpr hexplored.nodup, ?_, ?_, ?_, ?_, hexplored.backEdges_nodup, ?_⟩
  · intro key
    have hkeys := hexplored.keys key
    unfold Table.contains at hkeys ⊢
    show ((graph.edges.insert id.text dependencies).find? key).isSome = true ↔ _
    rw [Table.find?_insert]
    by_cases hkey : key = id.text
    · subst hkey
      simp [Graph.mem_order_list]
    · rw [if_neg hkey, hkeys]
      grind [Graph.mem_order_list]
  · intro other hother
    rcases Graph.mem_order_list.mp hother with hmem | rfl
    · exact (hexplored.placed other hmem).list (ne_of_mem_of_not_mem hmem hid)
    · exact hplaced
  · exact fun other hother => hexplored.reached other (hperm.mem_iff.mp hother)
  · exact (List.pairwise_cons.mp hexplored.below).2
  · intro importer imported hmem
    obtain ⟨hedge, hpath, hfirst, hsecond⟩ := hexplored.back importer imported hmem
    exact ⟨hedge, hpath, hperm.mem_iff.mpr hfirst, hperm.mem_iff.mpr hsecond⟩

/-- An edge to a module that is being walked closes a cycle. -/
theorem closeCycle (hexplored : store.Explored root (id :: outer) graph)
    (hedge : store.Edge root id dependency) (hcycle : dependency ∈ id :: outer)
    (hnew : (id, dependency) ∉ graph.backEdges) :
    store.Explored root (id :: outer) (graph.closeCycle id dependency) where
  nodup := hexplored.nodup
  keys := hexplored.keys
  placed other hother := (hexplored.placed other hother).closeCycle
  reached := hexplored.reached
  below := hexplored.below
  backEdges_nodup := by
    refine List.nodup_append.mpr ⟨hexplored.backEdges_nodup, by simp, ?_⟩
    rintro edge hedge last hlast rfl
    exact hnew (List.mem_singleton.mp hlast ▸ hedge)
  back importer imported hmem := by
    rcases Graph.mem_backEdges_closeCycle.mp hmem with hmem | ⟨rfl, rfl⟩
    · exact hexplored.back importer imported hmem
    · refine ⟨hedge, ?_, List.mem_cons_self, List.mem_append_left _ hcycle⟩
      rcases List.mem_cons.mp hcycle with rfl | hcycle
      · exact .refl
      · exact (List.pairwise_cons.mp hexplored.below).1 imported hcycle

end Explored

theorem Expanded.nodup (hexpanded : store.Expanded root id dependencies) : dependencies.Nodup := by
  obtain ⟨ref, record, -, -, -, rfl⟩ := hexpanded
  exact record.nodup_dependencies

/-- What a walk adds to a graph: whatever its module depends on is listed or closes a cycle, and the
back edges that are new come from the module or from none that is being walked. -/
structure Covers (outer : List ModuleId) (id : ModuleId) (dependencies : List ModuleId)
    (graph graph' : Graph) : Prop where
  grows : graph.Grows graph'
  reached : ∀ dependency ∈ dependencies,
    dependency ∈ graph'.order ∨ (id, dependency) ∈ graph'.backEdges
  inner : ∀ importer imported, (importer, imported) ∈ graph'.backEdges →
    (importer, imported) ∈ graph.backEdges ∨ importer ∉ outer

/-- What is done with the first dependency stays done while the walk goes on. -/
theorem Covers.cons {rest : List ModuleId} {middle : Graph} (hgrows : graph.Grows middle)
    (hfirst : dependency ∈ middle.order ∨ (id, dependency) ∈ middle.backEdges)
    (hinner : ∀ importer imported, (importer, imported) ∈ middle.backEdges →
      (importer, imported) ∈ graph.backEdges ∨ importer ∉ outer)
    (hrest : Covers outer id rest middle graph') :
    Covers outer id (dependency :: rest) graph graph' where
  grows := hgrows.trans hrest.grows
  reached other hother := by
    rcases List.mem_cons.mp hother with rfl | hother
    · exact hfirst.imp (fun hmem => hrest.grows.order hmem)
        (fun hmem => hrest.grows.backEdges hmem)
    · exact hrest.reached other hother
  inner importer imported hmem := by
    rcases hrest.inner importer imported hmem with hold | hinside
    · exact hinner importer imported hold
    · exact .inr hinside

/-- **A walk keeps its invariant.** -/
theorem Traverses.explored (htraverses : store.Traverses root outer id dependencies graph graph')
    (hexplored : store.Explored root (id :: outer) graph) (hnodup : dependencies.Nodup)
    (hedges : ∀ dependency ∈ dependencies,
      store.Edge root id dependency ∧ (id, dependency) ∉ graph.backEdges) :
    store.Explored root (id :: outer) graph' ∧ Covers outer id dependencies graph graph' := by
  induction htraverses with
  | done outer id graph =>
      exact ⟨hexplored, .refl graph, by simp, fun _ _ hmem => .inl hmem⟩
  | @cycle outer id dependency rest graph graph' hcycle _ ih =>
      obtain ⟨hfirst, hnodup⟩ := List.nodup_cons.mp hnodup
      obtain ⟨⟨hedge, hnew⟩, hrest⟩ := List.forall_mem_cons.mp hedges
      -- no dependency is looked at twice, so the edges still to come are no back edges yet
      obtain ⟨hexplored', hcovers⟩ := ih (hexplored.closeCycle hedge hcycle hnew) hnodup
        (fun other hother => ⟨(hrest other hother).1, by
          rw [Graph.mem_backEdges_closeCycle, not_or, not_and]
          exact ⟨(hrest other hother).2, fun _ hsame => hfirst (hsame ▸ hother)⟩⟩)
      refine ⟨hexplored', .cons (.closeCycle graph id dependency) (.inr ?_) ?_ hcovers⟩
      · exact Graph.mem_backEdges_closeCycle.mpr (.inr ⟨rfl, rfl⟩)
      · intro importer imported hmem
        refine (Graph.mem_backEdges_closeCycle.mp hmem).imp_right ?_
        rintro ⟨rfl, -⟩ houter
        exact (List.nodup_cons.mp hexplored.nodup).1 (List.mem_append_left _ houter)
  | @listed outer id dependency rest graph graph' hlisted _ ih =>
      obtain ⟨-, hrest⟩ := List.forall_mem_cons.mp hedges
      obtain ⟨hexplored', hcovers⟩ := ih hexplored (List.nodup_cons.mp hnodup).2 hrest
      exact ⟨hexplored', .cons (.refl graph) (.inl hlisted) (fun _ _ hmem => .inl hmem) hcovers⟩
  | @leaf outer id dependency rest graph graph' requested hcycle hlisted hleaf _ ih =>
      obtain ⟨⟨hedge, -⟩, hrest⟩ := List.forall_mem_cons.mp hedges
      -- a leaf is entered and left at once
      have hleft : store.Explored root (id :: outer) (graph.list dependency requested) :=
        (hexplored.enter hedge hcycle hlisted).leave (.inl hleaf)
      obtain ⟨hexplored', hcovers⟩ := ih hleft (List.nodup_cons.mp hnodup).2 hrest
      refine ⟨hexplored', .cons (.list graph dependency requested) (.inl ?_)
        (fun _ _ hmem => .inl hmem) hcovers⟩
      exact Graph.mem_order_list.mpr (.inr rfl)
  | @down outer id dependency rest further graph middle graph' hcycle hlisted hexpanded _ _ ihdown
      ihrest =>
      obtain ⟨⟨hedge, -⟩, hrest⟩ := List.forall_mem_cons.mp hedges
      have hentered := hexplored.enter hedge hcycle hlisted
      -- back edges come from modules that are listed or being walked, and this one was neither
      have hfresh : ∀ other, (dependency, other) ∉ graph.backEdges := by
        intro other hmem
        obtain ⟨-, -, hknown, -⟩ := hexplored.back dependency other hmem
        exact (List.mem_append.mp hknown).elim hcycle hlisted
      obtain ⟨hmiddle, hbelow⟩ := ihdown hentered hexpanded.nodup
        (fun other hother => ⟨⟨further, hexpanded, hother⟩, hfresh other⟩)
      have hleft := hmiddle.leave (placed_of_expanded hexpanded hbelow.reached)
      obtain ⟨hexplored', hcovers⟩ := ihrest hleft (List.nodup_cons.mp hnodup).2 (by
        intro other hother
        refine ⟨(hrest other hother).1, fun hmem => ?_⟩
        rcases hbelow.inner id other hmem with hold | hinside
        · exact (hrest other hother).2 hold
        · exact hinside List.mem_cons_self)
      refine ⟨hexplored', .cons (hbelow.grows.trans (.list middle dependency further)) (.inl ?_) ?_
        hcovers⟩
      · exact Graph.mem_order_list.mpr (.inr rfl)
      · intro importer imported hmem
        exact (hbelow.inner importer imported hmem).imp_right
          (fun hinside houter => hinside (List.mem_cons_of_mem _ houter))

theorem Expanded.unique {dependencies' : List ModuleId}
    (hexpanded : store.Expanded root id dependencies)
    (hexpanded' : store.Expanded root id dependencies') : dependencies' = dependencies := by
  obtain ⟨ref, record, hregistered, -, -, rfl⟩ := hexpanded
  obtain ⟨ref', record', hregistered', -, -, rfl⟩ := hexpanded'
  rw [(hregistered.unique hregistered').2]

theorem Leaf.not_expanded (hleaf : store.Leaf root id) :
    ¬ store.Expanded root id dependencies := by
  rintro ⟨ref, record, hregistered, hopen, -, -⟩
  obtain ⟨ref', record', hregistered', hroot, hsettled⟩ := hleaf
  rw [(hregistered.unique hregistered').2] at hsettled
  rcases hopen with hsame | hopen
  · exact hroot hsame
  · simp [hopen] at hsettled

namespace Explored

/-- What an expanded module depends on is recorded, and it stands before the module or closes a
cycle. -/
theorem sorted (hexplored : store.Explored root [] graph)
    (hexpanded : store.Expanded root id dependencies) (hid : id ∈ graph.order) :
    graph.dependencies id = dependencies ∧ ∀ dependency ∈ dependencies,
      graph.Before dependency id ∨ (id, dependency) ∈ graph.backEdges := by
  rcases hexplored.placed id hid with hleaf | ⟨asked, hasked, hfound, hbefore⟩
  · exact absurd hexpanded hleaf.not_expanded
  · obtain rfl := hexpanded.unique hasked
    exact ⟨by rw [Graph.dependencies, hfound]; rfl, hbefore⟩

/-- An edge from a listed module leads to a listed one. -/
theorem mem_of_edge (hexplored : store.Explored root [] graph)
    (hedge : store.Edge root id dependency) (hid : id ∈ graph.order) :
    dependency ∈ graph.order := by
  obtain ⟨asked, hexpanded, hmem⟩ := hedge
  rcases (hexplored.sorted hexpanded hid).2 dependency hmem with hbefore | hback
  · exact hbefore.mem
  · exact (hexplored.back id dependency hback).2.2.2

/-- The modules of a graph are those that the root leads to. -/
theorem mem_iff (hexplored : store.Explored root [] graph) (hroot : root ∈ graph.order) :
    id ∈ graph.order ↔ ReflTransGen (store.Edge root) root id := by
  refine ⟨hexplored.reached id, fun hpath => ?_⟩
  induction hpath with
  | refl => exact hroot
  | tail _ hedge ih => exact hexplored.mem_of_edge hedge ih

/-- Without back edges every path leads to smaller places in the order. -/
theorem idxOf_lt (hexplored : store.Explored root [] graph) (hback : graph.backEdges = [])
    (hid : id ∈ graph.order) (hpath : TransGen (store.Edge root) id dependency) :
    dependency ∈ graph.order ∧ graph.order.idxOf dependency < graph.order.idxOf id := by
  have hstep : ∀ first second, first ∈ graph.order → store.Edge root first second →
      second ∈ graph.order ∧ graph.order.idxOf second < graph.order.idxOf first := by
    rintro first second hfirst ⟨asked, hexpanded, hmem⟩
    rcases (hexplored.sorted hexpanded hfirst).2 second hmem with hbefore | hmem
    · exact ⟨hbefore.mem, hbefore.idxOf_lt hexplored.nodup⟩
    · simp [hback] at hmem
  induction hpath with
  | single hedge => exact hstep id _ hid hedge
  | tail _ hedge ih =>
      obtain ⟨hmem, hlt⟩ := ih
      obtain ⟨hmem', hlt'⟩ := hstep _ _ hmem hedge
      exact ⟨hmem', Nat.lt_trans hlt' hlt⟩

/-- There are no back edges if and only if there is no cycle. -/
theorem backEdges_eq_nil_iff (hexplored : store.Explored root [] graph) :
    graph.backEdges = [] ↔ ∀ id ∈ graph.order, ¬ TransGen (store.Edge root) id id := by
  constructor
  · intro hback id hid hcycle
    exact Nat.lt_irrefl _ (hexplored.idxOf_lt hback hid hcycle).2
  · intro hacyclic
    rw [List.eq_nil_iff_forall_not_mem]
    rintro ⟨id, dependency⟩ hmem
    obtain ⟨hedge, hpath, hid, -⟩ := hexplored.back id dependency hmem
    exact hacyclic id hid (.head' hedge hpath)

end Explored

end Store

namespace Engine

/-- A graph that has been made is explored from its root, which comes last. -/
theorem explored_of_buildGraph {engine engine' : Engine} {root : ModuleId} {graph : Graph}
    (hbuilt : engine.attempt (Attempt.buildGraph root) = (.ok graph, engine')) :
    engine'.store.Explored root [] graph ∧ graph.root = root ∧
      ∃ front, graph.order = front ++ [root] := by
  have hmeets := Attempt.meets_buildGraph_traverses root engine rfl trivial
  rw [hbuilt] at hmeets
  obtain ⟨dependencies, graph', hexpanded, htraverses, rfl⟩ := hmeets.ok graph rfl
  obtain ⟨hexplored, hcovers⟩ := htraverses.explored (.start engine'.store root) hexpanded.nodup
    (fun dependency hdependency => ⟨⟨dependencies, hexpanded, hdependency⟩, by simp [Graph.empty]⟩)
  exact ⟨hexplored.leave (Store.placed_of_expanded hexpanded hcovers.reached), hcovers.grows.root,
    graph'.order, rfl⟩

open Store in
/-- **A graph is the depth first search of its root.**  Its modules are those that the root leads to
through expanded modules, each listed once and the root last; an expanded module is recorded with
what it depends on, all of it before the module, back edges apart; the back edges are edges, each
noted once, that close a cycle, and there are none if and only if there is no cycle.  No module is
settled while the graph is made. -/
theorem graph_is_depth_first (engine engine' : Engine) (root : ModuleId) (graph : Graph)
    (hbuilt : engine.attempt (Attempt.buildGraph root) = (.ok graph, engine')) :
    let store := engine'.store
    graph.order.Nodup ∧ graph.order.getLast? = some root ∧
    (∀ key, graph.edges.contains key = true ↔ ∃ id ∈ graph.order, id.text = key) ∧
    (∀ id, id ∈ graph.order ↔ ReflTransGen (store.Edge root) root id) ∧
    (∀ id ∈ graph.order, ∃ ref record, store.Registered id ref record ∧
      (id = root ∨ record.status.isSettled = false →
        record.analysis?.isSome ∧ graph.dependencies id = record.dependencies ∧
        ∀ dependency ∈ graph.dependencies id,
          graph.Before dependency id ∨ (id, dependency) ∈ graph.backEdges)) ∧
    graph.backEdges.Nodup ∧
    (∀ id dependency, (id, dependency) ∈ graph.backEdges →
      store.Edge root id dependency ∧ ReflTransGen (store.Edge root) dependency id) ∧
    (graph.backEdges = [] ↔ ∀ id ∈ graph.order, ¬ TransGen (store.Edge root) id id) ∧
    ∀ ref record, engine.store.record? ref = some record →
      ∃ record', store.record? ref = some record' ∧ record'.status = record.status := by
  intro store
  obtain ⟨hexplored, -, front, hlast⟩ := explored_of_buildGraph hbuilt
  have hroot : root ∈ graph.order := by simp [hlast]
  refine ⟨hexplored.nodup, by simp [hlast], hexplored.keys, fun id => hexplored.mem_iff hroot, ?_,
    hexplored.backEdges_nodup, ?_, hexplored.backEdges_eq_nil_iff, ?_⟩
  · intro id hid
    rcases hexplored.placed id hid with hleaf | ⟨asked, hexpanded, -⟩
    · obtain ⟨ref, record, hregistered, hne, hsettled⟩ := hleaf
      refine ⟨ref, record, hregistered, ?_⟩
      rintro (hsame | hopen)
      · exact absurd hsame hne
      · simp [hopen] at hsettled
    · obtain ⟨hrecorded, hbefore⟩ := hexplored.sorted hexpanded hid
      obtain ⟨ref, record, hregistered, hopen, hanalyzed, rfl⟩ := hexpanded
      exact ⟨ref, record, hregistered, fun _ => ⟨hanalyzed, hrecorded, hrecorded ▸ hbefore⟩⟩
  · intro id dependency hmem
    obtain ⟨hedge, hpath, -, -⟩ := hexplored.back id dependency hmem
    exact ⟨hedge, hpath⟩
  · intro ref record hrecord
    have htouches := (Attempt.meets_buildGraph_traverses root engine rfl trivial).touches
    rw [hbuilt] at htouches
    obtain ⟨record', hrecord', htouched⟩ := Store.touches_record htouches hrecord
    exact ⟨record', hrecord', htouched.status⟩

/-- Two modules that import each other, one of which is registered. -/
def loop : Engine :=
  let left := (Source.ofBody []).importNamed "/right.mjs" "y" "y"
  let right := (Source.ofBody []).importNamed "/left.mjs" "x" "x"
  let shelf := (Shelf.empty.insert "/left.mjs" left).insert "/right.mjs" right
  ((new shelf.toHost .standard).attempt (Attempt.resolveAndRegister "/left.mjs" none)).2

theorem graph_is_depth_first_loop :
    let left := ModuleId.ofPath "/left.mjs"
    let right := ModuleId.ofPath "/right.mjs"
    ∃ graph engine', loop.attempt (Attempt.buildGraph left) = (.ok graph, engine') ∧
      graph.order = [right, left] ∧ graph.backEdges = [(right, left)] ∧
      ∃ id ∈ graph.order, TransGen (engine'.store.Edge left) id id := by
  intro left right
  have hfacts : (loop.attempt (Attempt.buildGraph left)).1.toOption.map
      (fun graph => (graph.order, graph.backEdges)) =
      some ([right, left], [(right, left)]) := by decide +kernel
  obtain ⟨graph, hgraph, hfields⟩ := Option.map_eq_some_iff.mp hfacts
  obtain ⟨horder, hback⟩ := Prod.mk.inj hfields
  have hbuilt := attempt_eq_ok_of_toOption hgraph
  obtain ⟨-, -, -, -, -, -, -, hcycle, -⟩ := graph_is_depth_first loop _ left graph hbuilt
  refine ⟨graph, _, hbuilt, horder, hback, ?_⟩
  by_contra hacyclic
  have hnone := hcycle.mpr (fun id hid hpath => hacyclic ⟨id, hid, hpath⟩)
  simp [hback] at hnone

end Engine

end Linkage
