import Linkage.Proofs.Runs.Progress

/-!
# What a pass starts from

When a run begins, the modules of its graph are ready: each has begun before, or all it depends on
stands before it in the order or closes a cycle.  When an outermost run begins, what modules depend
on has begun if they have.

* `Store.Requests` : who depends on whom, which stays as it is.
* `Store.Arranged` : what is known of the modules of a graph.
* `Session.Launches.arranged`, `Session.Launches.complete` : the modules when a run begins.
-/

namespace Linkage

/-- What stands before a module that is not beyond the front of an order is in the front. -/
theorem Graph.Before.mem_front {graph : Graph} {front back : List ModuleId}
    {first second : ModuleId} (hbefore : graph.Before first second) (hnodup : graph.order.Nodup)
    (horder : graph.order = front ++ back) (hplace : graph.order.idxOf second ≤ front.length) :
    first ∈ front := by
  by_contra hnot
  have hlt := hbefore.idxOf_lt hnodup
  rw [horder] at hlt hplace
  rw [List.idxOf_append_of_notMem hnot] at hlt
  omega

namespace Store

/-- One module depends on another. -/
def Requests (store : Store) (id dependency : ModuleId) : Prop :=
  ∃ ref record, store.Registered id ref record ∧ dependency ∈ record.dependencies

/-- What an analyzed module depends on was known when it was analyzed. -/
theorem Requests.back {stage stage' : Stage} {marks : List Mark}
    (hchain : Chain stage marks stage') (hliving : stage.Living) (hreset : .reset ∉ marks)
    {id dependency : ModuleId} {ref : RecordRef} {record : Record}
    (hregistered : stage.store.Registered id ref record) (hanalyzed : record.analysis?.isSome)
    (hrequests : stage'.store.Requests id dependency) : dependency ∈ record.dependencies := by
  obtain ⟨ref', record', hregistered', hdependency⟩ := hrequests
  obtain ⟨after, hafter, hadvances⟩ :=
    (hchain.advances hliving).record ref record hregistered.record
  obtain ⟨-, rfl⟩ := hregistered'.unique
    (⟨hchain.lookup hreset hregistered.lookup, hafter⟩ : stage'.store.Registered id ref after)
  rwa [Record.dependencies, hadvances.format, Record.requested, hadvances.analyzed hanalyzed]
    at hdependency

/-- What a module depends on that is ready or has begun was known then. -/
theorem Requests.earlier {stage stage' : Stage} {marks : List Mark}
    (hchain : Chain stage marks stage') (hliving : stage.Living) (hclosed : stage.store.Closed)
    (hreset : .reset ∉ marks) {id dependency : ModuleId}
    (hknown : stage.store.Ready id ∨ stage.store.HasBegun id)
    (hrequests : stage'.store.Requests id dependency) : stage.store.Requests id dependency := by
  rcases hknown with ⟨ref, record, hregistered, hanalyzed, -⟩ | ⟨ref, record, hregistered, hbegun⟩
  · exact ⟨ref, record, hregistered,
      hrequests.back hchain hliving hreset hregistered hanalyzed⟩
  · have hcoherent := hclosed.coherent ref record hregistered.record
    have hanalyzed := (hcoherent.linked (Status.hasLinked_of_hasBegun hbegun)).analyzed
    exact ⟨ref, record, hregistered,
      hrequests.back hchain hliving hreset hregistered hanalyzed⟩

/-- The modules of a graph are ready for a pass: each has begun, or what it depends on stands before
it or closes a cycle. -/
structure Arranged (store : Store) (graph : Graph) : Prop where
  nodup : graph.order.Nodup
  ready : ∀ id ∈ graph.order, store.Ready id
  before : ∀ id ∈ graph.order, store.HasBegun id ∨ ∀ dependency, store.Requests id dependency →
    graph.Before dependency id ∨ (id, dependency) ∈ graph.backEdges

namespace Arranged

variable {store : Store} {graph : Graph} {id dependency : ModuleId} {front rest : List ModuleId}

/-- When it is the turn of a module that has not begun, the pass has visited all it depends on, back
edges apart. -/
theorem visited (harranged : store.Arranged graph) (horder : graph.order = front ++ id :: rest)
    (hbegun : ¬ store.HasBegun id) (hrequests : store.Requests id dependency) :
    dependency ∈ front ∨ (id, dependency) ∈ graph.backEdges := by
  have hnodup := harranged.nodup
  have hapart : id ∉ front := by
    intro hmem
    rw [horder] at hnodup
    exact (List.nodup_append.mp hnodup).2.2 id hmem id List.mem_cons_self rfl
  have hid : id ∈ graph.order := by simp [horder]
  refine ((harranged.before id hid).resolve_left hbegun dependency hrequests).imp_left ?_
  intro hbefore
  refine hbefore.mem_front hnodup horder ?_
  rw [horder, List.idxOf_append_of_notMem hapart, List.idxOf_cons_self]
  exact Nat.le_refl _

/-- Without back edges, the modules that had begun and those that the pass has visited depend only
on each other, if those that had begun did. -/
theorem complete (harranged : store.Arranged graph) (hacyclic : graph.backEdges = [])
    (hbegun : store.HasBegun id → store.HasBegun dependency)
    (horder : graph.order = front ++ rest) (hrequests : store.Requests id dependency)
    (hid : store.HasBegun id ∨ id ∈ front) : store.HasBegun dependency ∨ dependency ∈ front := by
  rcases hid with hbefore | hvisited
  · exact .inl (hbegun hbefore)
  · have hmem : id ∈ graph.order := by simp [horder, hvisited]
    rcases harranged.before id hmem with hbefore | hplaced
    · exact .inl (hbegun hbefore)
    · rcases hplaced dependency hrequests with hbefore | hback
      · refine .inr (hbefore.mem_front harranged.nodup horder ?_)
        rw [horder, List.idxOf_append_of_mem hvisited]
        exact Nat.le_of_lt (List.idxOf_lt_length_of_mem hvisited)
      · rw [hacyclic] at hback
        cases hback

end Arranged

end Store

namespace Session.Launches

variable {session : Session} {stack below : List Frame} {machine : Machine} {graph : Graph}

/-- When a run begins, the modules of its graph are arranged. -/
theorem arranged (hlaunches : session.Launches graph below machine)
    (hliving : (session.stage stack).Living) (hclosed : session.store.Closed) :
    machine.session.store.Arranged graph := by
  obtain ⟨store, htouched, hlink, hstore, hlinked, hspans, hexplored⟩ := hlaunches.chains stack
  have hliving' := htouched.living hliving
  have hclosed' : store.Closed := htouched.closed hliving hclosed
  refine ⟨hspans.nodup, fun id hid => ?_, fun id hid => ?_⟩
  · rw [hstore]
    rcases Store.link_cases (Store.nodup_pendingLinks hliving'.named hspans.nodup) with
      ⟨_, -, -, hlinks⟩ | ⟨_, -, herror, -⟩
    · exact Store.ready_of_linksAll hspans hliving'.possible hclosed'.coherent hlinks hid
    · cases hlinked.symm.trans herror
  · rcases hexplored.placed id hid with
      ⟨ref, record, hregistered, -, hsettled⟩ | ⟨_, ⟨ref, record, hregistered, -, hanalyzed, rfl⟩,
        -, hbefore⟩
    · have hbegun : store.HasBegun id :=
        ⟨ref, record, hregistered, Status.hasBegun_of_isSettled hsettled⟩
      rw [hstore]
      exact .inl ((Store.hasBegun_link_iff hliving'.named hspans.nodup).mpr hbegun)
    · refine .inr (fun dependency hrequests => hbefore dependency ?_)
      exact hrequests.back hlink hliving' (store.reset_not_mem_linkMarks _) hregistered hanalyzed

/-- When a run begins while nothing is due, what a module depends on has begun if the module has. -/
theorem complete (hlaunches : session.Launches graph below machine)
    (hliving : (session.stage stack).Living) (hclosed : session.store.Closed)
    (hserved : session.store.Served []) {id dependency : ModuleId}
    (hbegun : machine.session.store.HasBegun id)
    (hrequests : machine.session.store.Requests id dependency) :
    machine.session.store.HasBegun dependency := by
  obtain ⟨store, htouched, hlink, hstore, -, hspans, -⟩ := hlaunches.chains stack
  have hliving' := htouched.living hliving
  have hclosed' : store.Closed := htouched.closed hliving hclosed
  have hserved' : store.Served [] :=
    htouched.served hliving hclosed (by simp) hserved (fun id hid _ => .inr hid)
  have hiff : ∀ {id}, machine.session.store.HasBegun id ↔ store.HasBegun id := by
    rw [hstore]
    exact Store.hasBegun_link_iff hliving'.named hspans.nodup
  obtain ⟨ref, record, hregistered, hstatus⟩ := hiff.mp hbegun
  have hlinked := Status.hasLinked_of_hasBegun hstatus
  have hanalyzed := ((hclosed'.coherent ref record hregistered.record).linked hlinked).analyzed
  have hdependency := hrequests.back hlink hliving' (store.reset_not_mem_linkMarks _) hregistered
    hanalyzed
  -- only a modern module depends on others
  cases hformat : record.format with
  | legacy =>
      rw [Record.dependencies, hformat] at hdependency
      cases hdependency
  | modern =>
      rw [Record.dependencies, hformat] at hdependency
      obtain ⟨-, hrequested⟩ := hserved' id ref record hregistered hformat hlinked
      exact hiff.mpr ((hrequested dependency hdependency).resolve_right List.not_mem_nil)

end Session.Launches

end Linkage
