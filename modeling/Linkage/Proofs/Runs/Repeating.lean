import Linkage.Proofs.Alike.Linking
import Linkage.Proofs.Engine.Repeating
import Linkage.Proofs.Runs.Linking
import Linkage.Proofs.Runs.Requiring

/-!
# Evaluating the same once more

Whatever a call of `evaluate` has come to, the same call made right after it comes to the same, and
finds everything done.  If the specifier could not be resolved, or the graph could not be built, the
attempt fails again where it failed.  If linking failed, nothing is left of it but cells to which no
name refers, and it fails again.  If the modules were run, all modules of the graph have begun, so
has every module of the graph that is built now, and the pass over them does nothing.

* `Session.conclusion` : what a run gives once its pass is over.
* `Store.Explored.mem_of_later` : the graph of a root that is built later lists no further modules.
* `Session.StandsBy` : evaluating gives this reply, and that is all it does.
* `Machine.evaluate_again` : a reply that was given is stood by.
-/

namespace Linkage

/-! ## The end of a run -/

namespace Store

variable {store : Store}

/-- A namespace that was asked for is in the cache. -/
theorem namespace_again (store : Store) (id : ModuleId) (requester? : Option ModuleId) :
    (store.namespace_ id requester?).2.namespace_ id requester? = store.namespace_ id requester? := by
  cases hcached : store.cached? id requester? with
  | some found =>
      have hsame : store.namespace_ id requester? = (.ok found, store) := by
        simp [namespace_, hcached]
      rw [hsame, hsame]
  | none =>
      rcases store.namespace_cases id requester? with
        ⟨cached, hmem, hid, hrequester, heq⟩ | ⟨ref, record, -, heq⟩ | ⟨-, heq⟩
      · rw [heq, heq]
      · have hnone : store.namespaces.find? (fun cached =>
            cached.id = id ∧ cached.requester? = requester?) = none := by
          simpa [cached?] using hcached
        rw [heq]
        unfold namespace_ cached?
        dsimp only
        rw [List.find?_append, hnone]
        simp
      · rw [heq, heq]

theorem find?_namespace_ (store : Store) (id : ModuleId) (requester? : Option ModuleId)
    (other : ModuleId) : (store.namespace_ id requester?).2.find? other = store.find? other := by
  unfold find?
  rw [lookup?_namespace_]
  cases store.lookup? other with
  | none => rfl
  | some ref => exact record?_namespace_ _ _ _

end Store

namespace Session

/-- What a run gives once its pass is over: the error of its root, or the namespace. -/
def conclusion (session : Session) (root : ModuleId) (requester? : Option ModuleId) :
    Reply × Session :=
  match (session.store.find? root).bind (·.error?) with
  | some error => (.error error, session)
  | none =>
      let (found, store) := session.store.namespace_ root requester?
      (found.map .space, session.withStore store)

variable {session : Session} {root id : ModuleId} {requester? : Option ModuleId} {ref : RecordRef}
  {record : Record}

/-- A run that is over comes to the same conclusion again. -/
theorem conclusion_again (session : Session) (root : ModuleId) (requester? : Option ModuleId) :
    (session.conclusion root requester?).2.conclusion root requester? =
      session.conclusion root requester? := by
  cases herror : (session.store.find? root).bind (·.error?) with
  | some error =>
      have hsame : session.conclusion root requester? = (.error error, session) := by
        simp [conclusion, herror]
      rw [hsame, hsame]
  | none =>
      have hsame : session.conclusion root requester? =
          ((session.store.namespace_ root requester?).1.map .space,
            session.withStore (session.store.namespace_ root requester?).2) := by
        simp [conclusion, herror]
      rw [hsame]
      unfold conclusion
      have hstore : (session.withStore (session.store.namespace_ root requester?).2).store =
          (session.store.namespace_ root requester?).2 := rfl
      dsimp only
      rw [hstore, Store.find?_namespace_, herror, Store.namespace_again]
      rfl

theorem registered_conclusion (hregistered : session.store.Registered id ref record) :
    (session.conclusion root requester?).2.store.Registered id ref record := by
  unfold conclusion
  split
  · exact hregistered
  · exact ⟨(Store.lookup?_namespace_ _ _ _).trans hregistered.lookup,
      (Store.record?_namespace_ _ _ _).trans hregistered.record⟩

theorem hasBegun_conclusion (hbegun : session.store.HasBegun id) :
    (session.conclusion root requester?).2.store.HasBegun id := by
  obtain ⟨ref, record, hregistered, hstatus⟩ := hbegun
  exact ⟨ref, record, registered_conclusion hregistered, hstatus⟩

end Session

namespace Machine

variable {session : Session} {root : ModuleId} {requester? : Option ModuleId}
  {order : List ModuleId} {below : List Frame}

/-- The last two frames of a run come to its conclusion. -/
theorem returns_conclusion (session : Session) (root : ModuleId) (requester? : Option ModuleId) :
    (giving session [.settle root, .present root requester?] .done).Returns [] 2
        (session.conclusion root requester?).2 (session.conclusion root requester?).1 ∧
      (giving session [.settle root, .present root requester?] .done).startedAbove [] 2 = [] := by
  have hsteps (first : Reply)
      (hsettle : (giving session [.settle root, .present root requester?] .done).step =
        giving session [.present root requester?] first)
      (hpresent : (giving session [.present root requester?] first).step =
        giving (session.conclusion root requester?).2 [] (session.conclusion root requester?).1) :
      (giving session [.settle root, .present root requester?] .done).Returns [] 2
          (session.conclusion root requester?).2 (session.conclusion root requester?).1 ∧
        (giving session [.settle root, .present root requester?] .done).startedAbove [] 2 = [] := by
    constructor
    · exact .head (Nat.succ_pos _) List.not_mem_nil hsettle
        (.head (Nat.succ_pos _) List.not_mem_nil hpresent (returns_giving _ _ _))
    · exact (startedAbove_head rfl hsettle 1).trans (startedAbove_head rfl hpresent 0)
  cases herror : (session.store.find? root).bind (·.error?) with
  | some error =>
      apply hsteps (.error error)
      · simp [giving, Reply.done, step, herror]
      · simp [giving, step, Session.conclusion, herror]
  | none =>
      apply hsteps .done
      · simp [giving, Reply.done, step, herror]
      · simp [giving, Reply.done, step, Session.conclusion, herror]

/-- A run of modules that have all begun does nothing but come to its conclusion. -/
theorem returns_run_of_begun (hbegun : ∀ id ∈ order, session.store.HasBegun id) (root : ModuleId)
    (requester? : Option ModuleId) :
    Returns ⟨session, [.pass order, .settle root, .present root requester?], .go⟩ []
        (order.length + 1 + 2) (session.conclusion root requester?).2
        (session.conclusion root requester?).1 ∧
      startedAbove ⟨session, [.pass order, .settle root, .present root requester?], .go⟩ []
        (order.length + 1 + 2) = [] := by
  obtain ⟨hconcludes, hstarted⟩ := returns_conclusion session root requester?
  constructor
  · exact (returns_pass_of_begun hbegun _).trans (Nat.zero_le _) hconcludes
  · clear hconcludes
    induction order with
    | nil => exact (startedAbove_head rfl rfl 2).trans hstarted
    | cons id rest ih =>
        have hskips := step_pass_of_begun (hbegun id List.mem_cons_self) rest
          [.settle root, .present root requester?]
        have hrest := ih (fun other hother => hbegun other (List.mem_cons_of_mem _ hother))
        rw [List.length_cons, Nat.add_right_comm]
        exact (startedAbove_head rfl hskips _).trans hrest

end Machine

/-! ## Graphs that are built later -/

section Later

variable {stage stage' : Stage} {marks : List Mark} {root id dependency : ModuleId} {graph : Graph}

/-- What has settled has settled for good, unless all modules are forgotten. -/
theorem Chain.hasSettled (hchain : Chain stage marks stage') (hliving : stage.Living)
    (hreset : .reset ∉ marks) (hsettled : stage.store.HasSettled id) :
    stage'.store.HasSettled id := by
  obtain ⟨ref, record, hregistered, hstatus⟩ := hsettled
  obtain ⟨record', hrecord', -, -⟩ := hchain.keepsRecords ref record hregistered.record
  refine ⟨ref, record', ⟨hchain.lookup hreset hregistered.lookup, hrecord'⟩, ?_⟩
  have hbefore : (stage.store.statuses ref).isSettled = true := by
    rwa [Store.statuses_of_record hregistered.record]
  rw [← Store.statuses_of_record hrecord', hchain.statuses hliving,
    (hchain.orderly hliving).settled hbefore, hbefore]

/-- A listed module leads nowhere later where it did not lead before. -/
theorem Store.Edge.back (hchain : Chain stage marks stage') (hliving : stage.Living)
    (hreset : .reset ∉ marks) (hplaced : stage.store.Placed root graph id)
    (hedge : stage'.store.Edge root id dependency) : stage.store.Edge root id dependency := by
  obtain ⟨_, ⟨ref', record', hregistered', hopen, -, rfl⟩, hmem⟩ := hedge
  rcases hplaced with ⟨ref, record, hregistered, hroot, hsettled⟩ | ⟨_, hexpanded, -⟩
  · -- a leaf has settled, and so it has later
    obtain ⟨_, _, hfound, hsettled'⟩ :=
      hchain.hasSettled hliving hreset ⟨ref, record, hregistered, hsettled⟩
    obtain ⟨rfl, rfl⟩ := hfound.unique hregistered'
    simp [hroot, hsettled'] at hopen
  · obtain ⟨ref, record, hregistered, hopen, hanalyzed, rfl⟩ := hexpanded
    exact ⟨_, ⟨ref, record, hregistered, hopen, hanalyzed, rfl⟩,
      Store.Requests.back hchain hliving hreset hregistered hanalyzed
        ⟨ref', record', hregistered', hmem⟩⟩

/-- **The graph of a root that is built later lists no further modules.** -/
theorem Store.Explored.mem_of_later (hexplored : stage.store.Explored root [] graph)
    (hroot : root ∈ graph.order) (hchain : Chain stage marks stage') (hliving : stage.Living)
    (hreset : .reset ∉ marks)
    (hreached : Relation.ReflTransGen (stage'.store.Edge root) root id) : id ∈ graph.order := by
  induction hreached with
  | refl => exact hroot
  | tail _ hedge ih =>
      exact hexplored.mem_of_edge (hedge.back hchain hliving hreset (hexplored.placed _ ih)) ih

/-- What has begun is ready to be built again. -/
theorem Store.Closed.ready_of_begun {store : Store} (hclosed : store.Closed)
    (hbegun : store.HasBegun id) : store.Ready id := by
  obtain ⟨ref, record, hregistered, hstatus⟩ := hbegun
  exact hclosed.ready_of_hasLinked hregistered (Status.hasLinked_of_hasBegun hstatus)

end Later

/-! ## Calls that are made again -/

/-- What is remembered is remembered after any number of steps that forget no module. -/
theorem Machine.recalls_after {machine : Machine} {count : Nat}
    (hremembers : machine.Remembers count) :
    machine.session.engine.resolver.Recalls (machine.after count).session.engine.resolver := by
  have hupheld := Engine.upheldAhead_recalls machine.session.engine.resolver
  induction count with
  | zero => exact fun _ _ _ hknown => hknown
  | succ count ih =>
      obtain ⟨hearlier, hlast⟩ := Machine.remembers_add.mp hremembers
      rw [Machine.after_succ']
      exact Machine.upheld_step_of_rehost hupheld (fun _ _ hrecalls => hrecalls) (ih hearlier)
        (Machine.remembers_succ.mp hlast).1

theorem Engine.recalls_withCells (engine : Engine) (cells : Array Cell) :
    engine.Recalls { engine with store := engine.store.withCells cells } :=
  ⟨⟨fun _ _ _ hknown => hknown, fun _ _ hlookup => hlookup⟩,
    fun _ record hrecord => ⟨record, hrecord, .refl record⟩⟩

/-- Evaluating what a specifier names comes back with this reply, begins no body, and changes nothing
but that cells may be added to which no name refers. -/
def Session.StandsBy (session : Session) (specifier : String) (referrer? : Option ModuleId)
    (reply : Reply) : Prop :=
  ∃ count cells, (Machine.enterEvaluate session [] specifier referrer?).Returns [] count
      (session.withStore (session.store.withCells cells)) reply ∧
    (Machine.enterEvaluate session [] specifier referrer?).startedAbove [] count = []

theorem Store.withCells_empty (store : Store) : store.withCells #[] = store := by
  simp [Store.withCells]

namespace Machine

variable {session final : Session} {engine between : Engine} {specifier : String}
  {referrer? : Option ModuleId} {resolved : Resolved} {ref : RecordRef} {error : ModuleError}
  {graph : Graph} {count : Nat} {reply : Reply}

/-! ### Calls that have failed -/

/-- A specifier that cannot be resolved is an error at once. -/
theorem returns_of_unresolved (session : Session)
    (hended : session.engine.attempt (Attempt.resolveAndRegister specifier referrer?) =
      (.error error, engine)) :
    (enterEvaluate session [] specifier referrer?).Returns [] 0 { session with engine }
        (.error error) ∧
      (enterEvaluate session [] specifier referrer?).startedAbove [] 0 = [] := by
  have hentered : enterEvaluate session [] specifier referrer? =
      giving { session with engine } [] (.error error) := by
    simp [enterEvaluate, Session.attempt, hended]
  rw [hentered]
  exact ⟨returns_giving _ _ _, rfl⟩

/-- A module whose graph cannot be built, or not be linked, is an error at once. -/
theorem returns_of_unprepared (session : Session)
    (hresolved : session.engine.attempt (Attempt.resolveAndRegister specifier referrer?) =
      (.ok (resolved, ref), between))
    (hprepared : between.attempt (Attempt.prepare resolved.id) = (.error error, engine)) :
    (enterEvaluate session [] specifier referrer?).Returns [] 1 { session with engine }
        (.error error) ∧
      (enterEvaluate session [] specifier referrer?).startedAbove [] 1 = [] := by
  have hentered : enterEvaluate session [] specifier referrer? =
      giving { session with engine } [.present resolved.id referrer?] (.error error) := by
    simp [enterEvaluate, enterRun, Session.attempt, hresolved, hprepared]
  have hpresent : (giving { session with engine } [.present resolved.id referrer?]
      (.error error)).step = giving { session with engine } [] (.error error) := rfl
  rw [hentered]
  constructor
  · exact .head (Nat.succ_pos _) List.not_mem_nil hpresent (returns_giving _ _ _)
  · exact startedAbove_head rfl hpresent 0

/-- A specifier that could not be resolved cannot be resolved. -/
theorem standsBy_of_unresolved
    (hended : session.engine.attempt (Attempt.resolveAndRegister specifier referrer?) =
      (.error error, engine)) :
    Session.StandsBy { session with engine } specifier referrer? (.error error) := by
  have hagain := (Attempt.repeats_resolveAndRegister specifier referrer? session.engine).2 engine
  rw [hended] at hagain
  refine ⟨0, #[], ?_⟩
  rw [Store.withCells_empty]
  exact returns_of_unresolved { session with engine } (hagain (.refl _))

/-- A graph that could not be built cannot be built. -/
theorem standsBy_of_unbuilt
    (hresolved : session.engine.attempt (Attempt.resolveAndRegister specifier referrer?) =
      (.ok (resolved, ref), between))
    (hbuilds : Attempt.Builds resolved.id between (.error error, engine)) :
    Session.StandsBy { session with engine } specifier referrer? (.error error) := by
  have hresolved' :=
    (Attempt.repeats_resolveAndRegister specifier referrer? session.engine).2 engine
  rw [hresolved] at hresolved'
  obtain ⟨result, hbuilt, hsame⟩ := hbuilds.again (.refl _)
  have hprepared := attempt_prepare engine resolved.id
  rw [hbuilt] at hprepared
  cases result with
  | ok graph => cases hsame
  | error failure =>
      obtain rfl := Except.error.inj hsame
      refine ⟨1, #[], ?_⟩
      rw [Store.withCells_empty]
      exact returns_of_unprepared { session with engine }
        (hresolved' (.of_ok hbuilds.recalls.toRetains)) hprepared

/-- What could not be linked cannot be linked. -/
theorem standsBy_of_unlinked (hregular : engine.store.Regular) (hrooted : engine.store.Rooted)
    (hresolved : session.engine.attempt (Attempt.resolveAndRegister specifier referrer?) =
      (.ok (resolved, ref), between))
    (hbuilds : Attempt.Builds resolved.id between (.ok graph, engine))
    (hnodup : graph.order.Nodup) (hfailed : (engine.store.link graph.order).1 = .error error) :
    Session.StandsBy
      { session with engine := { engine with store := (engine.store.link graph.order).2 } }
      specifier referrer? (.error error) := by
  obtain ⟨cells, hlinked, more, hagain⟩ := Store.link_again
    ⟨hregular.living.named, hregular.current⟩ hrooted hnodup hregular.closed.coherent hfailed
  rw [hlinked]
  dsimp only
  have hkept := engine.recalls_withCells cells
  generalize hlater : ({ engine with store := engine.store.withCells cells } : Engine) = later
    at hkept
  have hresolved' := (Attempt.repeats_resolveAndRegister specifier referrer? session.engine).2 later
  rw [hresolved] at hresolved'
  obtain ⟨result, hbuilt, hsame⟩ := hbuilds.again (.of_ok hkept)
  have hprepared := attempt_prepare later resolved.id
  rw [hbuilt] at hprepared
  cases result with
  | error failure => cases hsame
  | ok graph' =>
      have horder : graph'.order = graph.order := Except.ok.inj hsame
      have hstore : later.store = engine.store.withCells cells := by rw [← hlater]
      rw [← hstore] at hagain
      dsimp only at hprepared
      rw [horder, hagain] at hprepared
      exact ⟨1, more, returns_of_unprepared { session with engine := later }
        (hresolved' (.of_ok (hbuilds.recalls.trans hkept).toRetains)) hprepared⟩

/-! ### Calls that have run -/

/-- A run begins with the modules in order. -/
theorem regular_of_launches {machine : Machine} {below : List Frame} (hregular : session.store.Regular)
    (hlaunches : session.Launches graph below machine) : machine.session.store.Regular := by
  obtain ⟨store, htouched, hlinking, -⟩ := hlaunches.chains []
  exact hlinking.regular (htouched.regular hregular)

/-- If a run comes back, its pass has come back before and begun all modules of its graph. -/
theorem settles_of_launches {machine : Machine} (hregular : session.store.Regular)
    (hlaunches : session.Launches graph [.present graph.root referrer?] machine)
    (hback : machine.ComesBack [] count) (hremembers : machine.Remembers count) :
    ∃ taken ended, machine.Returns [.settle graph.root, .present graph.root referrer?] taken ended
        .done ∧ ∀ id ∈ graph.order, ended.store.HasBegun id := by
  obtain ⟨_, -, -, -, -, -, hstack⟩ := hlaunches.begins
  have hidle : (session.stage []).Living := hregular.living
  have harranged := hlaunches.arranged hidle hregular.closed
  have hregular' := regular_of_launches hregular hlaunches
  have hliving : machine.stage.Living := by
    unfold stage Session.stage
    rw [hstack]
    exact hregular'.living
  have hcourse : Course graph [.present graph.root referrer?] machine :=
    .among [] [] graph.order hstack rfl (fun id hid => absurd hid List.not_mem_nil)
  have hlow : (machine.after count).stack.length ≤ [Frame.present graph.root referrer?].length :=
    hback.lower.trans (Nat.zero_le _)
  obtain ⟨first, hfirst, hback'⟩ := exists_comesBack hlow
  obtain ⟨rest, rfl⟩ := Nat.exists_eq_add_of_le hfirst
  exact hcourse.settles hliving hregular'.closed harranged.ready hback'
    (remembers_add.mp hremembers).1

/-- A run that comes back has begun all modules of its graph, and comes to its conclusion. -/
theorem concludes_of_launches {machine : Machine} (hregular : session.store.Regular)
    (hlaunches : session.Launches graph [.present graph.root referrer?] machine)
    (hreturns : machine.Returns [] count final reply) :
    (∀ id ∈ graph.order, final.store.HasBegun id) ∧
      final.conclusion graph.root referrer? = (reply, final) := by
  obtain ⟨taken, ended, hpassed, hbegun⟩ :=
    settles_of_launches hregular hlaunches hreturns.back hreturns.remembers
  obtain ⟨-, rfl, rfl⟩ := hreturns.unique
    (hpassed.trans (Nat.zero_le _) (returns_conclusion ended graph.root referrer?).1)
  exact ⟨fun id hid => Session.hasBegun_conclusion (hbegun id hid),
    Session.conclusion_again ended graph.root referrer?⟩

/-- A module that has begun is evaluated by a pass over its graph. -/
theorem enterEvaluate_of_begun (hclosed : session.store.Closed)
    (hknown : session.engine.resolver.remembered? specifier referrer? = some resolved)
    (hbegun : session.store.HasBegun resolved.id) :
    ∃ graph : Graph, session.store.Explored resolved.id [] graph ∧
      enterEvaluate session [] specifier referrer? = ⟨session, [.pass graph.order,
        .settle resolved.id, .present resolved.id referrer?], .go⟩ := by
  obtain ⟨graph, hroot, -, hbuilt, henters⟩ :=
    enterRun_of_ready hclosed (hclosed.ready_of_begun hbegun)
  obtain ⟨ref, record, hregistered, -⟩ := hbegun
  have hresolved := Attempt.attempt_resolveAndRegister_of_known hknown hregistered.lookup
  obtain ⟨hexplored, -⟩ := Engine.explored_of_buildGraph hbuilt
  refine ⟨graph, hexplored, ?_⟩
  unfold enterEvaluate Session.attempt
  rw [hresolved]
  exact (henters _).trans (by rw [hroot])

/-- A call whose modules were run finds all of them begun. -/
theorem standsBy_of_run (hregular : session.store.Regular)
    (hlaunches : session.Launches graph [.present resolved.id referrer?]
      (enterEvaluate session [] specifier referrer?))
    (hroot : graph.root = resolved.id) (hlisted : graph.root ∈ graph.order)
    (hknown : (enterEvaluate session [] specifier referrer?).session.engine.resolver.remembered?
      specifier referrer? = some resolved)
    (hreturns : (enterEvaluate session [] specifier referrer?).Returns [] count final reply) :
    final.StandsBy specifier referrer? reply := by
  rw [← hroot] at hlaunches
  obtain ⟨hbegun, hconclusion⟩ := concludes_of_launches hregular hlaunches hreturns
  obtain ⟨store, htouched, hlinking, -, -, -, hexplored⟩ := hlaunches.chains []
  obtain ⟨_, -, -, -, -, -, hstack⟩ := hlaunches.begins
  generalize enterEvaluate session [] specifier referrer? = machine at *
  -- the modules from when the graph was built to the end of the call
  have hrun := machine.chain_perform (List.replicate count .step)
  rw [show machine.perform (List.replicate count .step) = giving final [] reply from
    hreturns.gives] at hrun
  have hwhole : Chain ⟨[], [], store⟩ _ ⟨[], [], final.store⟩ := hlinking.trans (by
    unfold stage Session.stage at hrun
    rw [hstack] at hrun
    exact hrun)
  have hregular' : store.Regular := htouched.regular hregular
  have hreset : .reset ∉ store.linkMarks graph.order ++
      machine.log (List.replicate count .step) := by
    rw [List.mem_append, not_or]
    exact ⟨store.reset_not_mem_linkMarks _, hreturns.remembers⟩
  have hmemory := recalls_after hreturns.remembers
  rw [hreturns.gives] at hmemory
  -- the call made again builds a graph of modules that have all begun
  obtain ⟨graph', hexplored', hentered⟩ := enterEvaluate_of_begun
    (hwhole.regular hregular').closed (hmemory _ _ _ hknown) (hroot ▸ hbegun _ hlisted)
  have hall : ∀ id ∈ graph'.order, final.store.HasBegun id := fun id hid =>
    hbegun id (hexplored.mem_of_later hlisted hwhole hregular'.living hreset
      (hroot ▸ hexplored'.reached id hid))
  have hagain := returns_run_of_begun hall resolved.id referrer?
  rw [← hroot, hconclusion, hroot] at hagain
  refine ⟨graph'.order.length + 1 + 2, #[], ?_⟩
  rw [Store.withCells_empty, hentered]
  exact hagain

/-- **A call of `evaluate` that is made again right after it has come back gives the same reply.**
From any state of any run and over any host, whatever the first call has come to, a namespace, or an
error in resolving, building, linking or running: the second gives the same namespace or the same
error.  No body begins, and all is left as it was, the records with their sources, environments and
statuses, the namespaces and what the resolver remembers; so nothing has been loaded either, since
what is loaded is kept in its record.  Only a linking that fails again leaves further cells behind,
to which no name refers.  All this is about calls whose graph is built to its end, as it is over
every host with finitely many modules. -/
theorem evaluate_again (place : Place) (config : Config) (acts : List Act) (specifier : String)
    (referrer? : Option ModuleId) (count : Nat) (final : Session) (reply : Reply)
    (hbuilds : ∀ resolved ref engine, ((new place config).perform acts).session.engine.attempt
        (Attempt.resolveAndRegister specifier referrer?) = (.ok (resolved, ref), engine) →
      Attempt.Builds resolved.id engine (engine.attempt (Attempt.buildGraph resolved.id)))
    (hreturns : (enterEvaluate ((new place config).perform acts).session [] specifier
      referrer?).Returns [] count final reply) : final.StandsBy specifier referrer? reply := by
  have hregular := regular_perform place config acts
  have hrooted := rooted_perform place config acts
  generalize ((new place config).perform acts).session = session at *
  have htouched := session.touches_attempt (Attempt.quiet_resolveAndRegister specifier referrer?)
  unfold Session.attempt at htouched
  rcases hresolved : session.engine.attempt (Attempt.resolveAndRegister specifier referrer?) with
    ⟨error | ⟨resolved, ref⟩, between⟩
  · obtain ⟨-, rfl, rfl⟩ := hreturns.unique (returns_of_unresolved session hresolved).1
    exact standsBy_of_unresolved hresolved
  have hbuilt := hbuilds resolved ref between hresolved
  have hprepared := attempt_prepare between resolved.id
  have hmeets := Attempt.meets_buildGraph resolved.id between rfl trivial
  rcases hgraph : between.attempt (Attempt.buildGraph resolved.id) with ⟨error | graph, engine⟩
  · rw [hgraph] at hbuilt hprepared
    obtain ⟨-, rfl, rfl⟩ := hreturns.unique (returns_of_unprepared session hresolved hprepared).1
    exact standsBy_of_unbuilt hresolved hbuilt
  rw [hgraph] at hbuilt hprepared hmeets
  rw [hresolved] at htouched
  obtain ⟨hspans, hlisted⟩ := hmeets.ok graph rfl
  have hchain : Chain ⟨[], [], session.store⟩ [] ⟨[], [], engine.store⟩ :=
    .of_touches (htouched.trans hmeets.touches)
  dsimp only at hprepared
  cases hlinked : (engine.store.link graph.order).1 with
  | error error =>
      rw [hlinked] at hprepared
      obtain ⟨-, rfl, rfl⟩ := hreturns.unique (returns_of_unprepared session hresolved hprepared).1
      exact standsBy_of_unlinked (hchain.regular hregular) (hchain.rooted hregular.living hrooted)
        hresolved hbuilt hspans.nodup hlinked
  | ok _ =>
      rw [hlinked] at hprepared
      obtain ⟨-, hroot, -⟩ := Engine.explored_of_buildGraph hgraph
      have hattempt : session.attempt (Attempt.resolveAndRegister specifier referrer?) =
          (.ok (resolved, ref), { session with engine := between }) := by
        rw [Session.attempt, hresolved]
      have hentered : (enterEvaluate session [] specifier referrer?).session.engine.resolver =
          engine.resolver := by
        unfold enterEvaluate enterRun
        rw [hattempt]
        dsimp only [Session.attempt]
        rw [hprepared]
        rfl
      refine standsBy_of_run hregular (.of_evaluate [] hattempt hgraph hlinked) hroot
        (hroot ▸ hlisted) ?_ hreturns
      rw [hentered]
      exact hbuilt.recalls.resolver _ _ _ (Attempt.known_of_resolveAndRegister hresolved).1

/-- Whether all that is left is to hand an error on. -/
def endsInError : Machine → Bool
  | ⟨_, [.present _ _], .reply (.error _)⟩ => true
  | _ => false

/-- A module asks another for a name that it does not export, and asks in vain again. -/
theorem evaluate_again_torn :
    let session := ((new (.shelf torn) .standard).perform []).session
    ∃ count final error, (enterEvaluate session [] "/left.mjs" none).Returns [] count final
        (.error error) ∧ final.StandsBy "/left.mjs" none (.error error) := by
  have hagain := evaluate_again (.shelf torn) .standard [] "/left.mjs" none
  have hbuilds : ∀ resolved ref engine,
      ((new (.shelf torn) .standard).perform []).session.engine.attempt
        (Attempt.resolveAndRegister "/left.mjs" none) = (.ok (resolved, ref), engine) →
      Attempt.Builds resolved.id engine (engine.attempt (Attempt.buildGraph resolved.id)) := by
    intro resolved ref engine hresolved
    have hhoused := (Engine.keeps_housed_register .standard torn.toHost "/left.mjs" none).after
      (Engine.housed_new .standard torn.toHost)
    rw [show (Engine.new torn.toHost .standard).attempt _ = _ from hresolved] at hhoused
    exact Attempt.builds_buildGraph ((Shelf.covers torn).confines .standard) hhoused resolved.id
  have hpaused : (enterEvaluate ((new (.shelf torn) .standard).perform []).session []
      "/left.mjs" none).endsInError = true := by decide +kernel
  dsimp only
  generalize ((new (.shelf torn) .standard).perform []).session = session
    at hagain hbuilds hpaused ⊢
  unfold endsInError at hpaused
  split at hpaused
  · rename_i paused id requester? error hentered
    have hpresent : (giving paused [.present id requester?] (.error error)).step =
        giving paused [] (.error error) := rfl
    have hreturns : (enterEvaluate session [] "/left.mjs" none).Returns [] 1 paused
        (.error error) := by
      rw [hentered]
      exact .head (Nat.succ_pos _) List.not_mem_nil hpresent (returns_giving _ _ _)
    exact ⟨1, paused, error, hreturns, hagain 1 paused _ hbuilds hreturns⟩
  · cases hpaused

end Machine

end Linkage
