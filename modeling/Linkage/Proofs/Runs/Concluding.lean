import Linkage.Proofs.Alike.Runs
import Linkage.Proofs.Runs.Importing
import Linkage.Proofs.Runs.Repeating

/-!
# A dynamic import that is awaited alone

If nobody else waits and no other module is in flight, a dynamic import takes its steps one after the
other: its pipeline is taken up, its sources are fetched, its module is run, and then it is given what
the run has come to.  Without a run it is given at once what there is.

* `Session.conclude_eq` : whoever has waited is given the conclusion of a run.
* `Machine.Grants` : which bodies have begun at the end, and what the one who waits is given.
* `Machine.grants_settle`, `Machine.grants_finish_error` : how a pipeline ends.
* `Machine.grants_of_unresolved`, `Machine.grants_of_settled`, `Machine.step_importing` : how an import
  begins.
-/

namespace Linkage

namespace Session

variable {session : Session} {waiter : Waiter} {ref : RecordRef} {record : Record}

theorem cached_conclusion (session : Session) (root : ModuleId) (requester? : Option ModuleId) :
    session.store.Cached (session.conclusion root requester?).2.store := by
  unfold conclusion
  split
  · exact .refl _
  · exact session.store.cached_namespace_ root requester?

/-- The error of the root is the conclusion. -/
theorem conclusion_of_error {root : ModuleId} (hregistered : session.store.Registered root ref record)
    {error : ModuleError} (herror : record.error? = some error) (requester? : Option ModuleId) :
    session.conclusion root requester? = (.error error, session) := by
  simp [conclusion, hregistered.find, herror]

/-- If the root has not failed, its namespace is the conclusion. -/
theorem conclusion_of_ok {root : ModuleId} (hupright : session.store.Upright)
    (hregistered : session.store.Registered root ref record) (herror : record.error? = none)
    (requester? : Option ModuleId) :
    ∃ found : Namespace, (session.conclusion root requester?).1 = .ok (.space found) ∧
      found.id = root ∧ found.requester? = requester? := by
  obtain ⟨found, hfound, -, hid, hrequester⟩ := hupright.namespace_ hregistered requester?
  refine ⟨found, ?_, hid, hrequester⟩
  simp [conclusion, hregistered.find, herror, hfound]
  rfl

/-- What a run concludes with is told by the modules alone. -/
theorem conclusion_of_store (session session' : Session) (hsame : session'.store = session.store)
    (root : ModuleId) (requester? : Option ModuleId) :
    (session'.conclusion root requester?).1 = (session.conclusion root requester?).1 ∧
      (session'.conclusion root requester?).2.store = (session.conclusion root requester?).2.store := by
  unfold conclusion
  rw [hsame]
  split
  · exact ⟨rfl, hsame⟩
  · exact ⟨rfl, rfl⟩

/-- **Whoever has waited for a registered module is given the conclusion of a run.** -/
theorem conclude_eq (hregistered : session.store.Registered waiter.target ref record) :
    ∃ result : Except ModuleError Namespace,
      session.engine.conclude waiter = ({ waiter with wait := .over result },
        (session.conclusion waiter.target waiter.requester?).2.engine) ∧
      result.map Value.space = (session.conclusion waiter.target waiter.requester?).1 := by
  have hfind : session.engine.store.find? waiter.target = some record := hregistered.find
  unfold Engine.conclude Attempt.concludeImport conclusion
  rw [Engine.attempt_bind, Engine.attempt_registered hregistered, hregistered.find]
  dsimp only
  rw [Option.bind_some]
  cases record.error? with
  | some error => exact ⟨.error error, rfl, rfl⟩
  | none =>
      dsimp only
      rw [Engine.attempt_tryStore]
      exact ⟨_, rfl, rfl⟩

end Session

/-- A module that has settled is not registered anew. -/
theorem Store.getOrCreate_of_settled {store : Store} {id : ModuleId} {format : Format} {ref : RecordRef}
    {record : Record} (hregistered : (store.getOrCreate id format).2.Registered id ref record)
    (hsettled : record.status.isSettled = true) : (store.getOrCreate id format).2 = store := by
  rcases store.getOrCreate_cases id format with
    ⟨_, -, heq⟩ | ⟨-, heap, fresh, ⟨_, _, rfl⟩, hid, heq⟩
  · rw [heq]
  · -- a record that is made now has not been evaluated
    rw [heq] at hregistered
    have hlookup := hregistered.lookup
    have hrecord := hregistered.record
    rw [lookup?_register, if_pos hid.symm] at hlookup
    obtain rfl := Option.some.inj hlookup
    rw [record?_register, if_pos rfl] at hrecord
    obtain rfl := Option.some.inj hrecord
    cases hsettled

namespace Engine

variable {engine engine' : Engine} {specifier : String} {referrer? : Option ModuleId} {root : ModuleId}

/-! ## Attempts that have to do with no dynamic import -/

theorem imports_of_resolved {answer : Except ModuleError (Resolved × RecordRef)}
    (hended : engine.attempt (Attempt.resolveAndRegister specifier referrer?) = (answer, engine')) :
    engine'.imports = engine.imports := by
  have hsame : (engine.attempt (Attempt.resolveAndRegister specifier referrer?)).2.imports =
    engine.imports := (Attempt.resolveAndRegister_mirrors specifier referrer?).keeps
  rwa [hended] at hsame

/-- A specifier that names no module changes only what the resolver remembers. -/
theorem eq_of_unresolved {error : ModuleError}
    (hended : engine.attempt (Attempt.resolveAndRegister specifier referrer?) =
      (.error error, engine')) : engine' = { engine with resolver := engine'.resolver } := by
  rw [attempt_resolveAndRegister, attempt_resolve] at hended
  generalize engine.resolver.resolve engine.config engine.host specifier referrer? = answered at hended
  obtain ⟨answer, resolver⟩ := answered
  cases answer with
  | ok resolved => cases hended
  | error failure =>
      obtain ⟨-, rfl⟩ := Prod.mk.inj hended
      rfl

theorem resolve_of_resolved {resolved : Resolved} {ref : RecordRef}
    (hended : engine.attempt (Attempt.resolveAndRegister specifier referrer?) =
      (.ok (resolved, ref), engine')) :
    (engine.attempt (Attempt.resolve specifier referrer?)).1 = .ok resolved := by
  rw [attempt_resolveAndRegister] at hended
  generalize engine.attempt (Attempt.resolve specifier referrer?) = answered at hended ⊢
  obtain ⟨answer, found⟩ := answered
  cases answer with
  | error failure => cases hended
  | ok named =>
      obtain ⟨hfound, -⟩ := Prod.mk.inj hended
      obtain ⟨rfl, -⟩ := Prod.mk.inj (Except.ok.inj hfound)
      rfl

/-- A module that has settled was registered before. -/
theorem store_of_settled {resolved : Resolved} {ref : RecordRef} {record : Record}
    (hended : engine.attempt (Attempt.resolveAndRegister specifier referrer?) =
      (.ok (resolved, ref), engine'))
    (hregistered : engine'.store.Registered resolved.id ref record)
    (hsettled : record.status.isSettled = true) : engine'.store = engine.store := by
  rw [attempt_resolveAndRegister, attempt_resolve] at hended
  generalize engine.resolver.resolve engine.config engine.host specifier referrer? = answered at hended
  obtain ⟨answer, resolver⟩ := answered
  cases answer with
  | error failure => cases hended
  | ok named =>
      obtain ⟨hfound, rfl⟩ := Prod.mk.inj hended
      obtain ⟨rfl, -⟩ := Prod.mk.inj (Except.ok.inj hfound)
      exact Store.getOrCreate_of_settled hregistered hsettled

theorem imports_of_fetched {answer : Except ModuleError Unit}
    (hended : engine.attempt (Attempt.prefetch root) = (answer, engine')) :
    engine'.imports = engine.imports := by
  have hsame : (engine.attempt (Attempt.prefetch root)).2.imports = engine.imports :=
    (Attempt.prefetch_mirrors root).keeps
  rwa [hended] at hsame

theorem imports_of_prepared {answer : Except ModuleError (List ModuleId)}
    (hended : engine.attempt (Attempt.prepare root) = (answer, engine')) :
    engine'.imports = engine.imports := by
  have hsame : (engine.attempt (Attempt.prepare root)).2.imports = engine.imports :=
    (Attempt.prepare_mirrors root).keeps
  rwa [hended] at hsame

end Engine

namespace Machine

variable {machine machine' : Machine} {session : Session} {signal : Signal} {waiter : Waiter}
  {pipeline : Pipeline} {ref : RecordRef} {record : Record} {error : ModuleError} {reply : Reply}
  {store : Store} {begun : List RecordRef} {result : Except ModuleError Namespace}

/-! ## What the one who waits is given -/

/-- Work comes to its end, the bodies of these records having begun.  Then the only one who waits has
this reply, and the modules are these. -/
def Grants (machine : Machine) (begun : List RecordRef) (reply : Reply) (store : Store) : Prop :=
  ∃ count final, machine.Returns [] count final .done ∧ machine.startedAbove [] count = begun ∧
    final.results = [reply] ∧ final.store = store

/-- A step is taken before. -/
theorem Grants.head (hgrants : machine'.Grants begun reply store) (hwork : machine.stack ≠ [])
    (hrunning : machine.running = []) (hreset : .reset ∉ machine.stepMarks)
    (hstep : machine.step = machine') : machine.Grants begun reply store := by
  obtain ⟨count, final, hreturns, hstarted, hresults, hstore⟩ := hgrants
  refine ⟨count + 1, final, .head (List.length_pos_iff.mpr hwork) hreset hstep hreturns, ?_,
    hresults, hstore⟩
  exact (startedAbove_head hrunning hstep count).trans hstarted

theorem grants_giving (session : Session) (hresults : session.results = [reply]) :
    (giving session [] .done).Grants [] reply session.store :=
  ⟨0, session, returns_giving _ _ _, rfl, hresults, rfl⟩

section Below

variable {count : Nat} {base : List Frame} (hreturns : machine.Returns [] count session .done)
  (hbase : base.filterMap Frame.running? = [])
include hreturns hbase

/-- Work above frames that wait comes back to them, and then they go on. -/
theorem Returns.then {more : Nat} {final : Session}
    (hthen : (giving session base .done).Returns [] more final reply)
    (hstarted : (giving session base .done).startedAbove [] more = []) :
    (machine.onto base).Returns [] (count + more) final reply ∧
      (machine.onto base).startedAbove [] (count + more) = machine.startedAbove [] count := by
  have habove : (machine.onto base).Returns base count session .done := returns_onto_iff.mpr hreturns
  have hnone : base.filterMap Frame.running? = ([] : List Frame).filterMap Frame.running? := hbase
  refine ⟨habove.trans (Nat.zero_le _) hthen, ?_⟩
  rw [startedAbove_trans habove.gives hnone, hstarted, List.append_nil,
    startedAbove_onto hreturns.back]

theorem Returns.grants (hgrants : (giving session base .done).Grants [] reply store) :
    (machine.onto base).Grants (machine.startedAbove [] count) reply store := by
  obtain ⟨more, final, hthen, hstarted, hresults, hstore⟩ := hgrants
  obtain ⟨hwhole, hbegun⟩ := hreturns.then hbase hthen hstarted
  exact ⟨count + more, final, hwhole, hbegun, hresults, hstore⟩

end Below

/-- Where nothing waits in the queue there is nothing to run. -/
theorem enterDrain_of_idle (hqueue : session.engine.imports.queue = [])
    (hwaiters : session.waiters = [waiter]) (stack : List Frame) : enterDrain session stack =
      giving { session with
        engine := (session.engine.passTurn waiter).2
        waiters := [(session.engine.passTurn waiter).1] } stack .done := by
  have hsame : ({ session.engine with
      imports := { session.engine.imports with queue := [] } } : Engine) = session.engine := by
    rw [← hqueue]
  unfold enterDrain
  rw [Engine.prefetchQueue_eq, hqueue, hwaiters]
  dsimp only [List.foldl_nil]
  rw [hsame]
  rfl

/-- One whose wait is over has what there is. -/
theorem grants_drain_of_over (hqueue : session.engine.imports.queue = [])
    (hwaiters : session.waiters = [waiter]) (hover : waiter.wait = .over result) :
    Grants ⟨session, [.drain], signal⟩ [] (result.map .space) session.store := by
  have hpassed : session.engine.passTurn waiter = (waiter, session.engine) := by
    unfold Engine.passTurn
    rw [hover]
  have hstep : step ⟨session, [.drain], signal⟩ = giving session [] .done := by
    show enterDrain session [] = _
    rw [enterDrain_of_idle hqueue hwaiters, hpassed]
    simp only [← hwaiters]
  refine .head (grants_giving session ?_) (List.cons_ne_nil _ _) rfl List.not_mem_nil hstep
  unfold Session.results
  rw [hwaiters, List.map_singleton, hover]

/-- One who waits for a turn is given what a run would come to. -/
theorem grants_drain_of_turn (hqueue : session.engine.imports.queue = [])
    (hwaiters : session.waiters = [waiter]) (hturn : waiter.wait = .turn)
    (hregistered : session.store.Registered waiter.target ref record) :
    Grants ⟨session, [.drain], signal⟩ [] (session.conclusion waiter.target waiter.requester?).1
      (session.conclusion waiter.target waiter.requester?).2.store := by
  obtain ⟨result, hconclude, hresult⟩ := Session.conclude_eq hregistered
  have hpassed : session.engine.passTurn waiter = session.engine.conclude waiter := by
    unfold Engine.passTurn
    rw [hturn]
  let concluded : Session := { session with
    engine := (session.conclusion waiter.target waiter.requester?).2.engine
    waiters := [{ waiter with wait := .over result }] }
  have hstep : step ⟨session, [.drain], signal⟩ = giving concluded [] .done := by
    show enterDrain session [] = _
    rw [enterDrain_of_idle hqueue hwaiters, hpassed, hconclude]
  have hresults : concluded.results = [(session.conclusion waiter.target waiter.requester?).1] := by
    rw [← hresult]
    rfl
  exact .head (grants_giving concluded hresults) (List.cons_ne_nil _ _) rfl List.not_mem_nil hstep

/-! ## How a pipeline ends -/

/-- Somebody waits for a pipeline that has not ended, and nobody else does. -/
structure Waits (session : Session) (waiter : Waiter) (pipeline : Pipeline) : Prop where
  queue : session.engine.imports.queue = []
  waiters : session.waiters = [waiter]
  wait : waiter.wait = .pipeline pipeline.ticket
  outcome : session.engine.imports.outcome? pipeline.ticket = none

/-- The batch is over. -/
theorem grants_batch {engine : Engine} (hqueue : session.engine.imports.queue = [])
    (hwaiters : session.waiters = [waiter])
    (hnotice : session.engine.notice waiter = ({ waiter with wait := .over result }, engine)) :
    Grants ⟨session, [.batch [], .drain], signal⟩ [] (result.map .space) engine.store := by
  have hstep : step ⟨session, [.batch [], .drain], signal⟩ = ⟨{ session with
      engine, waiters := [{ waiter with wait := .over result }] }, [.drain], .go⟩ := by
    show (⟨{ session with
      engine := (session.engine.forWaiters Engine.notice session.waiters).2
      waiters := (session.engine.forWaiters Engine.notice session.waiters).1 }, [.drain], .go⟩ :
        Machine) = _
    rw [hwaiters]
    unfold Engine.forWaiters
    simp only [List.foldl_cons, List.foldl_nil, hnotice]
    rfl
  have himports : engine.imports.queue = [] := by
    have hsame := Engine.imports_notice session.engine waiter
    rw [hnotice] at hsame
    rw [hsame]
    exact hqueue
  exact .head (grants_drain_of_over himports rfl rfl) (List.cons_ne_nil _ _) rfl List.not_mem_nil hstep

/-- One who waits for a pipeline that has failed is given its error. -/
theorem grants_batch_of_error (hqueue : session.engine.imports.queue = [])
    (hwaiters : session.waiters = [waiter]) (hwait : waiter.wait = .pipeline pipeline.ticket)
    (houtcome : session.engine.imports.outcome? pipeline.ticket =
      some ⟨pipeline.ticket, some error⟩) :
    Grants ⟨session, [.batch [], .drain], signal⟩ [] (.error error) session.store := by
  have hnotice : session.engine.notice waiter =
      ({ waiter with wait := .over (.error error) }, session.engine) := by
    unfold Engine.notice
    rw [hwait]
    dsimp only
    rw [houtcome]
  exact grants_batch hqueue hwaiters hnotice

section Finish

variable (hwaits : Waits session waiter pipeline)
include hwaits

/-- A pipeline whose run has failed. -/
theorem grants_finish_error :
    Grants (giving session [.finish pipeline, .batch [], .drain] (.error error)) [] (.error error)
      session.store := by
  let finished : Session := { session with engine := { session.engine with
    imports := session.engine.imports.finish pipeline (some error) } }
  have hstep : step (giving session [.finish pipeline, .batch [], .drain] (.error error)) =
      ⟨finished, [.batch [], .drain], .go⟩ := rfl
  have houtcome : finished.engine.imports.outcome? pipeline.ticket =
      some ⟨pipeline.ticket, some error⟩ := by
    show (session.engine.imports.finish pipeline (some error)).outcome? pipeline.ticket = _
    rw [Imports.outcome?_finish, hwaits.outcome, if_pos rfl]
    rfl
  have hended : Grants ⟨finished, [.batch [], .drain], .go⟩ [] (.error error) finished.store :=
    grants_batch_of_error hwaits.queue hwaits.waiters hwaits.wait houtcome
  exact .head hended (List.cons_ne_nil _ _) rfl List.not_mem_nil hstep

/-- **A pipeline that has run its module** gives the conclusion of the run. -/
theorem grants_settle (hregistered : session.store.Registered waiter.target ref record) :
    Grants (giving session [.settle waiter.target, .finish pipeline, .batch [], .drain] .done) []
      (session.conclusion waiter.target waiter.requester?).1
      (session.conclusion waiter.target waiter.requester?).2.store := by
  cases herror : record.error? with
  | some error =>
      have hstep : step (giving session [.settle waiter.target, .finish pipeline, .batch [], .drain]
          .done) = giving session [.finish pipeline, .batch [], .drain] (.error error) := by
        simp [giving, Reply.done, step, hregistered.find, herror]
      rw [Session.conclusion_of_error hregistered herror]
      exact .head (grants_finish_error hwaits) (List.cons_ne_nil _ _) rfl List.not_mem_nil hstep
  | none =>
      have hstep : step (giving session [.settle waiter.target, .finish pipeline, .batch [], .drain]
          .done) = giving session [.finish pipeline, .batch [], .drain] .done := by
        simp [giving, Reply.done, step, hregistered.find, herror]
      -- the pipeline ends without an error, so the import is concluded
      let finished : Session := { session with engine := { session.engine with
        imports := session.engine.imports.finish pipeline none } }
      have hfinish : step (giving session [.finish pipeline, .batch [], .drain] .done) =
          ⟨finished, [.batch [], .drain], .go⟩ := rfl
      have hthere : finished.store.Registered waiter.target ref record := hregistered
      obtain ⟨result, hconclude, hresult⟩ := Session.conclude_eq hthere
      have hnotice : finished.engine.notice waiter = finished.engine.conclude waiter := by
        have houtcome : finished.engine.imports.outcome? pipeline.ticket =
            some ⟨pipeline.ticket, none⟩ := by
          show (session.engine.imports.finish pipeline none).outcome? pipeline.ticket = _
          rw [Imports.outcome?_finish, hwaits.outcome, if_pos rfl]
          rfl
        unfold Engine.notice
        rw [hwaits.wait]
        dsimp only
        rw [houtcome]
      have hended : Grants ⟨finished, [.batch [], .drain], .go⟩ [] (result.map .space)
          (finished.conclusion waiter.target waiter.requester?).2.store :=
        grants_batch hwaits.queue hwaits.waiters (hnotice.trans hconclude)
      have hsame := Session.conclusion_of_store session finished rfl waiter.target waiter.requester?
      rw [hresult, hsame.1] at hended
      rw [← hsame.2]
      exact .head (.head hended (List.cons_ne_nil _ _) rfl List.not_mem_nil hfinish)
        (List.cons_ne_nil _ _) rfl List.not_mem_nil hstep

end Finish

/-! ## How an import begins -/

/-- No dynamic import is under way, and nobody waits for one. -/
structure Unawaited (session : Session) : Prop where
  tracks : session.engine.imports.Tracks []
  queue : session.engine.imports.queue = []
  waiters : session.waiters = []

theorem Unawaited.find?_eq_none (hunawaited : Unawaited session) (text : String) :
    session.engine.imports.inFlight.find? text = none :=
  Option.eq_none_iff_forall_ne_some.mpr (fun pipeline hfound =>
    absurd ((hunawaited.tracks.inFlight _ pipeline).mp hfound).1 List.not_mem_nil)

/-- The engine with which the sources of a module are fetched, once its pipeline has been taken up. -/
def fetching (engine : Engine) (target : ModuleId) : Engine :=
  { engine with imports := { (engine.imports.start target).2 with queue := [] } }

/-- While the sources of a module are fetched, and while it is run, one waits for its pipeline. -/
def attending (session : Session) (engine : Engine) (target : ModuleId)
    (requester? : Option ModuleId) : Session :=
  { session with
    engine, waiters := [⟨target, requester?, .pipeline session.engine.imports.issued⟩] }

section Begin

variable {specifier : String} {referrer? : Option ModuleId} {resolved : Resolved}
  {engine fetched between : Engine} (hunawaited : Unawaited session)
include hunawaited

/-- A specifier that names no module. -/
theorem grants_of_unresolved
    (hended : session.engine.attempt (Attempt.resolveAndRegister specifier referrer?) =
      (.error error, engine)) :
    (importing session [(specifier, referrer?)]).Grants [] (.error error) session.store := by
  have hengine := Engine.eq_of_unresolved hended
  rw [Engine.attempt_resolveAndRegister, Engine.attempt_resolve] at hended
  have hbegun : session.engine.beginImport specifier referrer? =
      (⟨default, referrer?, .over (.error error)⟩, engine) := by
    rw [Engine.beginImport_eq, Engine.attempt_resolve]
    generalize session.engine.resolver.resolve session.engine.config session.engine.host specifier
      referrer? = answered at hended
    obtain ⟨answer, resolver⟩ := answered
    cases answer with
    | ok resolved => cases hended
    | error failure =>
        obtain ⟨hfailure, rfl⟩ := Prod.mk.inj hended
        obtain rfl := Except.error.inj hfailure
        rfl
  have himporting : importing session [(specifier, referrer?)] = ⟨{ session with
      engine, waiters := [⟨default, referrer?, .over (.error error)⟩] }, [.drain], .go⟩ := by
    unfold importing Session.beginImports
    simp [hbegun, hunawaited.waiters]
  have hstore : session.store = engine.store := by
    rw [hengine]
    rfl
  have hidle : engine.imports.queue = [] := by
    rw [hengine]
    exact hunawaited.queue
  rw [himporting, hstore]
  have hover : Waiter.wait ⟨default, referrer?, .over (.error error)⟩ = .over (.error error) := rfl
  exact grants_drain_of_over hidle rfl hover

variable (hresolved : session.engine.attempt (Attempt.resolveAndRegister specifier referrer?) =
  (.ok (resolved, ref), engine))
include hresolved

/-- An import of a module. -/
theorem importing_eq : importing session [(specifier, referrer?)] =
    if ((engine.store.record? ref).map (·.status.isSettled)).getD false then
      ⟨{ session with engine, waiters := [⟨resolved.id, referrer?, .turn⟩] }, [.drain], .go⟩
    else
      ⟨attending session { engine with imports := (session.engine.imports.start resolved.id).2 }
        resolved.id referrer?, [.drain], .go⟩ := by
  rw [Engine.attempt_resolveAndRegister, Engine.attempt_resolve] at hresolved
  unfold importing Session.beginImports attending
  simp only [List.foldl_cons, List.foldl_nil, Engine.beginImport_eq, Engine.attempt_resolve]
  generalize session.engine.resolver.resolve session.engine.config session.engine.host specifier
    referrer? = answered at hresolved
  obtain ⟨answer, resolver⟩ := answered
  cases answer with
  | error failure => cases hresolved
  | ok named =>
      obtain ⟨hfound, rfl⟩ := Prod.mk.inj hresolved
      obtain ⟨rfl, rfl⟩ := Prod.mk.inj (Except.ok.inj hfound)
      dsimp only
      rw [hunawaited.find?_eq_none, hunawaited.waiters]
      dsimp only
      split <;> rfl

/-- A module that has settled. -/
theorem grants_of_settled (hregistered : engine.store.Registered resolved.id ref record)
    (hsettled : record.status.isSettled = true) :
    (importing session [(specifier, referrer?)]).Grants []
      (Session.conclusion { session with engine } resolved.id referrer?).1
      (Session.conclusion { session with engine } resolved.id referrer?).2.store := by
  have himports := Engine.imports_of_resolved hresolved
  have hover : ((engine.store.record? ref).map (·.status.isSettled)).getD false = true := by
    rw [hregistered.record, Option.map_some, hsettled]
    rfl
  rw [importing_eq hunawaited hresolved, if_pos hover]
  let waiting : Session := { session with engine, waiters := [⟨resolved.id, referrer?, .turn⟩] }
  have hidle : waiting.engine.imports.queue = [] := by
    show engine.imports.queue = []
    rw [himports]
    exact hunawaited.queue
  have hsame := Session.conclusion_of_store { session with engine } waiting rfl resolved.id referrer?
  rw [← hsame.1, ← hsame.2]
  exact grants_drain_of_turn hidle rfl rfl (show waiting.store.Registered _ _ _ from hregistered)

/-! ### A module that has not settled -/

section Unsettled

variable (hregistered : engine.store.Registered resolved.id ref record)
  (hunsettled : record.status.isSettled = false)

include hregistered hunsettled in
/-- The pipeline is taken up, and the sources are fetched. -/
theorem step_importing : (importing session [(specifier, referrer?)]).step =
    match (fetching engine resolved.id).attempt (Attempt.prefetch resolved.id) with
    | (.ok (), fetched) => ⟨attending session fetched resolved.id referrer?,
        [.batch [(session.engine.imports.start resolved.id).1], .drain], .go⟩
    | (.error error, fetched) => ⟨attending session { fetched with
          imports := fetched.imports.finish (session.engine.imports.start resolved.id).1 (some error) }
        resolved.id referrer?, [.batch [], .drain], .go⟩ := by
  have hopen : ((engine.store.record? ref).map (·.status.isSettled)).getD false = false := by
    rw [hregistered.record, Option.map_some, hunsettled]
    rfl
  have htarget : (session.engine.imports.start resolved.id).1.target = resolved.id := rfl
  have hstarted : (session.engine.imports.start resolved.id).2.queue =
      [(session.engine.imports.start resolved.id).1] := by
    unfold Imports.start
    rw [hunawaited.queue]
    rfl
  unfold fetching
  rw [Engine.imports_of_resolved hresolved, importing_eq hunawaited hresolved, hopen,
    if_neg Bool.false_ne_true]
  show enterDrain _ [] = _
  rw [enterDrain_of_waiting (by rw [attending, hstarted]; exact List.cons_ne_nil _ _),
    Engine.prefetchQueue_eq]
  unfold attending
  dsimp only
  rw [hstarted, List.foldl_cons, List.foldl_nil, Engine.prefetchOne, htarget]
  generalize Engine.attempt _ (Attempt.prefetch resolved.id) = ended
  obtain ⟨error | _, fetched⟩ := ended <;> rfl

/-- While the sources are fetched, and while the module is run. -/
theorem waits_attending (himports : between.imports = (fetching engine resolved.id).imports) :
    Waits (attending session between resolved.id referrer?)
      ⟨resolved.id, referrer?, .pipeline session.engine.imports.issued⟩
      (session.engine.imports.start resolved.id).1 := by
  have himports' : between.imports =
      { (session.engine.imports.start resolved.id).2 with queue := [] } := by
    rw [himports, fetching, Engine.imports_of_resolved hresolved]
  refine ⟨?_, rfl, rfl, ?_⟩
  · show between.imports.queue = []
    rw [himports']
  · show between.imports.outcome? _ = none
    rw [himports']
    exact (hunawaited.tracks.start (hunawaited.find?_eq_none _)).outcome_eq_none (List.mem_singleton_self _)

include hregistered hunsettled

/-- A module whose sources cannot be fetched. -/
theorem grants_of_unfetched
    (hfetched : (fetching engine resolved.id).attempt (Attempt.prefetch resolved.id) =
      (.error error, fetched)) :
    (importing session [(specifier, referrer?)]).Grants [] (.error error) fetched.store := by
  let pipeline := (session.engine.imports.start resolved.id).1
  have hstep := step_importing hunawaited hresolved hregistered hunsettled
  rw [hfetched] at hstep
  have hwaits := waits_attending hunawaited hresolved (Engine.imports_of_fetched hfetched)
  let failed : Session := attending session { fetched with
    imports := fetched.imports.finish pipeline (some error) } resolved.id referrer?
  have houtcome : failed.engine.imports.outcome? pipeline.ticket =
      some ⟨pipeline.ticket, some error⟩ := by
    show (fetched.imports.finish pipeline (some error)).outcome? pipeline.ticket = _
    rw [Imports.outcome?_finish, show fetched.imports.outcome? _ = none from hwaits.outcome, if_pos rfl]
    rfl
  have hended : Grants ⟨failed, [.batch [], .drain], .go⟩ [] (.error error) failed.store :=
    grants_batch_of_error hwaits.queue rfl rfl houtcome
  exact .head hended (List.cons_ne_nil _ _) rfl List.not_mem_nil hstep

section Fetched

variable (hfetched : (fetching engine resolved.id).attempt (Attempt.prefetch resolved.id) =
  (.ok (), fetched))
include hfetched

/-- Once the sources are fetched the module is run. -/
theorem Grants.of_run {begun : List RecordRef} (hgrants : (enterRun
      (attending session fetched resolved.id referrer?)
      [.finish (session.engine.imports.start resolved.id).1, .batch [], .drain] resolved.id).Grants
        begun reply store) :
    (importing session [(specifier, referrer?)]).Grants begun reply store := by
  have hstep := step_importing hunawaited hresolved hregistered hunsettled
  rw [hfetched] at hstep
  have hrun : step ⟨attending session fetched resolved.id referrer?,
      [.batch [(session.engine.imports.start resolved.id).1], .drain], .go⟩ =
    enterRun (attending session fetched resolved.id referrer?)
      [.finish (session.engine.imports.start resolved.id).1, .batch [], .drain] resolved.id := rfl
  exact .head (.head hgrants (List.cons_ne_nil _ _) rfl (reset_not_mem_stepMarks (by rintro _ _ _ _ ⟨⟩)) hrun)
    (List.cons_ne_nil _ _) rfl List.not_mem_nil hstep

/-- A module whose graph cannot be built, or not be linked. -/
theorem grants_of_unprepared
    (hprepared : fetched.attempt (Attempt.prepare resolved.id) = (.error error, between)) :
    (importing session [(specifier, referrer?)]).Grants [] (.error error) between.store := by
  have himports := (Engine.imports_of_prepared hprepared).trans (Engine.imports_of_fetched hfetched)
  refine .of_run hunawaited hresolved hregistered hunsettled hfetched ?_
  have hentered : enterRun (attending session fetched resolved.id referrer?)
      [.finish (session.engine.imports.start resolved.id).1, .batch [], .drain] resolved.id =
      giving (attending session between resolved.id referrer?)
        [.finish (session.engine.imports.start resolved.id).1, .batch [], .drain] (.error error) := by
    unfold enterRun Session.attempt
    rw [show (attending session fetched resolved.id referrer?).engine.attempt _ = _ from hprepared]
    rfl
  rw [hentered]
  exact grants_finish_error (waits_attending hunawaited hresolved himports)

/-- **A module that is run**: the import is given the conclusion of the run. -/
theorem grants_of_pass {order : List ModuleId} {ended : Session} {count : Nat}
    (hprepared : fetched.attempt (Attempt.prepare resolved.id) = (.ok order, between))
    (hreturns : Returns ⟨attending session between resolved.id referrer?, [.pass order], .go⟩ [] count
      ended .done) {ref' : RecordRef} {record' : Record}
    (hfound : ended.store.Registered resolved.id ref' record') :
    (importing session [(specifier, referrer?)]).Grants
      (startedAbove ⟨attending session between resolved.id referrer?, [.pass order], .go⟩ [] count)
      (ended.conclusion resolved.id referrer?).1 (ended.conclusion resolved.id referrer?).2.store := by
  have himports := (Engine.imports_of_prepared hprepared).trans (Engine.imports_of_fetched hfetched)
  have hwaits := waits_attending hunawaited hresolved himports
  refine .of_run hunawaited hresolved hregistered hunsettled hfetched ?_
  have hentered : enterRun (attending session fetched resolved.id referrer?)
      [.finish (session.engine.imports.start resolved.id).1, .batch [], .drain] resolved.id =
      onto ⟨attending session between resolved.id referrer?, [.pass order], .go⟩
        [.settle resolved.id, .finish (session.engine.imports.start resolved.id).1, .batch [],
          .drain] := by
    unfold enterRun Session.attempt
    rw [show (attending session fetched resolved.id referrer?).engine.attempt _ = _ from hprepared]
    rfl
  rw [hentered]
  refine hreturns.grants rfl ?_
  -- a run leaves dynamic imports alone
  have hminds : Minds ⟨attending session between resolved.id referrer?, [.pass order], .go⟩ []
      between.imports (attending session between resolved.id referrer?).waiters :=
    ⟨rfl, rfl, [.pass order], List.forall_mem_singleton.mpr rfl, rfl, nofun⟩
  obtain ⟨final, _, hgives, hsame, hwaiters⟩ := hminds.given hreturns.back
  obtain ⟨-, hfinal, -⟩ := hreturns.unique ⟨hreturns.back, hreturns.remembers, hgives⟩
  rw [hfinal] at hsame hwaiters
  have hwaits' : Waits ended ⟨resolved.id, referrer?, .pipeline session.engine.imports.issued⟩
      (session.engine.imports.start resolved.id).1 :=
    ⟨hsame ▸ hwaits.queue, hwaiters, rfl, hsame ▸ hwaits.outcome⟩
  exact grants_settle hwaits' hfound

end Fetched

end Unsettled

end Begin

end Machine

end Linkage
