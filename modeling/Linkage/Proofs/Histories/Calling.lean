import Linkage.Proofs.Histories.Passing
import Linkage.Proofs.Runs.Repeating

/-!
# Calls while no body requires another module

To evaluate a module that is scripted comes to an end: the graph is built and linked, and then one
body after the other runs, each to its end.  So every call goes on with the chronicle of the modules,
and leaves no module half way.

* `Machine.returns_statements` : a body of statements comes back.
* `Machine.returns_pass` : a pass over modules comes back, and tells their turns.
* `Session.Resting` : a session between two calls.
* `Session.Resting.evaluate` : a call comes back, and leaves a session resting.
-/

namespace Linkage

variable {config : Config} {host : Host}

namespace Machine

variable {session : Session} {id : ModuleId} {ref : RecordRef} {record : Record} {below : List Frame}
  {signal : Signal}

/-- A body that is left has come to its end. -/
theorem leaveBody_of_result (session : Session) (below : List Frame) (ref : RecordRef)
    (result : Except ModuleError Unit) :
    leaveBody session below ref (result.map (fun _ => Value.undefined)) =
      giving (session.withStore (session.store.modify ref (Record.ended result))) below .done := by
  cases result <;> rfl

/-- A statement that stays within the scope of its body is one access. -/
theorem step_statement (below : List Frame) {statement : Statement} (hquiet : ¬ statement.Requires)
    (hrecord : session.store.record? ref = some record) (rest : Program)
    (hsignal : signal = .go ∨ signal = .reply .done) :
    step ⟨session, .body ref (.statement statement :: rest) :: below, signal⟩ =
      enterAccess session (.body ref rest :: below) (Scope.run ref statement)
        (fun session logged? => match logged? with
          | some text => session.note (.logged text record.id)
          | none => session) := by
  have hnext : step ⟨session, .body ref (.statement statement :: rest) :: below, signal⟩ =
      enterInstruction session (.body ref rest :: below) ref record (.statement statement) := by
    rcases hsignal with rfl | rfl <;> simp only [step, Reply.done, hrecord]
  rw [hnext]
  cases statement with
  | require => exact absurd trivial hquiet
  | _ => rfl

theorem reset_not_mem_of_statements (statements : List Statement) :
    .reset ∉ stepMarks ⟨session, .body ref (statements.map .statement) :: below, signal⟩ := by
  refine reset_not_mem_stepMarks (fun ref instruction rest tail hstack => ?_)
  obtain ⟨hframe, -⟩ := List.cons.inj hstack
  obtain ⟨-, hprogram⟩ := Frame.body.inj hframe
  have hmem : instruction ∈ statements.map Instruction.statement :=
    hprogram ▸ List.mem_cons_self
  obtain ⟨statement, -, rfl⟩ := List.mem_map.mp hmem
  exact nofun

/-- A body of statements comes back when all have run, or one has failed. -/
theorem returns_statements {statements : List Statement}
    (hquiet : ∀ statement ∈ statements, ¬ statement.Requires)
    (hrecord : session.store.record? ref = some record)
    (hsignal : signal = .go ∨ signal = .reply .done) :
    ∃ count final, Returns ⟨session, .body ref (statements.map .statement) :: below, signal⟩ below
        count final .done ∧
      final.engine =
        { session.engine with
          store := (session.store.access (Scope.runAll ref statements)).2.modify ref
            (Record.ended (session.store.access (Scope.runAll ref statements)).1) } := by
  induction statements generalizing session signal record with
  | nil =>
      have hstep : step ⟨session, .body ref [] :: below, signal⟩ =
          leaveBody session below ref .done := by
        rcases hsignal with rfl | rfl <;> rfl
      exact ⟨1, _, .head (Nat.lt_succ_self _) (reset_not_mem_of_statements [])
        (hstep.trans (leaveBody_of_result session below ref (.ok ()))) (returns_giving _ _ _), rfl⟩
  | cons statement rest ih =>
      obtain ⟨hfirst, hrest⟩ := List.forall_mem_cons.mp hquiet
      have hstep := step_statement below hfirst hrecord (rest.map .statement) hsignal
      obtain ⟨environment, exports?, hkept, -⟩ :=
        (Scope.bounded_run statement session.store record hrecord rfl).1.own record hrecord
      rw [Scope.access_runAll_cons]
      unfold enterAccess Session.access at hstep
      generalize session.store.access (Scope.run ref statement) = ended at hstep hkept ⊢
      obtain ⟨result, last⟩ := ended
      cases result with
      | ok logged? =>
          obtain ⟨noted, hnoted, hengine⟩ : ∃ noted : Session,
              step ⟨session, .body ref (.statement statement :: rest.map .statement) :: below,
                signal⟩ = giving noted (.body ref (rest.map .statement) :: below) .done ∧
              noted.engine = { session.engine with store := last } := by
            cases logged? <;> exact ⟨_, hstep, rfl⟩
          have hstore : noted.store = last := congrArg Engine.store hengine
          obtain ⟨count, final, hreturns, hfinal⟩ :=
            ih hrest (show noted.store.record? ref = _ from hstore ▸ hkept) (.inr rfl)
          refine ⟨count + 1, final, .head (Nat.lt_succ_self _)
            (reset_not_mem_of_statements (statement :: rest)) hnoted hreturns, ?_⟩
          rw [hfinal, hstore, hengine]
      | error error =>
          have hleave : step (giving (session.withStore last)
              (.body ref (rest.map .statement) :: below) (.error error)) =
              leaveBody (session.withStore last) below ref (.error error) := by
            cases rest <;> rfl
          refine ⟨2, _, .head (Nat.lt_succ_self _)
            (reset_not_mem_of_statements (statement :: rest)) hstep
            (.head (Nat.lt_succ_self _) (reset_not_mem_of_statements rest) (hleave.trans
              (leaveBody_of_result (session.withStore last) below ref (.error error)))
              (returns_giving _ _ _)), rfl⟩

/-- When it is the turn of a module, its body runs from its beginning to its end. -/
theorem returns_turn {statements : List Statement} (hregistered : session.store.Registered id ref record)
    (hstartable : record.Startable statements)
    (hquiet : ∀ statement ∈ statements, ¬ statement.Requires) (below : List Frame) :
    ∃ count final, (enterModule session below id).Returns below count final .done ∧
      final.engine = { session.engine with store := session.store.ran ref statements } := by
  obtain ⟨source, hsource, hbody⟩ := hstartable.source
  have hbegins : enterModule session below id =
      ⟨session.withStore (session.store.modify ref Record.begin),
        .body ref (statements.map .statement) :: below, .go⟩ := by
    have hstatus := hstartable.status
    cases hformat : record.format with
    | modern =>
        rw [hformat] at hstatus
        rw [enterModule_of_linked hregistered hformat hstatus hsource, hbody,
          Store.modify_begin_of_modern hregistered.record hformat]
    | legacy =>
        rw [hformat] at hstatus
        unfold enterModule Session.attempt
        rw [hregistered.lookup, hregistered.find]
        simp only [hformat, hstatus, hbody, Engine.attempt_startLegacy_of_analyzed hregistered.record
          hstartable.analyzed hsource]
        rfl
  have hrecord : (session.withStore (session.store.modify ref Record.begin)).store.record? ref =
      some record.begin := Store.record?_modify_self Record.begin hregistered.record
  rw [hbegins]
  exact returns_statements hquiet hrecord (.inl rfl)

/-! ## Passes -/

variable {turns : List BodyTurn} {rest : List ModuleId}

/-- **A pass comes back, and tells the turns of its modules.** -/
theorem returns_pass_of_scripted (hscripted : host.Scripted)
    (hchronicle : session.store.Chronicle config host turns)
    (hexpects : Store.Expects config host rest session.store) (signal : Signal)
    (below : List Frame) :
    ∃ count final turns', Returns ⟨session, .pass rest :: below, signal⟩ below count final .done ∧
      final.store.Chronicle config host turns' ∧ final.store.Pauses [] ∧
      session.engine.KnowsSame final.engine := by
  induction rest generalizing session turns signal with
  | nil =>
      exact ⟨1, session, turns, .head (Nat.lt_succ_self _) List.not_mem_nil rfl
        (returns_giving _ _ _), hchronicle, hexpects.pauses, .of_store (.refl _)⟩
  | cons id rest ih =>
      have hhead {machine : Machine} {count : Nat} {final : Session}
          (hstep : enterModule session (.pass rest :: below) id = machine)
          (hreturns : machine.Returns below count final .done) :
          Returns ⟨session, .pass (id :: rest) :: below, signal⟩ below (count + 1) final .done :=
        .head (Nat.lt_succ_self _) (session.reset_not_mem_moduleMarks id) hstep hreturns
      by_cases hsettled : session.store.HasSettled id
      · obtain ⟨count, final, turns', hreturns, hlast⟩ := ih hchronicle (hexpects.skip hsettled) .go
        exact ⟨count + 1, final, turns',
          hhead (enterModule_of_begun hsettled.hasBegun _) hreturns, hlast⟩
      · obtain ⟨turn, hfair, hbefore, hplace, rfl, hripe, hquiet, hexpects'⟩ :=
          hexpects.turn hscripted hchronicle.proper hsettled turns.length
        obtain ⟨first, middle, hturn, hengine⟩ :=
          returns_turn hripe.registered hfair.startable hquiet (.pass rest :: below)
        have hafter : middle.store = turn.after := by
          unfold BodyTurn.after
          rw [hbefore]
          exact congrArg Engine.store hengine
        obtain ⟨more, final, turns', hreturns, hlast, hpauses, hsame⟩ :=
          ih (show middle.store.Chronicle config host _ from
            hafter ▸ hchronicle.ran hfair hbefore hplace) (hafter ▸ hexpects') (.reply .done)
        have hknown : session.engine.KnowsSame middle.engine := by
          rw [hengine]
          exact .of_store ((hbefore ▸ hfair.proper.ran_of_registered hfair.registered).knowsSame
            hripe.registered.record)
        exact ⟨first + more + 1, final, turns', hhead rfl (hturn.trans (Nat.le_succ _) hreturns),
          hlast, hpauses, ⟨hsame.config.trans hknown.config,
          hsame.host.trans hknown.host, hsame.resolver.trans hknown.resolver,
          hknown.store.trans hsame.store, hsame.loads.trans hknown.loads⟩⟩

end Machine

/-! ## Sessions between two calls -/

namespace Session

variable {session : Session} {turns : List BodyTurn} {engine : Engine}

/-- A session between two calls. -/
structure Resting (config : Config) (host : Host) (turns : List BodyTurn) (session : Session) :
    Prop where
  engine : session.engine.Foretold config host
  chronicle : session.store.Chronicle config host turns
  pauses : session.store.Pauses []

theorem resting_of_new (hnew : session.engine = .new host config) :
    session.Resting config host [] where
  engine := hnew ▸ Engine.foretold_new config host
  chronicle := by
    unfold store
    rw [hnew]
    exact Store.chronicle_empty config host
  pauses _ _ _ hregistered := by
    unfold store at hregistered
    rw [hnew] at hregistered
    cases hregistered.lookup

namespace Resting

variable (hresting : session.Resting config host turns)
include hresting

/-- Something is learnt. -/
theorem learns {α : Type} {action : Attempt α} (hquiet : action.Quiet)
    (hforetold : Attempt.Keeps (Engine.Foretold config host) action)
    (henriched : Attempt.Keeps session.engine.Enriched action) :
    (session.attempt action).2.Resting config host turns := by
  have htouches := hquiet.touches session.engine
  have hforetold' := hforetold.after hresting.engine
  have hlearns := (henriched.after (.refl session.engine)).store
  have hproper := hresting.chronicle.proper
  unfold Session.attempt
  generalize session.engine.attempt action = ended at htouches hforetold' hlearns
  refine ⟨hforetold', hresting.chronicle.goesOn (hproper.learns hlearns htouches hforetold'.store)
    (Store.Learns.leavesSettled hlearns hproper.regular.closed)
    (fun id hsettled => Store.Learns.hasSettled_back hlearns hsettled),
    fun id ref record' hregistered => ?_⟩
  rcases hlearns.enriches.back ref record' hregistered.record with
    ⟨record, hrecord, hinformed⟩ | ⟨-, fresh, ⟨_, _, rfl⟩, hinformed⟩
  · rw [hinformed.status]
    refine hresting.pauses id ref record ⟨?_, hrecord⟩
    rcases Store.Learns.lookup_back hlearns hregistered.lookup with hlookup | hnone
    · exact hlookup
    · cases hnone.symm.trans hrecord
  · exact .inr (.inl hinformed.status)

/-- Linking fails. -/
theorem unlinked {order : List ModuleId} {error : ModuleError} (hspans : session.store.Spans order)
    (herror : (session.store.link order).1 = .error error) :
    (session.withStore (session.store.link order).2).Resting config host turns := by
  have hproper := hresting.chronicle.proper
  have hnodup := Store.nodup_pendingLinks hproper.regular.living.named hspans.nodup
  have hsame : session.store.KnowsSame (session.store.link order).2 :=
    .of_rebinds (session.store.rebinds_link order)
  refine ⟨(Engine.upheld_foretold config host).same (.of_store hsame) hresting.engine,
    hresting.chronicle.goesOn (hproper.link hspans) (Store.leavesSettled_link _ order)
      (fun id hsettled => Store.hasSettled_link_back hnodup hsettled),
    fun id ref record' hregistered => ?_⟩
  obtain ⟨record, hrecord, -⟩ := hsame.back hregistered.record
  have hlookup := (hsame.lookup id).symm.trans hregistered.lookup
  rcases Store.link_record hnodup hrecord with ⟨-, hkept⟩ | ⟨-, environment, hkept⟩
  · obtain rfl := Option.some.inj (hkept.symm.trans hregistered.record)
    exact hresting.pauses id ref record ⟨hlookup, hrecord⟩
  · rw [herror] at hkept
    obtain rfl := Option.some.inj (hkept.symm.trans hregistered.record)
    exact .inr (.inl rfl)

/-- A run that is over comes to its conclusion. -/
theorem conclusion (root : ModuleId) (requester? : Option ModuleId) :
    (session.conclusion root requester?).2.Resting config host turns := by
  unfold Session.conclusion
  split
  · exact hresting
  · have hcached := session.store.cached_namespace_ root requester?
    refine ⟨(Engine.upheld_foretold config host).same (.of_store
      (.of_same hcached.lookup?_eq hcached.record?_eq)) hresting.engine,
      hresting.chronicle.goesOn (hresting.chronicle.proper.namespace_ root requester?)
        hcached.leavesSettled (fun id hsettled => hcached.hasSettled_back hsettled),
      fun id ref record hregistered => hresting.pauses id ref record
        ⟨(hcached.lookup?_eq id).symm.trans hregistered.lookup,
          (hcached.record?_eq ref).symm.trans hregistered.record⟩⟩

/-- **A call comes back, and leaves a session resting.** -/
theorem evaluate (hscripted : host.Scripted) (specifier : String) (referrer? : Option ModuleId) :
    ∃ count final reply turns',
      (Machine.enterEvaluate session [] specifier referrer?).Returns [] count final reply ∧
        final.Resting config host turns' := by
  have hfirst := hresting.learns (Attempt.quiet_resolveAndRegister specifier referrer?)
    ((Engine.upheld_foretold config host).register specifier referrer?)
    ((Engine.taught_enriched session.engine).register specifier referrer?)
  unfold Session.attempt at hfirst
  rcases hresolved : session.engine.attempt (Attempt.resolveAndRegister specifier referrer?) with
    ⟨error | ⟨resolved, ref⟩, between⟩
  · rw [hresolved] at hfirst
    exact ⟨_, _, _, turns, (Machine.returns_of_unresolved session hresolved).1, hfirst⟩
  rw [hresolved] at hfirst
  have hbuilt := hfirst.learns (Attempt.quiet_buildGraph resolved.id)
    ((Engine.upheld_foretold config host).keeps_buildGraph resolved.id)
    ((Engine.taught_enriched between).keeps_buildGraph resolved.id)
  have hprepared := Machine.attempt_prepare between resolved.id
  have hmeets := Attempt.meets_buildGraph resolved.id between rfl trivial
  unfold Session.attempt at hbuilt
  rcases hgraph : between.attempt (Attempt.buildGraph resolved.id) with ⟨error | graph, engine⟩
  · rw [hgraph] at hprepared hbuilt
    exact ⟨_, _, _, turns, (Machine.returns_of_unprepared session hresolved hprepared).1, hbuilt⟩
  obtain ⟨hexplored, -⟩ := Engine.explored_of_buildGraph hgraph
  rw [hgraph] at hprepared hbuilt hmeets
  obtain ⟨hspans, -⟩ := hmeets.ok graph rfl
  dsimp only at hprepared
  cases hlinked : (engine.store.link graph.order).1 with
  | error error =>
      rw [hlinked] at hprepared
      exact ⟨_, _, _, turns, (Machine.returns_of_unprepared session hresolved hprepared).1,
        hbuilt.unlinked hspans hlinked⟩
  | ok _ =>
      rw [hlinked] at hprepared
      have hentered : Machine.enterEvaluate session [] specifier referrer? =
          ⟨withStore { session with engine } (engine.store.link graph.order).2,
            [.pass graph.order, .settle resolved.id, .present resolved.id referrer?], .go⟩ := by
        simp [Machine.enterEvaluate, Machine.enterRun, Session.attempt, hresolved, hprepared,
          Except.map, withStore]
      have hexpects := hexplored.expects_link hbuilt.chronicle hspans hbuilt.pauses hlinked
      have hproper := hbuilt.chronicle.proper
      have hnodup := Store.nodup_pendingLinks hproper.regular.living.named hspans.nodup
      have hchronicle :
          (withStore { session with engine } (engine.store.link graph.order).2).store.Chronicle
            config host turns :=
        hbuilt.chronicle.goesOn (hproper.link hspans) (Store.leavesSettled_link _ graph.order)
          (fun id hsettled => Store.hasSettled_link_back hnodup hsettled)
      have hforetold : Engine.Foretold config host
          (withStore { session with engine } (engine.store.link graph.order).2).engine :=
        (Engine.upheld_foretold config host).same
          (.of_store (.of_rebinds (engine.store.rebinds_link graph.order))) hbuilt.engine
      obtain ⟨count, final, turns', hpass, hlast, hpauses, hsame⟩ :=
        Machine.returns_pass_of_scripted hscripted hchronicle hexpects .go
          [.settle resolved.id, .present resolved.id referrer?]
      have hresting' : final.Resting config host turns' :=
        ⟨(Engine.upheld_foretold config host).same hsame hforetold, hlast, hpauses⟩
      rw [hentered]
      exact ⟨_, _, _, turns', hpass.trans (Nat.zero_le _)
        (Machine.returns_conclusion final resolved.id referrer?).1,
        hresting'.conclusion resolved.id referrer?⟩

end Resting

end Session

end Linkage
