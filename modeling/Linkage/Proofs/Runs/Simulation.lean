import Linkage.Proofs.Runs.Acts
import Linkage.Proofs.Session.Answering

/-!
# Acts are chains of changes

Every act of a machine is a chain of changes of its stage, and what the chain notes is what the act
notes.  The proof goes through the machine as it is written: first the ways in which work begins,
then one step, one act, and a whole run.
-/

namespace Linkage

namespace Session

variable {session : Session} {stack : List Frame}

/-- Touching the store is a chain that notes nothing. -/
theorem chain_of_touches {session' : Session} (stack : List Frame)
    (htouches : session.store.Touches session'.store) :
    Chain (session.stage stack) [] (session'.stage stack) :=
  .of_touches htouches

theorem chain_attempt {α : Type} {action : Attempt α} (session : Session) (stack : List Frame)
    (hquiet : action.Quiet) :
    Chain (session.stage stack) [] ((session.attempt action).2.stage stack) :=
  chain_of_touches stack (session.touches_attempt hquiet)

/-- What a body does through its scope is a chain that notes nothing. -/
theorem chain_access {α : Type} {ref : RecordRef} {action : Access α} (session : Session)
    (hstack : ref ∈ stack.filterMap Frame.running? ∨ ref ∈ stack.filterMap Frame.awaiting?)
    (hwithin : Access.Within ref action) :
    Chain (session.stage stack) [] ((session.access action).2.stage stack) :=
  .of_works hstack (hwithin session.store)

end Session

namespace Machine

variable {session : Session} {stack : List Frame}

/-- Preparing a run is building its graph and linking the order. -/
theorem attempt_prepare (engine : Engine) (root : ModuleId) :
    engine.attempt (Attempt.prepare root) = match engine.attempt (Attempt.buildGraph root) with
      | (.ok graph, engine) =>
          ((engine.store.link graph.order).1.map (fun _ => graph.order),
            { engine with store := (engine.store.link graph.order).2 })
      | (.error error, engine) => (.error error, engine) := by
  unfold Attempt.prepare
  rw [Engine.attempt_bind]
  generalize engine.attempt (Attempt.buildGraph root) = ended
  obtain ⟨result, engine'⟩ := ended
  cases result with
  | error error => rfl
  | ok graph =>
      dsimp only
      rw [Engine.attempt_bind, Engine.attempt_tryStore]
      cases (engine'.store.link graph.order).1 <;> rfl

/-- Beginning a run notes what linking its graph writes. -/
theorem chain_enterRun (session : Session) (stack : List Frame) (root : ModuleId) :
    Chain (session.stage stack) (session.runMarks root) (enterRun session stack root).stage := by
  have hended := Attempt.meets_buildGraph root session.engine rfl trivial
  unfold enterRun Session.runMarks Session.attempt
  rw [attempt_prepare]
  generalize session.engine.attempt (Attempt.buildGraph root) = ended at hended
  obtain ⟨result, engine⟩ := ended
  -- building a graph only touches the store, and what is linked afterwards is noted
  have htouched : Chain (session.stage stack) []
      (Session.stage { session with engine } stack) := .of_touches hended.touches
  cases result with
  | error error => exact htouched
  | ok graph =>
      have hlink : Chain (Session.stage { session with engine } stack)
          (engine.store.linkMarks graph.order)
          (Session.stage { session with engine :=
            { engine with store := (engine.store.link graph.order).2 } } stack) :=
        .single (.link (hended.ok graph rfl).1)
      dsimp only
      cases (engine.store.link graph.order).1 with
      | ok _ => exact htouched.quiet_trans hlink
      | error error => exact htouched.quiet_trans hlink

/-- Starting a legacy module fails with the store touched, or it has analyzed the module, has kept
its source, and begins its body. -/
theorem startLegacy_cases {engine : Engine} {ref : RecordRef} {record : Record}
    (hrecord : engine.store.record? ref = some record) :
    (∃ (error : ModuleError) (engine' : Engine),
      engine.attempt (Attempt.startLegacy ref) = (.error error, engine') ∧
      engine.store.Touches engine'.store) ∨
    ∃ (source : ModuleSource) (engine' : Engine) (record' : Record),
      engine.attempt (Attempt.startLegacy ref) =
        (.ok source.body, { engine' with store := engine'.store.modify ref Record.begin }) ∧
      engine.store.Touches engine'.store ∧ engine'.store.record? ref = some record' ∧
      record'.analysis?.isSome ∧ record'.source? = some source := by
  unfold Attempt.startLegacy
  rw [Engine.attempt_bind, Engine.attempt_get]
  dsimp only
  rw [hrecord]
  dsimp only
  -- first the module is analyzed, then its source is fetched; both only touch the store
  have hanalyze := Attempt.meets_analyze engine rfl hrecord
  rw [Engine.attempt_bind]
  generalize engine.attempt (Attempt.analyze ref record) = ended at hanalyze
  obtain ⟨result, engine₁⟩ := ended
  cases result with
  | error error => exact .inl ⟨error, engine₁, rfl, hanalyze.touches⟩
  | ok dependencies =>
      obtain ⟨record₁, hrecord₁, hanalyzed, -⟩ := hanalyze.ok dependencies rfl
      dsimp only at hrecord₁ ⊢
      rw [Engine.attempt_bind, Engine.attempt_get]
      dsimp only
      rw [hrecord₁]
      dsimp only
      have hsource := Attempt.meets_sourceOf engine₁ rfl hrecord₁
      rw [Engine.attempt_bind]
      generalize engine₁.attempt (Attempt.sourceOf ref record₁) = ended at hsource
      obtain ⟨result, engine₂⟩ := ended
      cases result with
      | error error => exact .inl ⟨error, engine₂, rfl, hanalyze.touches.trans hsource.touches⟩
      | ok source =>
          exact .inr ⟨source, engine₂, _, rfl, hanalyze.touches.trans hsource.touches,
            hsource.ok source rfl, hanalyzed, rfl⟩

/-- The body of a legacy module that neither runs nor has run begins, unless the module cannot be
made ready. -/
theorem chain_startLegacy {ref : RecordRef} {record : Record} (stack : List Frame)
    (hrecord : session.store.record? ref = some record) (hlegacy : record.format = .legacy)
    (hstatus : record.status ≠ .evaluating) (hsettled : record.status.isSettled = false) :
    (∃ error session', session.attempt (Attempt.startLegacy ref) = (.error error, session') ∧
      Chain (session.stage stack) (session.legacyMarks ref) (session'.stage stack)) ∨
    ∃ program session', session.attempt (Attempt.startLegacy ref) = (.ok program, session') ∧
      Chain (session.stage stack) (session.legacyMarks ref)
        (session'.stage (.body ref program :: stack)) := by
  unfold Session.legacyMarks Session.attempt
  rcases startLegacy_cases hrecord with
    ⟨error, engine, hended, htouches⟩ |
      ⟨source, engine, record', hended, htouches, hrecord', hanalysis, hsource⟩
  · rw [hended]
    exact .inl ⟨error, _, rfl, .of_touches htouches⟩
  · rw [hended]
    -- what was seen of the record before it was touched still holds
    obtain ⟨found, hfound, htouched⟩ := Store.touches_record htouches hrecord
    obtain rfl := Option.some.inj (hfound.symm.trans hrecord')
    have hbegin : Change (Session.stage { session with engine } stack) [.status ref .evaluating]
        (Session.stage { session with engine :=
          { engine with store := engine.store.modify ref Record.begin } }
          (.body ref source.body :: stack)) :=
      .beginLegacy hrecord' (by rw [htouched.format, hlegacy]) (by rwa [htouched.status])
        (by rwa [htouched.status]) hanalysis (by rw [hsource]; rfl)
    exact .inr ⟨source.body, _, rfl, (Chain.of_touches htouches).quiet_trans (.single hbegin)⟩

theorem chain_enterLegacy {ref : RecordRef} {record : Record} (stack : List Frame)
    (hrecord : session.store.record? ref = some record) (hlegacy : record.format = .legacy)
    (hstatus : record.status ≠ .evaluating) (hsettled : record.status.isSettled = false) :
    Chain (session.stage stack) (session.legacyMarks ref)
      (enterLegacy session stack ref).stage := by
  unfold enterLegacy
  rcases chain_startLegacy stack hrecord hlegacy hstatus hsettled with
    ⟨error, session', hended, hchain⟩ | ⟨program, session', hended, hchain⟩
  · rw [hended]
    exact hchain
  · rw [hended]
    exact hchain

theorem chain_enterEvaluate (session : Session) (stack : List Frame) (specifier : String)
    (referrer? : Option ModuleId) :
    Chain (session.stage stack) (session.evaluateMarks specifier referrer?)
      (enterEvaluate session stack specifier referrer?).stage := by
  have hresolve := session.chain_attempt stack
    (Attempt.quiet_resolveAndRegister specifier referrer?)
  unfold enterEvaluate Session.evaluateMarks
  generalize session.attempt (Attempt.resolveAndRegister specifier referrer?) = ended at hresolve
  obtain ⟨result, session'⟩ := ended
  cases result with
  | error error => exact hresolve
  | ok found =>
      exact hresolve.quiet_trans
        (chain_enterRun session' (.present found.1.id referrer? :: stack) found.1.id)

theorem chain_enterRequire (session : Session) (stack : List Frame) (specifier : String)
    (referrer? : Option ModuleId) :
    Chain (session.stage stack) (session.requireMarks specifier referrer?)
      (enterRequire session stack specifier referrer?).stage := by
  have hresolve := session.chain_attempt stack
    (Attempt.quiet_resolveAndRegister specifier referrer?)
  unfold enterRequire Session.requireMarks
  generalize session.attempt (Attempt.resolveAndRegister specifier referrer?) = ended at hresolve
  obtain ⟨result, session'⟩ := ended
  cases result with
  | error error => exact hresolve
  | ok found =>
      obtain ⟨resolved, ref⟩ := found
      dsimp only
      cases hrecord : session'.store.record? ref with
      | none => exact hresolve
      | some record =>
          dsimp only
          cases hexports : record.exports? with
          | none =>
              exact hresolve.quiet_trans
                (chain_enterRun session' (.present record.id referrer? :: stack) record.id)
          | some exports =>
              have hlegacy : record.format = .legacy := by simp [Record.format, hexports]
              -- for a legacy module all depends on whether its body runs or has run
              have henter (hstatus : record.status ≠ .evaluating)
                  (hsettled : record.status.isSettled = false) :=
                hresolve.quiet_trans (chain_enterLegacy (.exported ref :: stack) hrecord hlegacy
                  hstatus hsettled)
              cases hstatus : record.status with
              | evaluating => exact hresolve
              | evaluated => exact hresolve
              | errored => exact hresolve
              | unlinked => exact henter (by simp [hstatus]) (by simp [hstatus, Status.isSettled])
              | linking => exact henter (by simp [hstatus]) (by simp [hstatus, Status.isSettled])
              | linked => exact henter (by simp [hstatus]) (by simp [hstatus, Status.isSettled])

/-- Of the commands answered at once only `reset` is noted. -/
theorem chain_answer (session : Session) (stack : List Frame) (command : Command)
    (save? : Option String)
    (hevaluate : ∀ specifier referrer?, command ≠ .evaluate specifier referrer?)
    (hrequire : ∀ specifier referrer?, command ≠ .require specifier referrer?) :
    Chain (session.stage stack) (session.commandMarks command)
      ((session.answer command save?).2.stage stack) := by
  cases command with
  | evaluate specifier referrer? => exact absurd rfl (hevaluate specifier referrer?)
  | require specifier referrer? => exact absurd rfl (hrequire specifier referrer?)
  | reset => exact .single .reset
  | _ => exact Session.chain_of_touches stack (session.touches_answer _ save? (by simp))

theorem chain_enterCommand (session : Session) (stack : List Frame) (command : Command)
    (save? : Option String) :
    Chain (session.stage stack) (session.commandMarks command)
      (enterCommand session stack command save?).stage := by
  cases command with
  | evaluate specifier referrer? =>
      exact chain_enterEvaluate session (.report _ save? :: stack) specifier referrer?
  | require specifier referrer? =>
      exact chain_enterRequire session (.report _ save? :: stack) specifier referrer?
  | _ => exact chain_answer session stack _ save? (by simp) (by simp)

/-- An access of a body leaves the work that was left. -/
theorem stage_enterAccess {α : Type} (session : Session) (stack : List Frame) (action : Access α)
    {andThen : Session → α → Session}
    (hthen : ∀ session value, (andThen session value).store = session.store) :
    (enterAccess session stack action andThen).stage = (session.access action).2.stage stack := by
  unfold enterAccess
  generalize session.access action = ended
  obtain ⟨result, session'⟩ := ended
  cases result with
  | error error => rfl
  | ok value =>
      show Session.stage (andThen session' value) stack = session'.stage stack
      unfold Session.stage
      rw [hthen]

theorem chain_enterAccess {α : Type} {ref : RecordRef} {action : Access α}
    {andThen : Session → α → Session} (session : Session)
    (hrunning : ref ∈ stack.filterMap Frame.running?) (hwithin : Access.Within ref action)
    (hthen : ∀ session value, (andThen session value).store = session.store) :
    Chain (session.stage stack) [] (enterAccess session stack action andThen).stage := by
  rw [stage_enterAccess session stack action hthen]
  exact session.chain_access (.inl hrunning) hwithin

/-- An instruction of a body notes what it asks the engine to do. -/
theorem chain_enterInstruction (session : Session) (stack : List Frame) (ref : RecordRef)
    (record : Record) (instruction : Instruction)
    (hrunning : ref ∈ stack.filterMap Frame.running?) :
    Chain (session.stage stack) (session.instructionMarks record instruction)
      (enterInstruction session stack ref record instruction).stage := by
  -- an instruction that is attempted is entered with one more frame, so the induction is on it
  fun_induction enterInstruction session stack ref record instruction with
  | case1 stack specifier =>
      simp only [Session.instructionMarks]
      exact chain_enterRequire session stack specifier (some record.id)
  | case2 stack specifier target =>
      simp only [Session.instructionMarks]
      have hawait : Change (session.stage stack) []
          (session.stage (.assign ref target :: stack)) := .await hrunning
      exact (Chain.single hawait).quiet_trans
        (chain_enterRequire session (.assign ref target :: stack) specifier (some record.id))
  | case3 stack statement hnone hsome =>
      rw [session.instructionMarks_statement record hnone hsome]
      refine chain_enterAccess session hrunning (Scope.within_run ref statement) ?_
      intro session logged?
      cases logged? <;> rfl
  | case4 stack => exact .refl _
  | case5 stack instruction ih =>
      simp only [Session.instructionMarks]
      exact ih hrunning
  | case6 stack name =>
      simp only [Session.instructionMarks]
      exact chain_enterAccess session hrunning (Scope.within_read ref name) (fun _ _ => rfl)
  | case7 stack name literal value session' hvalue =>
      simp only [Session.instructionMarks]
      have htouches := (session.stirs_evaluateLiteral literal).store.touches
      rw [hvalue] at htouches
      exact (Session.chain_of_touches stack htouches).quiet_trans
        (chain_enterAccess session' hrunning (Scope.within_write ref name value) (fun _ _ => rfl))
  | case8 stack name as_ =>
      simp only [Session.instructionMarks]
      exact chain_enterAccess session hrunning (Scope.within_capture ref name) (fun _ _ => rfl)
  | case9 stack specifier as_ => exact .refl _
  | case10 stack =>
      simp only [Session.instructionMarks]
      exact chain_enterAccess session hrunning (Scope.within_exports ref) (fun _ _ => rfl)
  | case11 stack source =>
      simp only [Session.instructionMarks]
      exact chain_enterAccess session hrunning
        ((Scope.within_read ref source).bind (Scope.within_replaceExports ref)) (fun _ _ => rfl)
  | case12 stack => exact .refl _
  | case13 stack command save? =>
      simp only [Session.instructionMarks]
      exact chain_enterCommand session stack command save?

/-- A module of a pass notes that its body begins, if it does. -/
theorem chain_enterModule (session : Session) (stack : List Frame) (id : ModuleId) :
    Chain (session.stage stack) (session.moduleMarks id) (enterModule session stack id).stage := by
  unfold enterModule Session.moduleMarks
  cases hlookup : session.store.lookup? id with
  | none => exact .refl _
  | some ref =>
      cases hfind : session.store.find? id with
      | none => exact .refl _
      | some record =>
          have hrecord : session.store.record? ref = some record := by
            rwa [Store.find?, hlookup, Option.bind_some] at hfind
          dsimp only
          cases hformat : record.format with
          | modern =>
              cases hstatus : record.status with
              | linked =>
                  dsimp only
                  cases hsource : record.source? with
                  | none => exact .refl _
                  | some source =>
                      have hbegin : Change (session.stage stack) [.status ref .evaluating]
                          ((session.withStore (session.store.setStatus ref .evaluating)).stage
                            (.body ref source.body :: stack)) :=
                        .beginModern hrecord hformat hstatus (by simp [hsource])
                      exact .single hbegin
              | _ => exact .refl _
          | legacy =>
              cases hstatus : record.status with
              | unlinked =>
                  dsimp only
                  rcases chain_startLegacy stack hrecord hformat (by simp [hstatus])
                    (by simp [hstatus, Status.isSettled]) with
                    ⟨error, session', hended, hchain⟩ | ⟨program, session', hended, hchain⟩
                  · rw [hended]
                    exact hchain
                  · rw [hended]
                    exact hchain
              | _ => exact .refl _

/-- The end of a body notes whether it has finished or failed. -/
theorem change_leaveBody (session : Session) (stack : List Frame) (ref : RecordRef)
    (rest : Program) (reply : Reply) :
    Change (session.stage (.body ref rest :: stack))
      [.status ref (match reply with | .ok _ => .evaluated | .error _ => .errored)]
      (leaveBody session stack ref reply).stage := by
  cases reply with
  | ok value => exact .finish
  | error error => exact .fail error

theorem chain_enterDrain (session : Session) (stack : List Frame) :
    Chain (session.stage stack) [] (enterDrain session stack).stage := by
  have hfetched := session.engine.touches_prefetchQueue
  have hpassed := session.engine.prefetchQueue.2.touches_forWaiters Engine.touches_passTurn
    session.waiters
  have hchain : Chain (session.stage stack) [] ⟨_, _,
      (session.engine.prefetchQueue.2.forWaiters Engine.passTurn session.waiters).2.store⟩ :=
    .of_touches (hfetched.trans hpassed)
  unfold enterDrain
  dsimp only
  split
  · exact hchain
  · exact hchain

/-- One step of a running body. -/
theorem chain_body (session : Session) (stack : List Frame) (ref : RecordRef) (rest : Program)
    (signal : Signal) :
    Chain (session.stage (.body ref rest :: stack))
      (stepMarks ⟨session, .body ref rest :: stack, signal⟩)
      (step ⟨session, .body ref rest :: stack, signal⟩).stage := by
  -- told to go on or given a value, the body goes on; given an error, it fails
  have hfinish : Chain (session.stage (.body ref [] :: stack)) [.status ref .evaluated]
      (leaveBody session stack ref .done).stage :=
    .single (change_leaveBody session stack ref [] .done)
  have hnext (instruction : Instruction) (rest : Program) :
      Chain (session.stage (.body ref (instruction :: rest) :: stack))
        (stepMarks ⟨session, .body ref (instruction :: rest) :: stack, .go⟩)
        (step ⟨session, .body ref (instruction :: rest) :: stack, .go⟩).stage := by
    unfold stepMarks step
    dsimp only
    cases hrecord : session.store.record? ref with
    | none => exact .single (.absent hrecord)
    | some record =>
        exact chain_enterInstruction session (.body ref rest :: stack) ref record instruction
          (by simp [Frame.running?])
  cases signal with
  | go =>
      cases rest with
      | nil => exact hfinish
      | cons instruction rest => exact hnext instruction rest
  | reply reply =>
      cases reply with
      | error error =>
          cases rest <;> exact .single (change_leaveBody session stack ref _ (.error error))
      | ok value =>
          cases rest with
          | nil => exact hfinish
          | cons instruction rest => exact hnext instruction rest

/-- One step of a frame that waits. -/
theorem chain_waiting (session : Session) (stack : List Frame) (frame : Frame) (signal : Signal)
    (hbody : ∀ ref rest, frame ≠ .body ref rest) (hpass : ∀ rest, frame ≠ .pass rest)
    (hbatch : ∀ rest, frame ≠ .batch rest) (hdrain : frame ≠ .drain) :
    Chain (session.stage (frame :: stack)) [] (step ⟨session, frame :: stack, signal⟩).stage := by
  cases frame with
  | body ref rest => exact absurd rfl (hbody ref rest)
  | pass rest => exact absurd rfl (hpass rest)
  | batch rest => exact absurd rfl (hbatch rest)
  | drain => exact absurd rfl hdrain
  | settle root =>
      rcases signal with _ | ⟨error | value⟩
      · exact .refl _
      · exact .refl _
      · unfold step
        dsimp only
        cases (session.store.find? root).bind (·.error?) <;> exact .refl _
  | present id requester? =>
      rcases signal with _ | ⟨error | value⟩
      · exact .refl _
      · exact .refl _
      · exact .of_touches (.single (.space id requester?))
  | exported ref =>
      rcases signal with _ | ⟨error | value⟩
      · exact .refl _
      · exact .refl _
      · unfold step
        dsimp only
        cases session.store.record? ref with
        | none => exact .refl _
        | some record =>
            dsimp only
            cases record.error? <;> exact .refl _
  | assign ref name =>
      -- whatever has become of the required module, it is awaited no longer
      have hresume (session : Session) : Chain (session.stage (.assign ref name :: stack)) []
          (session.stage stack) := .single .resume
      rcases signal with _ | ⟨error | value⟩
      · exact hresume session
      · exact hresume session
      · show Chain _ _ (enterAccess session stack (Scope.write ref name value)
          (fun session _ => session)).stage
        rw [stage_enterAccess session stack _ (fun _ _ => rfl)]
        exact (session.chain_access (.inr (by simp [Frame.awaiting?]))
          (Scope.within_write ref name value)).trans_quiet (hresume _)
  | attempt =>
      rcases signal with _ | ⟨error | value⟩ <;> exact .refl _
  | report command save? =>
      rcases signal with _ | reply
      · exact .refl _
      · exact Session.chain_of_touches stack
          (session.stirs_answerCommand save? command reply).store.touches
  | finish pipeline =>
      rcases signal with _ | ⟨error | value⟩ <;> exact .refl _

/-- Every step is a chain of changes. -/
theorem chain_step (machine : Machine) :
    Chain machine.stage machine.stepMarks machine.step.stage := by
  obtain ⟨session, stack, signal⟩ := machine
  cases stack with
  | nil => exact .refl _
  | cons frame stack =>
      cases frame with
      | pass rest =>
          cases rest with
          | nil => exact .refl _
          | cons id rest => exact chain_enterModule session (.pass rest :: stack) id
      | body ref rest => exact chain_body session stack ref rest signal
      | batch rest =>
          cases rest with
          | nil =>
              exact .of_touches
                (session.engine.touches_forWaiters Engine.touches_notice session.waiters)
          | cons pipeline rest =>
              exact chain_enterRun session (.finish pipeline :: .batch rest :: stack)
                pipeline.target
      | drain => exact chain_enterDrain session stack
      | _ => exact chain_waiting session stack _ signal (by simp) (by simp) (by simp) (by simp)

end Machine

namespace Session

/-- A command from outside begins with a chain of changes. -/
theorem chain_opening (session : Session) (command : Command) (save? : Option String) :
    Chain (session.stage []) (session.commandMarks command)
      (session.opening save? command).stage := by
  cases command with
  | evaluate specifier referrer? => exact Machine.chain_enterEvaluate session [] specifier referrer?
  | require specifier referrer? => exact Machine.chain_enterRequire session [] specifier referrer?
  | importNow specifier referrer? =>
      exact chain_of_touches [] (session.touches_beginImports [(specifier, referrer?)])
  | importAll requests => exact chain_of_touches [] (session.touches_beginImports requests)
  | drive => exact .refl _
  | await name =>
      cases hfuture : session.futures.find? name with
      | none =>
          simp only [opening, hfuture]
          exact .refl _
      | some future =>
          simp only [opening, hfuture]
          exact chain_of_touches [] (touches_beginImports
            { session with futures := session.futures.erase name } _)
  | startImport specifier referrer? =>
      exact chain_of_touches [] (session.touches_startImport specifier referrer?)
  | inspectHost id bare? referrer? fetch => cases fetch <;> exact .refl _
  | _ => exact Machine.chain_answer session [] _ save? (by simp) (by simp)

theorem stirs_closing (session : Session) (command : Command) (save? : Option String)
    (reply : Reply) : session.engine.Stirs (session.closing save? reply command).engine := by
  cases command with
  | evaluate specifier referrer? => exact session.stirs_answerReply save? reply
  | require specifier referrer? =>
      show Engine.Stirs _ (session.answerValue save? reply).2.engine
      rw [engine_answerValue]
      exact .refl _
  | importNow specifier referrer? =>
      exact stirs_answerReply { session with waiters := [] } save? _
  | await name => exact stirs_answerReply { session with waiters := [] } save? _
  | importAll requests => exact stirs_answerAll { session with waiters := [] } save? _
  | _ => exact .refl _

end Session

namespace Machine

/-- **Every act is a chain of changes, and what the chain notes is what the act notes.** -/
theorem chain_act (machine : Machine) (act : Act) :
    Chain machine.stage (machine.marks act) (machine.act act).stage := by
  cases act with
  | step => exact machine.chain_step
  | call command save? =>
      obtain ⟨session, stack, signal⟩ := machine
      cases stack with
      | nil => exact session.chain_opening command save?
      | cons frame stack => exact .refl _
  | conclude command save? reply =>
      obtain ⟨session, stack, signal⟩ := machine
      cases stack with
      | nil =>
          exact Session.chain_of_touches []
            (session.stirs_closing command save? reply).store.touches
      | cons frame stack => exact .refl _
  | abandon => exact .single .abandon
  | rehost host => exact .refl _

/-- **A run is a chain of changes.** -/
theorem chain_perform (machine : Machine) (acts : List Act) :
    Chain machine.stage (machine.log acts) (machine.perform acts).stage := by
  induction acts generalizing machine with
  | nil => exact .refl _
  | cons first rest ih => exact (machine.chain_act first).trans (ih (machine.act first))

end Machine

end Linkage
