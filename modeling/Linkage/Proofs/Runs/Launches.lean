import Linkage.Proofs.Engine.DepthFirst
import Linkage.Proofs.Runs.LifeCycle

/-!
# What begins on the stack

Whatever a machine is asked to do, what it puts on its stack is one of three things: frames that
only wait, the body of one record, or the pass of a run that begins, each of the last two above
frames that wait.  So this is proved once for every way in which work begins, and then for one step.

* `Session.Launches` : a run begins, and what that does to the store.
* `Session.Enters` : what work that begins puts on the stack.
* `Machine.Goes`, `Machine.goes` : what one step does to the stack.
-/

namespace Linkage

/-- Whether a frame evaluates modules; every other frame waits for one above it or begins work. -/
def Frame.evaluates : Frame → Bool
  | .pass _ | .body _ _ => true
  | _ => false

/-- These frames evaluate nothing. -/
def Idle (frames : List Frame) : Prop := ∀ frame ∈ frames, frame.evaluates = false

/-- This is the body of a registered module. -/
def Store.HasBody (store : Store) (ref : RecordRef) (program : Program) : Prop :=
  ∃ id record source, store.Registered id ref record ∧ record.source? = some source ∧
    source.body = program

namespace Session

/-- A run begins, after the store may have been touched: the graph is built and linked, and its
order is to be evaluated above these frames. -/
def Launches (session : Session) (graph : Graph) (below : List Frame) (machine : Machine) : Prop :=
  ∃ (session' : Session) (engine : Engine), session.store.Touches session'.store ∧
    session'.engine.attempt (Attempt.buildGraph graph.root) = (.ok graph, engine) ∧
    (engine.store.link graph.order).1 = .ok () ∧
    machine = Machine.enterRun session' below graph.root

/-- What work that begins above these frames puts on the stack, and what it notes. -/
inductive Enters (session : Session) (base : List Frame) (marks : List Mark) (machine : Machine) :
    Prop
  /-- Only frames that wait; no body begins and no module is linked. -/
  | waits (above : List Frame) (hidle : Idle above) (hstack : machine.stack = above ++ base)
      (hbegun : begun marks = []) (hlinked : ∀ ref, .status ref .linked ∉ marks)
  /-- The body of a module. -/
  | body (above : List Frame) (ref : RecordRef) (program : Program) (hidle : Idle above)
      (hstack : machine.stack = .body ref program :: (above ++ base))
      (hmarks : marks = [.status ref .evaluating])
      (hbody : machine.session.store.HasBody ref program)
  /-- The pass of a run. -/
  | run (above : List Frame) (graph : Graph) (hidle : Idle above) (hbegun : begun marks = [])
      (hlaunches : session.Launches graph (above ++ base) machine)

end Session

theorem Idle.nil : Idle [] := nofun

theorem Idle.append {above frames : List Frame} (habove : Idle above) (hframes : Idle frames) :
    Idle (above ++ frames) :=
  fun frame hframe => (List.mem_append.mp hframe).elim (habove frame) (hframes frame)

theorem Frame.running?_eq_none {frame : Frame} (hwaits : frame.evaluates = false) :
    frame.running? = none := by
  cases frame with
  | body ref rest => cases hwaits
  | _ => rfl

theorem Idle.running {frames : List Frame} (hidle : Idle frames) :
    frames.filterMap Frame.running? = [] :=
  List.filterMap_eq_nil_iff.mpr (fun frame hframe => Frame.running?_eq_none (hidle frame hframe))

theorem begun_map_of_ne {status : Status} (hstatus : status ≠ .evaluating)
    (refs : List RecordRef) : begun (refs.map (Mark.status · status)) = [] := by
  induction refs with
  | nil => rfl
  | cons ref rest ih =>
      cases status with
      | evaluating => exact absurd rfl hstatus
      | _ => exact ih

/-- Linking begins no body. -/
theorem Store.begun_linkMarks (store : Store) (order : List ModuleId) :
    begun (store.linkMarks order) = [] := by
  unfold linkMarks
  dsimp only
  rw [begun_append, begun_map_of_ne (by decide)]
  cases (store.link order).1 <;> exact begun_map_of_ne (by decide) _

namespace Session

variable {session session' : Session} {base : List Frame} {marks : List Mark} {machine : Machine}

/-- What is there when a run begins: its graph, explored and linked, with all modules of the order
to be evaluated. -/
theorem Launches.begins {graph : Graph} {below : List Frame}
    (hlaunches : session.Launches graph below machine) :
    ∃ store : Store, session.store.Touches store ∧ store.Spans graph.order ∧
      store.Explored graph.root [] graph ∧ (store.link graph.order).1 = .ok () ∧
      machine.session.store = (store.link graph.order).2 ∧
      machine.stack = .pass graph.order :: .settle graph.root :: below := by
  obtain ⟨session', engine, htouches, hbuilt, hlinked, rfl⟩ := hlaunches
  have hended := Attempt.meets_buildGraph graph.root session'.engine rfl trivial
  have hprepared := Machine.attempt_prepare session'.engine graph.root
  rw [hbuilt] at hended hprepared
  dsimp only at hprepared
  rw [hlinked] at hprepared
  have hentered : Machine.enterRun session' below graph.root =
      ⟨{ session' with engine := { engine with store := (engine.store.link graph.order).2 } },
        .pass graph.order :: .settle graph.root :: below, .go⟩ := by
    unfold Machine.enterRun Session.attempt
    rw [hprepared]
    rfl
  rw [hentered]
  exact ⟨engine.store, htouches.trans hended.touches, (hended.ok graph rfl).1,
    (Engine.explored_of_buildGraph hbuilt).1, hlinked, rfl, rfl⟩

/-- To evaluate a module whose graph is built and linked is to run it. -/
theorem Launches.of_evaluate {specifier : String} {referrer? : Option ModuleId}
    {resolved : Resolved} {ref : RecordRef} {graph : Graph} {engine : Engine} (stack : List Frame)
    (hresolved : session.attempt (Attempt.resolveAndRegister specifier referrer?) =
      (.ok (resolved, ref), session'))
    (hbuilt : session'.engine.attempt (Attempt.buildGraph resolved.id) = (.ok graph, engine))
    (hlinked : (engine.store.link graph.order).1 = .ok ()) :
    session.Launches graph (.present resolved.id referrer? :: stack)
      (Machine.enterEvaluate session stack specifier referrer?) := by
  have htouches := session.touches_attempt (Attempt.quiet_resolveAndRegister specifier referrer?)
  obtain ⟨-, hroot, -⟩ := Engine.explored_of_buildGraph hbuilt
  rw [hresolved] at htouches
  refine ⟨session', engine, htouches, hroot ▸ hbuilt, hlinked, ?_⟩
  unfold Machine.enterEvaluate
  rw [hresolved, hroot]

/-- A run that begins touches the store, then links the modules of its graph. -/
theorem Launches.chains {graph : Graph} {below : List Frame}
    (hlaunches : session.Launches graph below machine) (stack : List Frame) :
    ∃ store : Store, Chain (session.stage stack) [] ⟨[], [], store⟩ ∧
      Chain ⟨[], [], store⟩ (store.linkMarks graph.order) ⟨[], [], machine.session.store⟩ ∧
      machine.session.store = (store.link graph.order).2 ∧
      (store.link graph.order).1 = .ok () ∧ store.Spans graph.order ∧
      store.Explored graph.root [] graph := by
  obtain ⟨store, htouches, hspans, hexplored, hlinked, hstore, -⟩ := hlaunches.begins
  have htouched : Chain (session.stage stack) [] ⟨_, _, store⟩ := .of_touches htouches
  refine ⟨store, htouched.trans_quiet (.single .abandon), ?_, hstore, hlinked, hspans, hexplored⟩
  rw [hstore]
  exact .single (.link hspans)

namespace Enters

/-- What touches the store beforehand does not matter. -/
theorem of_touches (htouches : session.store.Touches session'.store)
    (henters : session'.Enters base marks machine) : session.Enters base marks machine := by
  cases henters with
  | waits above hidle hstack hbegun hlinked => exact .waits above hidle hstack hbegun hlinked
  | body above ref program hidle hstack hmarks hbody =>
      exact .body above ref program hidle hstack hmarks hbody
  | run above graph hidle hbegun hlaunches =>
      obtain ⟨session'', engine, htouches', hbuilt, hlinked, heq⟩ := hlaunches
      exact .run above graph hidle hbegun
        ⟨session'', engine, htouches.trans htouches', hbuilt, hlinked, heq⟩

/-- A frame that waits may be put there first. -/
theorem of_cons {frame : Frame} (hwaits : frame.evaluates = false)
    (henters : session.Enters (frame :: base) marks machine) :
    session.Enters base marks machine := by
  have hframe : Idle [frame] := by simpa [Idle] using hwaits
  have hsplit : ∀ above : List Frame, above ++ frame :: base = (above ++ [frame]) ++ base := by
    simp
  cases henters with
  | waits above hidle hstack hbegun hlinked =>
      exact .waits _ (hidle.append hframe) (hsplit above ▸ hstack) hbegun hlinked
  | body above ref program hidle hstack hmarks hbody =>
      exact .body _ ref program (hidle.append hframe) (hsplit above ▸ hstack) hmarks hbody
  | run above graph hidle hbegun hlaunches =>
      exact .run _ graph (hidle.append hframe) hbegun (hsplit above ▸ hlaunches)

/-- Work that is done at once. -/
theorem of_nothing (hstack : machine.stack = base) : session.Enters base [] machine :=
  .waits [] .nil hstack rfl (fun _ => List.not_mem_nil)

/-- What lies below stays. -/
theorem suffix (henters : session.Enters base marks machine) : base <:+ machine.stack := by
  cases henters with
  | waits above hidle hstack => exact ⟨above, hstack.symm⟩
  | body above ref program hidle hstack => exact ⟨.body ref program :: above, hstack.symm⟩
  | run above graph hidle hbegun hlaunches =>
      obtain ⟨_, -, -, -, -, -, hstack⟩ := hlaunches.begins
      exact ⟨.pass graph.order :: .settle graph.root :: above, hstack.symm⟩

end Enters

end Session

namespace Machine

variable {session : Session} {base : List Frame}

theorem enters_run (session : Session) (base : List Frame) (root : ModuleId) :
    session.Enters base (session.runMarks root) (enterRun session base root) := by
  have hprepared := attempt_prepare session.engine root
  unfold Session.runMarks
  cases hbuilt : session.engine.attempt (Attempt.buildGraph root) with
  | mk result engine =>
      rw [hbuilt] at hprepared
      unfold Session.attempt
      rw [hbuilt]
      cases result with
      | error error =>
          refine .of_nothing ?_
          unfold enterRun Session.attempt
          rw [hprepared]
          rfl
      | ok graph =>
          dsimp only at hprepared ⊢
          have hbegun := engine.store.begun_linkMarks graph.order
          cases hlinked : (engine.store.link graph.order).1 with
          | ok _ =>
              obtain ⟨-, rfl, -⟩ := Engine.explored_of_buildGraph hbuilt
              exact .run [] graph .nil hbegun ⟨session, engine, .refl, hbuilt, hlinked, rfl⟩
          | error error =>
              refine .waits [] .nil ?_ hbegun (fun ref => ?_)
              · unfold enterRun Session.attempt
                rw [hprepared, hlinked]
                rfl
              · show Mark.status ref .linked ∉ engine.store.linkMarks graph.order
                simp [Store.linkMarks, hlinked]

/-- A registered legacy module is started: what runs is its body. -/
theorem hasBody_startLegacy {session session' : Session} {id : ModuleId} {ref : RecordRef}
    {record : Record} {program : Program} (hregistered : session.store.Registered id ref record)
    (hstarted : session.attempt (Attempt.startLegacy ref) = (.ok program, session')) :
    session'.store.HasBody ref program := by
  have hrecord : session.engine.store.record? ref = some record := hregistered.record
  unfold Session.attempt at hstarted
  rcases startLegacy_cases hrecord with
    ⟨error, engine, hended, -⟩ | ⟨source, engine, record', hended, htouches, hrecord', -, hsource⟩
  · rw [hended] at hstarted
    cases hstarted
  · rw [hended] at hstarted
    obtain ⟨hprogram, rfl⟩ := Prod.mk.inj hstarted
    obtain rfl := Except.ok.inj hprogram
    refine ⟨id, record'.begin, source, ⟨?_, Store.record?_modify_self _ hrecord'⟩, hsource, rfl⟩
    exact Store.touches_lookup htouches hregistered.lookup

theorem enters_legacy (session : Session) (base : List Frame) {id : ModuleId} {ref : RecordRef}
    {record : Record} (hregistered : session.store.Registered id ref record) :
    session.Enters base (session.legacyMarks ref) (enterLegacy session base ref) := by
  unfold enterLegacy Session.legacyMarks
  cases hstarted : session.attempt (Attempt.startLegacy ref) with
  | mk result session' =>
      cases result with
      | ok program =>
          exact .body [] ref program .nil rfl rfl (hasBody_startLegacy hregistered hstarted)
      | error error => exact .of_nothing rfl

theorem enters_evaluate (session : Session) (base : List Frame) (specifier : String)
    (referrer? : Option ModuleId) :
    session.Enters base (session.evaluateMarks specifier referrer?)
      (enterEvaluate session base specifier referrer?) := by
  have htouches := session.touches_attempt (Attempt.quiet_resolveAndRegister specifier referrer?)
  unfold enterEvaluate Session.evaluateMarks
  cases hended : session.attempt (Attempt.resolveAndRegister specifier referrer?) with
  | mk result session' =>
      rw [hended] at htouches
      cases result with
      | error error => exact .of_nothing rfl
      | ok found =>
          exact ((enters_run session' (.present found.1.id referrer? :: base)
            found.1.id).of_cons rfl).of_touches htouches

theorem enters_require (session : Session) (base : List Frame) (specifier : String)
    (referrer? : Option ModuleId) :
    session.Enters base (session.requireMarks specifier referrer?)
      (enterRequire session base specifier referrer?) := by
  have htouches := session.touches_attempt (Attempt.quiet_resolveAndRegister specifier referrer?)
  unfold enterRequire Session.requireMarks
  cases hended : session.attempt (Attempt.resolveAndRegister specifier referrer?) with
  | mk result session' =>
      rw [hended] at htouches
      cases result with
      | error error => exact .of_nothing rfl
      | ok found =>
          obtain ⟨resolved, ref⟩ := found
          have hlookup : session'.store.lookup? resolved.id = some ref := by
            have hmeets : Attempt.Meets session.engine.host (fun _ => True)
                (Attempt.resolveAndRegister specifier referrer?)
                (fun found store => True ∧ store.lookup? found.1.id = some found.2)
                (fun _ _ => True) :=
              Attempt.meets_resolveAndRegister specifier referrer? (fun _ _ _ _ => trivial)
                (fun _ _ _ _ => trivial)
            obtain ⟨hresult, hsession⟩ := Prod.mk.inj hended
            obtain ⟨-, hlookup⟩ := (hmeets session.engine rfl trivial).ok _ hresult
            rwa [← hsession]
          dsimp only
          cases hrecord : session'.store.record? ref with
          | none => exact .of_nothing rfl
          | some record =>
              dsimp only
              cases record.exports? with
              | none =>
                  exact ((enters_run session' (.present record.id referrer? :: base)
                    record.id).of_cons rfl).of_touches htouches
              | some exports =>
                  have hlegacy := ((enters_legacy session' (.exported ref :: base)
                    ⟨hlookup, hrecord⟩).of_cons rfl).of_touches htouches
                  cases record.status with
                  | evaluating | evaluated | errored => exact .of_nothing rfl
                  | unlinked | linking | linked => exact hlegacy

theorem enters_command (session : Session) (base : List Frame) (command : Command)
    (save? : Option String) :
    session.Enters base (session.commandMarks command)
      (enterCommand session base command save?) := by
  cases command with
  | evaluate specifier referrer? =>
      exact (enters_evaluate session (.report _ save? :: base) specifier referrer?).of_cons rfl
  | require specifier referrer? =>
      exact (enters_require session (.report _ save? :: base) specifier referrer?).of_cons rfl
  | reset => exact .waits [] .nil rfl rfl (by simp [Session.commandMarks])
  | _ => exact .of_nothing rfl

theorem enters_access {α : Type} (session : Session) (base : List Frame) (action : Access α)
    (andThen : Session → α → Session) :
    session.Enters base [] (enterAccess session base action andThen) := by
  refine .of_nothing ?_
  unfold enterAccess
  cases session.access action with
  | mk result session' => cases result <;> rfl

theorem enters_instruction (session : Session) (base : List Frame) (ref : RecordRef)
    (record : Record) (instruction : Instruction) :
    session.Enters base (session.instructionMarks record instruction)
      (enterInstruction session base ref record instruction) := by
  fun_induction enterInstruction session base ref record instruction with
  | case1 base specifier =>
      simp only [Session.instructionMarks]
      exact enters_require session base specifier (some record.id)
  | case2 base specifier target =>
      simp only [Session.instructionMarks]
      exact (enters_require session (.assign ref target :: base) specifier
        (some record.id)).of_cons rfl
  | case3 base statement hnone hsome =>
      rw [session.instructionMarks_statement record hnone hsome]
      exact enters_access session base _ _
  | case4 base => exact .of_nothing rfl
  | case5 base instruction ih =>
      simp only [Session.instructionMarks]
      exact ih.of_cons rfl
  | case6 | case8 | case10 | case11 =>
      simp only [Session.instructionMarks]
      exact enters_access session _ _ _
  | case7 base name literal value session' hvalue =>
      simp only [Session.instructionMarks]
      have htouches := (session.stirs_evaluateLiteral literal).store.touches
      rw [hvalue] at htouches
      exact (enters_access session' base _ _).of_touches htouches
  | case9 | case12 => exact .of_nothing rfl
  | case13 base command save? =>
      simp only [Session.instructionMarks]
      exact enters_command session base command save?

/-- A module of a pass: nothing happens, or its body begins. -/
theorem enters_module (session : Session) (base : List Frame) (id : ModuleId) :
    session.Enters base (session.moduleMarks id) (enterModule session base id) := by
  unfold enterModule Session.moduleMarks
  cases hlookup : session.store.lookup? id with
  | none => exact .of_nothing rfl
  | some ref =>
      cases hfind : session.store.find? id with
      | none => exact .of_nothing rfl
      | some record =>
          have hregistered : session.store.Registered id ref record :=
            ⟨hlookup, by rw [← hfind, Store.find?, hlookup]; rfl⟩
          dsimp only
          cases record.format with
          | modern =>
              cases record.status with
              | linked =>
                  dsimp only
                  cases hsource : record.source? with
                  | none => exact .of_nothing rfl
                  | some source =>
                      have hrecord' := Store.record?_modify_self
                        (fun record : Record => { record with status := .evaluating })
                        hregistered.record
                      exact .body [] ref source.body .nil rfl rfl
                        ⟨id, _, source, ⟨hlookup, hrecord'⟩, hsource, rfl⟩
              | _ => exact .of_nothing rfl
          | legacy =>
              cases record.status with
              | unlinked =>
                  dsimp only
                  unfold Session.legacyMarks
                  cases hstarted : session.attempt (Attempt.startLegacy ref) with
                  | mk result session' =>
                      cases result with
                      | ok program =>
                          exact .body [] ref program .nil rfl rfl
                            (hasBody_startLegacy hregistered hstarted)
                      | error error => exact .of_nothing rfl
              | _ => exact .of_nothing rfl

end Machine

theorem Session.enters_opening (session : Session) (command : Command) (save? : Option String) :
    session.Enters [] (session.commandMarks command) (session.opening save? command) := by
  have hdrain : ∀ session' : Session, session.Enters [] [] ⟨session', [.drain], .go⟩ :=
    fun session' => .waits [.drain] (by simp [Idle, Frame.evaluates]) rfl rfl (by simp)
  cases command with
  | evaluate specifier referrer? => exact Machine.enters_evaluate session [] specifier referrer?
  | require specifier referrer? => exact Machine.enters_require session [] specifier referrer?
  | importNow | importAll | drive => exact hdrain _
  | await name =>
      simp only [opening]
      split
      · exact .of_nothing rfl
      · exact hdrain _
  | inspectHost id bare? referrer? fetch =>
      cases fetch with
      | true => exact hdrain _
      | false => exact .of_nothing rfl
  | reset => exact .waits [] .nil rfl rfl (by simp [commandMarks])
  | _ => exact .of_nothing rfl

namespace Machine

/-- What one step does to the stack, and what it notes. -/
inductive Goes (session : Session) (signal : Signal) :
    List Frame → List Mark → Machine → Prop
  /-- All work is done. -/
  | rest : Goes session signal [] [] ⟨session, [], signal⟩
  /-- A pass is over. -/
  | ended (tail : List Frame) :
      Goes session signal (.pass [] :: tail) [] (giving session tail .done)
  /-- It is the turn of the next module of a pass. -/
  | turn (id : ModuleId) (rest : List ModuleId) (tail : List Frame) :
      Goes session signal (.pass (id :: rest) :: tail) (session.moduleMarks id)
        (enterModule session (.pass rest :: tail) id)
  /-- A body ends. -/
  | leave (ref : RecordRef) (rest : Program) (tail : List Frame) (reply : Reply) :
      Goes session signal (.body ref rest :: tail)
        [.status ref (match reply with | .ok _ => .evaluated | .error _ => .errored)]
        (leaveBody session tail ref reply)
  /-- A body without a record is dropped. -/
  | absent (ref : RecordRef) (rest : Program) (tail : List Frame)
      (hnone : session.store.record? ref = none) :
      Goes session signal (.body ref rest :: tail) [] (giving session tail .done)
  /-- A body goes on. -/
  | body (ref : RecordRef) (instruction : Instruction) (rest : Program) (tail : List Frame)
      {marks : List Mark} {machine : Machine}
      (henters : session.Enters (.body ref rest :: tail) marks machine) :
      Goes session signal (.body ref (instruction :: rest) :: tail) marks machine
  /-- A run ends. -/
  | settle (root : ModuleId) (tail : List Frame) (reply : Reply) :
      Goes session signal (.settle root :: tail) [] (giving session tail reply)
  /-- Another frame that waits goes on. -/
  | waits (frame : Frame) (tail : List Frame) {marks : List Mark} {machine : Machine}
      (hwaits : frame.evaluates = false) (hsettle : ∀ root, frame ≠ .settle root)
      (henters : session.Enters tail marks machine) :
      Goes session signal (frame :: tail) marks machine

/-- One step of a running body. -/
theorem goes_body (session : Session) (signal : Signal) (ref : RecordRef) (rest : Program)
    (tail : List Frame) :
    Goes session signal (.body ref rest :: tail)
      (stepMarks ⟨session, .body ref rest :: tail, signal⟩)
      (step ⟨session, .body ref rest :: tail, signal⟩) := by
  have hnext (instruction : Instruction) (rest : Program) :
      Goes session signal (.body ref (instruction :: rest) :: tail)
        (stepMarks ⟨session, .body ref (instruction :: rest) :: tail, .go⟩)
        (step ⟨session, .body ref (instruction :: rest) :: tail, .go⟩) := by
    unfold stepMarks step
    dsimp only
    cases hrecord : session.store.record? ref with
    | none => exact .absent ref _ tail hrecord
    | some record =>
        exact .body ref instruction rest tail
          (enters_instruction session (.body ref rest :: tail) ref record instruction)
  rcases signal with _ | ⟨error | value⟩
  · cases rest with
    | nil => exact .leave ref [] tail .done
    | cons instruction rest => exact hnext instruction rest
  · cases rest <;> exact .leave ref _ tail (.error error)
  · cases rest with
    | nil => exact .leave ref [] tail .done
    | cons instruction rest => exact hnext instruction rest

/-- **What a step does to the stack.** -/
theorem goes (machine : Machine) :
    Goes machine.session machine.signal machine.stack machine.stepMarks machine.step := by
  obtain ⟨session, stack, signal⟩ := machine
  cases stack with
  | nil => exact .rest
  | cons frame tail =>
      cases frame with
      | pass rest =>
          cases rest with
          | nil => exact .ended tail
          | cons id rest => exact .turn id rest tail
      | body ref rest => exact goes_body session signal ref rest tail
      | settle root =>
          rcases signal with _ | ⟨error | value⟩
          · exact .settle root tail .done
          · exact .settle root tail (.error error)
          · unfold step
            dsimp only
            cases (session.store.find? root).bind (·.error?) with
            | some error => exact .settle root tail (.error error)
            | none => exact .settle root tail (.ok value)
      | batch rest =>
          cases rest with
          | nil => exact .waits _ tail rfl nofun (.of_nothing rfl)
          | cons pipeline rest =>
              refine .waits _ tail rfl nofun ?_
              exact ((enters_run session (.finish pipeline :: .batch rest :: tail)
                pipeline.target).of_cons rfl).of_cons rfl
      | drain =>
          refine .waits _ tail rfl nofun ?_
          show session.Enters tail [] (enterDrain session tail)
          unfold enterDrain
          dsimp only
          split
          · exact .waits [_, _] (by simp [Idle, Frame.evaluates]) rfl rfl (by simp)
          · exact .of_nothing rfl
      | present id requester? =>
          rcases signal with _ | ⟨error | value⟩ <;>
            exact .waits _ tail rfl nofun (.of_nothing rfl)
      | exported ref =>
          refine .waits _ tail rfl nofun (.of_nothing ?_)
          rcases signal with _ | ⟨error | value⟩
          · rfl
          · rfl
          · unfold step
            dsimp only
            cases session.store.record? ref with
            | none => rfl
            | some record =>
                dsimp only
                cases record.error? <;> rfl
      | assign ref name =>
          rcases signal with _ | ⟨error | value⟩
          · exact .waits _ tail rfl nofun (.of_nothing rfl)
          · exact .waits _ tail rfl nofun (.of_nothing rfl)
          · exact .waits _ tail rfl nofun (enters_access session tail _ _)
      | attempt =>
          rcases signal with _ | ⟨error | value⟩ <;>
            exact .waits _ tail rfl nofun (.of_nothing rfl)
      | report command save? =>
          rcases signal with _ | reply <;> exact .waits _ tail rfl nofun (.of_nothing rfl)
      | finish pipeline =>
          rcases signal with _ | ⟨error | value⟩ <;>
            exact .waits _ tail rfl nofun (.of_nothing rfl)

end Machine

end Linkage
