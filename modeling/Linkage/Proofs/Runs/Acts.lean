import Linkage.Proofs.Runs.Changes
import Linkage.Session.Run

/-!
# Runs of an engine

A run is any sequence of acts: a step of the machine, and, when no work is left, a command from
outside or the noting of its answer.  At any time the host may be replaced by any other, so nothing
is assumed of where modules come from.

`Machine.marks` lists, for one act, the statuses it writes in the order the engine writes them, and
that all modules are forgotten if they are.  It follows the engine through everything that can write
a status: a run that links, a body that begins or ends, and the commands that lead there.
`Machine.log` lists the marks of a run; `Machine.bodies` lists the bodies it begins.

* `Machine.act`, `Machine.perform` : acts and runs.
* `Session.give_is_run` : giving a command to a session is a run.
* `Machine.marks`, `Machine.log`, `Machine.bodies` : what a run notes.
-/

namespace Linkage

/-- Something that happens to a machine. -/
inductive Act where
  /-- One step of the topmost frame. -/
  | step
  /-- A command from outside begins. -/
  | call (command : Command) (save? : Option String)
  /-- The answer to a command that has run to the end is made. -/
  | conclude (command : Command) (save? : Option String) (reply : Reply)
  /-- The work that is left is given up. -/
  | abandon
  /-- Modules come from another host from now on. -/
  | rehost (host : Host)

namespace Session

/-- How a command from outside begins: as a machine if it may run bodies, else at once. -/
def opening (session : Session) (save? : Option String) : Command → Machine
  | .evaluate specifier referrer? => Machine.enterEvaluate session [] specifier referrer?
  | .require specifier referrer? => Machine.enterRequire session [] specifier referrer?
  | .importNow specifier referrer? => ⟨session.beginImports [(specifier, referrer?)], [.drain], .go⟩
  | .importAll requests => ⟨session.beginImports requests, [.drain], .go⟩
  | .drive => ⟨session, [.drain], .go⟩
  | .await name => match session.futures.find? name with
    | none => ⟨session, [], .go⟩
    | some future =>
        ⟨beginImports { session with futures := session.futures.erase name }
          [(future.specifier, some future.requester)], [.drain], .go⟩
  | .startImport specifier referrer? => ⟨(session.startImport specifier referrer?).2, [], .go⟩
  | .inspectHost id bare? referrer? true =>
      ⟨(session.inspectHost id bare? referrer? true).2, [.drain], .go⟩
  | command => ⟨(session.answer command save?).2, [], .go⟩

/-- The results of the dynamic imports that were waited for. -/
def results (session : Session) : List Reply :=
  session.waiters.map (fun waiter => match waiter.wait with
    | .over result => result.map .space
    | _ => .error (.aborted "too many steps"))

/-- What the answer to a command that has run to the end does to a session. -/
def closing (session : Session) (save? : Option String) (reply : Reply) : Command → Session
  | .evaluate _ _ => (session.answerReply save? reply).2
  | .require _ _ => (session.answerValue save? reply).2
  | .importNow _ _ | .await _ =>
      (answerReply { session with waiters := [] } save?
        (session.results.headD (.error (.aborted "too many steps")))).2
  | .importAll _ => (answerAll { session with waiters := [] } save? session.results).2
  | _ => session

end Session

namespace Machine

/-- A machine without work. -/
def idle (session : Session) : Machine := ⟨session, [], .go⟩

/-- A new machine. -/
def new (place : Place) (config : Config) : Machine := idle (.new place config)

/-- The machine after an act.  Commands from outside wait until no work is left. -/
def act (machine : Machine) : Act → Machine
  | .step => machine.step
  | .call command save? =>
      if machine.isDone then machine.session.opening save? command else machine
  | .conclude command save? reply =>
      if machine.isDone then idle (machine.session.closing save? reply command) else machine
  | .abandon => idle machine.session
  | .rehost host =>
      { machine with session :=
          { machine.session with engine := { machine.session.engine with host } } }

/-- The machine after a run. -/
def perform (machine : Machine) (acts : List Act) : Machine :=
  acts.foldl act machine

@[simp] theorem perform_nil (machine : Machine) : machine.perform [] = machine := rfl

@[simp] theorem perform_cons (machine : Machine) (first : Act) (rest : List Act) :
    machine.perform (first :: rest) = (machine.act first).perform rest := rfl

theorem perform_append (machine : Machine) (acts more : List Act) :
    machine.perform (acts ++ more) = (machine.perform acts).perform more :=
  List.foldl_append

/-- Taking steps to the end is a run. -/
theorem exists_perform_run (fuel : Nat) (machine : Machine) :
    ∃ acts, machine.perform acts = machine.run fuel := by
  induction fuel generalizing machine with
  | zero => exact ⟨[], rfl⟩
  | succ fuel ih =>
      unfold run
      by_cases hdone : machine.isDone = true
      · rw [if_pos hdone]
        exact ⟨[], rfl⟩
      · rw [if_neg hdone]
        obtain ⟨acts, hacts⟩ := ih machine.step
        exact ⟨.step :: acts, hacts⟩

end Machine

namespace Session

/-- Taking a machine to its end, or giving it up after too many steps, is a run. -/
theorem exists_perform_complete (machine : Machine) :
    ∃ acts, machine.perform acts = .idle (complete machine).2 := by
  obtain ⟨acts, hacts⟩ := machine.exists_perform_run stepLimit
  refine ⟨acts ++ [.abandon], ?_⟩
  rw [Machine.perform_append, hacts]
  rfl

/-- Beginning a command and taking it to its end is a run. -/
theorem exists_perform_call (session : Session) (command : Command) (save? : Option String) :
    ∃ acts, (Machine.idle session).perform acts =
      .idle (complete (session.opening save? command)).2 := by
  obtain ⟨acts, hacts⟩ := exists_perform_complete (session.opening save? command)
  exact ⟨.call command save? :: acts, hacts⟩

/-- Making the answer belongs to the run. -/
theorem exists_perform_conclude {session session' : Session} (command : Command)
    (save? : Option String) (reply : Reply)
    (hrun : ∃ acts, (Machine.idle session).perform acts = .idle session') :
    ∃ acts, (Machine.idle session).perform acts = .idle (session'.closing save? reply command) := by
  obtain ⟨acts, hacts⟩ := hrun
  refine ⟨acts ++ [.conclude command save? reply], ?_⟩
  rw [Machine.perform_append, hacts]
  rfl

/-- Giving a command to a session is a run. -/
theorem give_is_run (session : Session) (command : Command) (save? : Option String) :
    ∃ acts, (Machine.idle session).perform acts = .idle (session.give command save?).2 := by
  have hcall := session.exists_perform_call command save?
  have hplain : (Machine.idle session).perform [.call command save?] =
      session.opening save? command := rfl
  cases command with
  | evaluate specifier referrer? =>
      exact exists_perform_conclude (.evaluate specifier referrer?) save?
        (session.evaluate specifier referrer?).1 hcall
  | require specifier referrer? =>
      exact exists_perform_conclude (.require specifier referrer?) save?
        (session.require specifier referrer?).1 hcall
  | importNow specifier referrer? =>
      exact exists_perform_conclude (.importNow specifier referrer?) save? .done hcall
  | importAll requests =>
      exact exists_perform_conclude (.importAll requests) save? .done hcall
  | await name =>
      cases hfuture : session.futures.find? name with
      | none =>
          refine ⟨[], ?_⟩
          simp only [give, hfuture, Machine.perform_nil]
      | some future =>
          simp only [opening, hfuture] at hcall
          simp only [give, hfuture]
          exact exists_perform_conclude (.await name) save? .done hcall
  | drive => exact hcall
  | inspectHost id bare? referrer? fetch =>
      cases fetch with
      | true => exact hcall
      | false => exact ⟨_, hplain⟩
  | _ => exact ⟨_, hplain⟩

end Session

/-! ## What a run notes -/

/-- The record whose body a frame runs. -/
def Frame.running? : Frame → Option RecordRef
  | .body ref _ => some ref
  | _ => none

/-- The record in which a frame gives a name a required module. -/
def Frame.awaiting? : Frame → Option RecordRef
  | .assign ref _ => some ref
  | _ => none

/-- What the course of modules depends on in a session with this work left. -/
def Session.stage (session : Session) (stack : List Frame) : Stage :=
  ⟨stack.filterMap Frame.running?, stack.filterMap Frame.awaiting?, session.store⟩

namespace Session

/-- A run of a module: its graph is linked. -/
def runMarks (session : Session) (root : ModuleId) : List Mark :=
  match session.attempt (Attempt.buildGraph root) with
  | (.ok graph, session) => session.store.linkMarks graph.order
  | (.error _, _) => []

/-- The body of a legacy module: it begins if the module can be made ready. -/
def legacyMarks (session : Session) (ref : RecordRef) : List Mark :=
  match session.attempt (Attempt.startLegacy ref) with
  | (.ok _, _) => [.status ref .evaluating]
  | (.error _, _) => []

/-- To evaluate a module is to run it. -/
def evaluateMarks (session : Session) (specifier : String) (referrer? : Option ModuleId) :
    List Mark :=
  match session.attempt (Attempt.resolveAndRegister specifier referrer?) with
  | (.ok (resolved, _), session) => session.runMarks resolved.id
  | (.error _, _) => []

/-- To require a modern module is to run it; the body of a legacy one begins unless it runs or has
run. -/
def requireMarks (session : Session) (specifier : String) (referrer? : Option ModuleId) :
    List Mark :=
  match session.attempt (Attempt.resolveAndRegister specifier referrer?) with
  | (.error _, _) => []
  | (.ok (_, ref), session) => match session.store.record? ref with
    | none => []
    | some record => match record.exports?, record.status with
      | none, _ => session.runMarks record.id
      | some _, .evaluating | some _, .evaluated | some _, .errored => []
      | some _, _ => session.legacyMarks ref

/-- Of all commands only these write a status or forget modules at once. -/
def commandMarks (session : Session) : Command → List Mark
  | .evaluate specifier referrer? => session.evaluateMarks specifier referrer?
  | .require specifier referrer? => session.requireMarks specifier referrer?
  | .reset => [.reset]
  | _ => []

/-- An instruction of a body writes no status itself. -/
def instructionMarks (session : Session) (record : Record) : Instruction → List Mark
  | .statement (.require specifier _) => session.requireMarks specifier (some record.id)
  | .attempt instruction => instructionMarks session record instruction
  | .perform command _ => session.commandMarks command
  | _ => []

/-- Of the statements of a body only `require` is noted. -/
theorem instructionMarks_statement (session : Session) (record : Record) {statement : Statement}
    (hnone : ∀ specifier, statement ≠ .require specifier none)
    (hsome : ∀ specifier target, statement ≠ .require specifier (some target)) :
    session.instructionMarks record (.statement statement) = [] := by
  cases statement with
  | require specifier target? =>
      cases target? with
      | none => exact absurd rfl (hnone specifier)
      | some target => exact absurd rfl (hsome specifier target)
  | _ => simp only [instructionMarks]

/-- A module of a pass: its body begins if it is ready. -/
def moduleMarks (session : Session) (id : ModuleId) : List Mark :=
  match session.store.lookup? id, session.store.find? id with
  | some ref, some record => match record.format, record.status with
    | .modern, .linked => if record.source?.isSome then [.status ref .evaluating] else []
    | .legacy, .unlinked => session.legacyMarks ref
    | _, _ => []
  | _, _ => []

end Session

/-! ## Modules that are not forgotten -/

/-- Linking forgets no module. -/
theorem Store.reset_not_mem_linkMarks (store : Store) (order : List ModuleId) :
    .reset ∉ store.linkMarks order := by
  unfold linkMarks
  cases (store.link order).1 <;> simp

namespace Session

variable (session : Session)

theorem reset_not_mem_runMarks (root : ModuleId) : .reset ∉ session.runMarks root := by
  unfold runMarks
  split
  · exact Store.reset_not_mem_linkMarks _ _
  · exact List.not_mem_nil

theorem reset_not_mem_legacyMarks (ref : RecordRef) : .reset ∉ session.legacyMarks ref := by
  unfold legacyMarks
  split <;> simp

theorem reset_not_mem_requireMarks (specifier : String) (referrer? : Option ModuleId) :
    .reset ∉ session.requireMarks specifier referrer? := by
  unfold requireMarks
  split
  · exact List.not_mem_nil
  · split
    · exact List.not_mem_nil
    · split
      · exact reset_not_mem_runMarks _ _
      · exact List.not_mem_nil
      · exact List.not_mem_nil
      · exact List.not_mem_nil
      · exact reset_not_mem_legacyMarks _ _

theorem reset_not_mem_evaluateMarks (specifier : String) (referrer? : Option ModuleId) :
    .reset ∉ session.evaluateMarks specifier referrer? := by
  unfold evaluateMarks
  split
  · exact reset_not_mem_runMarks _ _
  · exact List.not_mem_nil

theorem reset_not_mem_commandMarks {command : Command} (hreset : command ≠ .reset) :
    .reset ∉ session.commandMarks command := by
  cases command with
  | evaluate specifier referrer? => exact session.reset_not_mem_evaluateMarks specifier referrer?
  | require specifier referrer? => exact session.reset_not_mem_requireMarks specifier referrer?
  | reset => exact absurd rfl hreset
  | _ => exact List.not_mem_nil

theorem reset_not_mem_moduleMarks (id : ModuleId) : .reset ∉ session.moduleMarks id := by
  unfold moduleMarks
  split
  · split
    · split <;> simp
    · exact reset_not_mem_legacyMarks _ _
    · exact List.not_mem_nil
  · exact List.not_mem_nil

end Session

/-- What is left of the second list where it parts from the first. -/
def beyond : List RecordRef → List RecordRef → List RecordRef
  | before :: rest, after :: rest' => if before = after then beyond rest rest' else after :: rest'
  | _, after => after

namespace Machine

/-- What the course of modules depends on. -/
def stage (machine : Machine) : Stage := machine.session.stage machine.stack

/-- What a step notes. -/
def stepMarks (machine : Machine) : List Mark :=
  let session := machine.session
  match machine.stack, machine.signal with
  | .pass (id :: _) :: _, _ => session.moduleMarks id
  | .body ref [] :: _, .go | .body ref [] :: _, .reply (.ok _) => [.status ref .evaluated]
  | .body ref (instruction :: _) :: _, .go
  | .body ref (instruction :: _) :: _, .reply (.ok _) => match session.store.record? ref with
    | none => []
    | some record => session.instructionMarks record instruction
  | .body ref _ :: _, .reply (.error _) => [.status ref .errored]
  | .batch (pipeline :: _) :: _, _ => session.runMarks pipeline.target
  | _, _ => []

/-- What an act notes. -/
def marks (machine : Machine) : Act → List Mark
  | .step => machine.stepMarks
  | .call command _ => if machine.isDone then machine.session.commandMarks command else []
  | .conclude _ _ _ | .abandon | .rehost _ => []

/-- What a run notes. -/
def log (machine : Machine) : List Act → List Mark
  | [] => []
  | first :: rest => machine.marks first ++ (machine.act first).log rest

theorem log_append (machine : Machine) (acts more : List Act) :
    machine.log (acts ++ more) = machine.log acts ++ (machine.perform acts).log more := by
  induction acts generalizing machine with
  | nil => rfl
  | cons first rest ih =>
      rw [List.cons_append, log, ih, log, List.append_assoc]
      rfl

/-- The bodies that are on the stack, innermost first. -/
def running (machine : Machine) : List RecordRef := machine.stage.running

/-- The bodies that an act puts on the stack, in the order they begin. -/
def begins (machine : Machine) (act : Act) : List RecordRef :=
  beyond machine.running.reverse (machine.act act).running.reverse

/-- The bodies that a run begins, in order. -/
def bodies (machine : Machine) : List Act → List RecordRef
  | [] => []
  | first :: rest => machine.begins first ++ (machine.act first).bodies rest

end Machine

end Linkage
