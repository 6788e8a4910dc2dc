import Linkage.Session.Basic

/-!
# The machine

Bodies run on a machine with an explicit stack.  A frame is either a computation in progress (a pass
over the modules of a graph, a running body, the pipelines of dynamic imports) or something that
waits for the result of the frame above it.  `Machine.step` is one step; a body may ask for another
module in the middle, which puts further frames on top of its own.
-/

namespace Linkage

/-- A piece of work on the stack. -/
inductive Frame where
  /-- Evaluate the modules that are left of an order, as far as they are ready. -/
  | pass (rest : List ModuleId)
  /-- When the pass is over: fail if the root has failed. -/
  | settle (root : ModuleId)
  /-- When the run is over: give the namespace of a module. -/
  | present (id : ModuleId) (requester? : Option ModuleId)
  /-- When the body is over: give the exports value of a legacy module, or its error. -/
  | exported (record : RecordRef)
  /-- Run what is left of a body. -/
  | body (record : RecordRef) (rest : Program)
  /-- When the required module is there: write it to a name. -/
  | assign (record : RecordRef) (name : String)
  /-- When the instruction is over: note whether it succeeded. -/
  | attempt
  /-- When the command is over: note its answer. -/
  | report (command : Command) (save? : Option String)
  /-- Run the pipelines that are left of a batch. -/
  | batch (rest : List Pipeline)
  /-- When the run of a pipeline is over: end the pipeline. -/
  | finish (pipeline : Pipeline)
  /-- Run pipelines as long as there are any. -/
  | drain
deriving Inhabited

/-- What a frame gives to the one below it; frames that have nothing to say give the undefined
value. -/
abbrev Reply : Type := Except ModuleError Value

/-- What the topmost frame is told. -/
inductive Signal where
  /-- To go on. -/
  | go
  /-- What the frame above it has given. -/
  | reply (reply : Reply)
deriving Inhabited

/-- A session in the middle of its work. -/
structure Machine where
  /-- The session. -/
  session : Session
  /-- The frames, topmost first. -/
  stack : List Frame
  /-- What the topmost frame is told. -/
  signal : Signal
deriving Inhabited

/-- The reply of a frame that has done its work. -/
def Reply.done : Reply := .ok .undefined

namespace Attempt

/-- Build and link the graph of a registered module; gives the order of evaluation. -/
def prepare (root : ModuleId) : Attempt (List ModuleId) := do
  let graph ← buildGraph root
  tryStore (·.link graph.order)
  return graph.order

/-- Make a legacy module ready to run: analyzed, loaded, and started.  Gives its body. -/
def startLegacy (ref : RecordRef) : Attempt Program := do
  let some record := (← get).store.record? ref | return []
  let _ ← analyze ref record
  let some record := (← get).store.record? ref | return []
  let source ← sourceOf ref record
  onStore (fun store => ((), store.modify ref (fun record => { record with
    status := .evaluating
    exports? := record.exports?.map (fun exports => { exports with started := true }) })))
  return source.body

end Attempt

namespace Machine

/-- Give a reply to the frame below. -/
def giving (session : Session) (stack : List Frame) (reply : Reply) : Machine :=
  ⟨session, stack, .reply reply⟩

/-- Begin a run of a registered module: build, link, then evaluate. -/
def enterRun (session : Session) (stack : List Frame) (root : ModuleId) : Machine :=
  match session.attempt (Attempt.prepare root) with
  | (.ok order, session) => ⟨session, .pass order :: .settle root :: stack, .go⟩
  | (.error error, session) => giving session stack (.error error)

/-- Begin to run the body of a legacy module. -/
def enterLegacy (session : Session) (stack : List Frame) (ref : RecordRef) : Machine :=
  match session.attempt (Attempt.startLegacy ref) with
  | (.ok program, session) => ⟨session, .body ref program :: stack, .go⟩
  | (.error error, session) => giving session stack (.error error)

/-- Begin to load, link and evaluate what a specifier names. -/
def enterEvaluate (session : Session) (stack : List Frame) (specifier : String)
    (referrer? : Option ModuleId) : Machine :=
  match session.attempt (Attempt.resolveAndRegister specifier referrer?) with
  | (.error error, session) => giving session stack (.error error)
  | (.ok (resolved, _), session) =>
      enterRun session (.present resolved.id referrer? :: stack) resolved.id

/-- Begin to load at once what a specifier names.  A legacy module that is running gives its exports
value as it is now. -/
def enterRequire (session : Session) (stack : List Frame) (specifier : String)
    (referrer? : Option ModuleId) : Machine :=
  match session.attempt (Attempt.resolveAndRegister specifier referrer?) with
  | (.error error, session) => giving session stack (.error error)
  | (.ok (resolved, ref), session) => match session.store.record? ref with
    | none => giving session stack (.error (.detached resolved.id))
    | some record => match record.exports?, record.status with
      | none, _ => enterRun session (.present record.id referrer? :: stack) record.id
      | some exports, .evaluating | some exports, .evaluated =>
          giving session stack (.ok exports.value)
      | some _, .errored =>
          giving session stack (.error (record.error?.getD (.detached record.id)))
      | some _, _ => enterLegacy session (.exported ref :: stack) ref

/-- Begin a command: what runs bodies puts frames on the stack, anything else is answered at once
and its answer noted. -/
def enterCommand (session : Session) (stack : List Frame) (command : Command)
    (save? : Option String) : Machine :=
  match command with
  | .evaluate specifier referrer? =>
      enterEvaluate session (.report command save? :: stack) specifier referrer?
  | .require specifier referrer? =>
      enterRequire session (.report command save? :: stack) specifier referrer?
  | _ =>
      let (answer, session) := session.answer command save?
      giving (session.note (.answered answer)) stack .done

/-- Run an access for a body and give its result. -/
def enterAccess {α : Type} (session : Session) (stack : List Frame) (action : Access α)
    (andThen : Session → α → Session) : Machine :=
  match session.access action with
  | (.ok value, session) => giving (andThen session value) stack .done
  | (.error error, session) => giving session stack (.error error)

/-- Begin an instruction of a body. -/
def enterInstruction (session : Session) (stack : List Frame) (ref : RecordRef) (record : Record) :
    Instruction → Machine
  | .statement (.require specifier none) =>
      enterRequire session stack specifier (some record.id)
  | .statement (.require specifier (some target)) =>
      enterRequire session (.assign ref target :: stack) specifier (some record.id)
  | .statement statement =>
      enterAccess session stack (Scope.run ref statement) (fun session logged? =>
        match logged? with
        | some text => session.note (.logged text record.id)
        | none => session)
  | .announce => giving (session.note (.ran record.id)) stack .done
  | .attempt instruction =>
      enterInstruction session (.attempt :: stack) ref record instruction
  | .observe name =>
      enterAccess session stack (Scope.read ref name) (fun session value =>
        session.note (.observed name (session.store.heap.picture value)))
  | .assign name literal =>
      let (value, session) := session.evaluateLiteral literal
      enterAccess session stack (Scope.write ref name value) (fun session _ => session)
  | .capture name as_ =>
      enterAccess session stack (Scope.capture ref name) (fun session live =>
        { session with lives := session.lives.insert as_ live })
  | .importLater specifier as_ =>
      giving { session with futures := session.futures.insert as_ ⟨specifier, record.id⟩ }
        stack .done
  | .observeExports =>
      enterAccess session stack (Scope.exports ref) (fun session exports =>
        session.note (.exports (session.store.heap.picture exports.value)))
  | .replaceExports source =>
      enterAccess session stack (do
        Scope.replaceExports ref (← Scope.read ref source)) (fun session _ => session)
  | .introduce => giving (session.note (.introduced record.id record.format)) stack .done
  | .perform command save? => enterCommand session stack command save?

/-- Evaluate one module of a pass if it is ready. -/
def enterModule (session : Session) (stack : List Frame) (id : ModuleId) : Machine :=
  match session.store.lookup? id, session.store.find? id with
  | some ref, some record => match record.format, record.status with
    | .modern, .linked => match record.source? with
      | none => ⟨session, stack, .go⟩
      | some source =>
          ⟨session.withStore (session.store.setStatus ref .evaluating),
            .body ref source.body :: stack, .go⟩
    | .legacy, .unlinked => match session.attempt (Attempt.startLegacy ref) with
      | (.ok program, session) => ⟨session, .body ref program :: stack, .go⟩
      | (.error error, session) =>
          ⟨session.note (.warned s!"Failed to load {id.text}: {error.message}"), stack, .go⟩
    | _, _ => ⟨session, stack, .go⟩
  | _, _ => ⟨session, stack, .go⟩

/-- End a body: its record has been evaluated, or has failed. -/
def leaveBody (session : Session) (stack : List Frame) (ref : RecordRef) (reply : Reply) :
    Machine :=
  let store := match reply with
    | .ok _ => session.store.setStatus ref .evaluated
    | .error error => session.store.modify ref (fun record =>
        record.fail (.evaluation record.id error))
  giving (session.withStore store) stack .done

/-- The answer to a command that has run bodies. -/
def answerCommand (session : Session) (save? : Option String) : Command → Reply → Answer × Session
  | .evaluate _ _, reply => session.answerReply save? reply
  | _, reply => session.answerValue save? reply

/-- Begin to run the pipelines that wait: their sources are fetched, then they run one after the
other.  Without such pipelines the work is done. -/
def enterDrain (session : Session) (stack : List Frame) : Machine :=
  let waiting := !session.engine.imports.queue.isEmpty
  let (ready, engine) := session.engine.prefetchQueue
  let (waiters, engine) := engine.forWaiters Engine.passTurn session.waiters
  let session := { session with engine, waiters }
  if waiting then ⟨session, .batch ready :: .drain :: stack, .go⟩
  else giving session stack .done

/-- One step of the topmost frame. -/
def step (machine : Machine) : Machine :=
  let session := machine.session
  match machine.stack, machine.signal with
  | [], _ => machine
  | .pass [] :: stack, _ => giving session stack .done
  | .pass (id :: rest) :: stack, _ => enterModule session (.pass rest :: stack) id
  | .settle root :: stack, .reply (.ok value) =>
      match (session.store.find? root).bind (·.error?) with
      | some error => giving session stack (.error error)
      | none => giving session stack (.ok value)
  | .present id requester? :: stack, .reply (.ok _) =>
      let (found, store) := session.store.namespace_ id requester?
      giving (session.withStore store) stack (found.map .space)
  | .exported ref :: stack, .reply (.ok _) =>
      match session.store.record? ref with
      | none => giving session stack .done
      | some record => match record.error? with
        | some error => giving session stack (.error error)
        | none => giving session stack
            (.ok ((record.exports?.map (·.value)).getD .undefined))
  | .body ref [] :: stack, .go | .body ref [] :: stack, .reply (.ok _) =>
      leaveBody session stack ref .done
  | .body ref (instruction :: rest) :: stack, .go
  | .body ref (instruction :: rest) :: stack, .reply (.ok _) =>
      match session.store.record? ref with
      | none => giving session stack .done
      | some record =>
          enterInstruction session (.body ref rest :: stack) ref record instruction
  | .body ref _ :: stack, .reply (.error error) => leaveBody session stack ref (.error error)
  | .assign ref name :: stack, .reply (.ok value) =>
      enterAccess session stack (Scope.write ref name value) (fun session _ => session)
  | .attempt :: stack, .reply reply =>
      let error? := match reply with
        | .ok _ => none
        | .error error => some error
      giving (session.note (.tried error?)) stack .done
  | .report command save? :: stack, .reply reply =>
      let (answer, session) := answerCommand session save? command reply
      giving (session.note (.answered answer)) stack .done
  | .batch [] :: stack, _ =>
      let (waiters, engine) := session.engine.forWaiters Engine.notice session.waiters
      ⟨{ session with engine, waiters }, stack, .go⟩
  | .batch (pipeline :: rest) :: stack, _ =>
      enterRun session (.finish pipeline :: .batch rest :: stack) pipeline.target
  | .finish pipeline :: stack, .reply reply =>
      let error? := match reply with
        | .ok _ => none
        | .error error => some error
      let imports := session.engine.imports.finish pipeline error?
      ⟨{ session with engine := { session.engine with imports } }, stack, .go⟩
  | .drain :: stack, _ => enterDrain session stack
  | .settle _ :: stack, .reply (.error error) | .present _ _ :: stack, .reply (.error error)
  | .exported _ :: stack, .reply (.error error) | .assign _ _ :: stack, .reply (.error error) =>
      giving session stack (.error error)
  | .settle _ :: stack, .go | .present _ _ :: stack, .go | .exported _ :: stack, .go
  | .assign _ _ :: stack, .go | .attempt :: stack, .go | .report _ _ :: stack, .go
  | .finish _ :: stack, .go =>
      giving session stack .done

/-- Whether all work is done. -/
def isDone (machine : Machine) : Bool := machine.stack.isEmpty

/-- Take steps until all work is done, or `fuel` steps. -/
def run : Nat → Machine → Machine
  | 0, machine => machine
  | fuel + 1, machine => if machine.isDone then machine else run fuel machine.step

/-- What is given when all work is done. -/
def reply? (machine : Machine) : Option Reply :=
  match machine.stack, machine.signal with
  | [], .reply reply => some reply
  | _, _ => none

end Machine

end Linkage
