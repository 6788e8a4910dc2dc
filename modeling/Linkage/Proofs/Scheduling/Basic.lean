import Linkage.Proofs.Runs.Acts

/-!
# Imports that run side by side

A runtime is a machine with the tasks that fetch, link and run modules for dynamic imports, and with
the callers who wait for them.  Everything happens in turns, and any turn may follow any other: while
a body runs on the machine, imports may begin, callers may be polled or dropped, sources may arrive,
and synchronous calls that need no body may be answered.  Only one run is on the machine at a time.

* `Runtime`, `Turn`, `Runtime.take`, `Runtime.play` : turns, one after the other.
* `Phase.advance` : what a task does when it is polled.
* `Runtime.log` : what the turns note, as for the acts of a machine.
-/

namespace Linkage

/-- How a pipeline came to its end. -/
inductive Ending where
  /-- A source could not be fetched, or the graph could not be built or linked. -/
  | broken (error : ModuleError)
  /-- The run is over; it has failed if the target has. -/
  | ran (error? : Option ModuleError)

/-- The error that a pipeline ended with, if it failed. -/
def Ending.error? : Ending → Option ModuleError
  | broken error => some error
  | ran error? => error?

/-- How far a pipeline has come. -/
inductive Phase where
  /-- It has not been polled yet. -/
  | spawned
  /-- It is about to fetch the sources of a level; what has been seen is not fetched again. -/
  | opening (level seen : List ModuleId)
  /-- The host has been asked for the sources of a level, of which some are awaited. -/
  | fetching (level awaited : List (RecordRef × Record)) (seen : List ModuleId)
  /-- All sources are there, and the run has not begun. -/
  | fetched
  /-- The run is on the machine. -/
  | running
  /-- It has come to its end, but is still in flight. -/
  | ended (ending : Ending)
  /-- It is in flight no longer. -/
  | finished (ending : Ending)

/-- A task: a pipeline and how far it has come. -/
structure Job where
  /-- The pipeline. -/
  pipeline : Pipeline
  /-- How far it has come. -/
  phase : Phase

namespace Job

/-- Whether a pipeline is in flight no longer. -/
def isFinished (job : Job) : Bool :=
  match job.phase with
  | .finished _ => true
  | _ => false

/-- Whether fetching, building or linking has failed. -/
def isBroken (job : Job) : Bool :=
  match job.phase with
  | .ended (.broken _) | .finished (.broken _) => true
  | _ => false

end Job

/-- Somebody who has asked for a module and has been polled at least once. -/
structure Caller where
  /-- What is waited for. -/
  waiter : Waiter
  /-- The pipeline joined when the import began. -/
  joined? : Option Nat
  /-- Nobody is interested in the answer any more. -/
  dropped : Bool

/-- A machine, tasks and callers. -/
structure Runtime where
  /-- The machine that runs bodies. -/
  machine : Machine
  /-- The tasks spawned so far, in order. -/
  jobs : List Job
  /-- The callers so far, in order. -/
  callers : List Caller

/-- Something that happens to a runtime.  Tasks and callers are known by their place. -/
inductive Turn where
  /-- The machine takes one step. -/
  | step
  /-- A synchronous call is made. -/
  | call (command : Command) (save? : Option String)
  /-- Modules come from another host from now on. -/
  | rehost (host : Host)
  /-- A dynamic import is polled for the first time; before that it does nothing. -/
  | start (specifier : String) (requester? : Option ModuleId)
  /-- A caller is polled again. -/
  | poll (caller : Nat)
  /-- A caller is dropped. -/
  | drop (caller : Nat)
  /-- A task is polled. -/
  | advance (job : Nat)
  /-- The host answers one of the requests of a task. -/
  | arrive (job request : Nat)

/-- Poll somebody who waits. -/
def Engine.poll (engine : Engine) (waiter : Waiter) : Waiter × Engine :=
  let (waiter, engine) := engine.passTurn waiter
  engine.notice waiter

namespace Machine

/-- Try something while the work on the stack is left alone. -/
def aside {α : Type} (machine : Machine) (action : Attempt α) : Except ModuleError α × Machine :=
  let (result, session) := machine.session.attempt action
  (result, { machine with session })

/-- Put back a changed engine. -/
def withEngine (machine : Machine) (engine : Engine) : Machine :=
  { machine with session := { machine.session with engine } }

/-- The dynamic imports. -/
def imports (machine : Machine) : Imports := machine.session.engine.imports

/-- A synchronous call.  What needs the machine for itself waits until there is no other work; it
then has resolved its specifier at most, and registered the module. -/
def ask (machine : Machine) (command : Command) (save? : Option String) : Machine :=
  if machine.isDone then enterCommand machine.session [] command save?
  else match command with
    | .evaluate specifier referrer? =>
        (machine.aside (Attempt.resolveAndRegister specifier referrer?)).2
    | .graph specifier _ => (machine.aside (Attempt.resolveAndRegister specifier none)).2
    | .require specifier referrer? => (machine.aside (Attempt.resolve specifier referrer?)).2
    | .reset => machine
    | command => { machine with session := (machine.session.answer command save?).2 }

end Machine

namespace Phase

/-- Try something for a task, which is over if that fails. -/
def trying {α : Type} (machine : Machine) (action : Attempt α) (next : α → Phase) :
    Phase × Machine :=
  let (result, machine) := machine.aside action
  (match result with
    | .ok value => next value
    | .error error => .ended (.broken error), machine)

/-- Begin the run of a task. -/
def launch (machine : Machine) (target : ModuleId) : Phase × Machine :=
  let machine := Machine.enterRun machine.session [] target
  (match machine.reply? with
    | some (.error error) => .ended (.broken error)
    | _ => .running, machine)

/-- Poll a task: what it does next and then waits for. -/
def advance (machine : Machine) (pipeline : Pipeline) : Phase → Phase × Machine
  | spawned => (opening [pipeline.target] [pipeline.target], machine)
  | opening [] _ => (fetched, machine)
  | opening (first :: rest) seen =>
      trying machine (Attempt.unsettled (first :: rest)) (fun records =>
        fetching records (records.filter (·.2.source?.isNone)) seen)
  | fetching level [] seen =>
      trying machine (level.foldlM (fun (found, seen) (ref, record) =>
        Attempt.nextLevel ref record found seen) ([], seen)) (fun (next, seen) =>
          opening next seen)
  | fetching level (first :: rest) seen => (fetching level (first :: rest) seen, machine)
  | fetched => if machine.isDone then launch machine pipeline.target else (fetched, machine)
  | running => (running, machine)
  | ended ending =>
      let imports := machine.imports.finish pipeline ending.error?
      (finished ending, machine.withEngine { machine.session.engine with imports })
  | finished ending => (finished ending, machine)

/-- The host answers one of the requests of a task. -/
def arrive (machine : Machine) (request : Nat) : Phase → Phase × Machine
  | fetching level awaited seen => match awaited[request]? with
    | none => (fetching level awaited seen, machine)
    | some (ref, record) => trying machine (Attempt.fetchSource ref record) (fun _ =>
        fetching level (awaited.eraseIdx request) seen)
  | phase => (phase, machine)

/-- What a task notes when it is polled. -/
def marks (machine : Machine) (pipeline : Pipeline) : Phase → List Mark
  | fetched => if machine.isDone then machine.session.runMarks pipeline.target else []
  | _ => []

end Phase

/-- A task whose run is on the machine is told when the run is over. -/
def Job.told (machine : Machine) (job : Job) : Job :=
  match job.phase, machine.reply? with
  | .running, some (.ok _) => { job with phase := .ended (.ran none) }
  | .running, some (.error error) => { job with phase := .ended (.ran (some error)) }
  | _, _ => job

namespace Runtime

/-- A new runtime. -/
def new (place : Place) (config : Config) : Runtime := ⟨.new place config, [], []⟩

/-- The dynamic imports. -/
def imports (runtime : Runtime) : Imports := runtime.machine.imports

/-- The modules. -/
def store (runtime : Runtime) : Store := runtime.machine.session.store

/-- The pipelines spawned so far. -/
def spawned (runtime : Runtime) : List Pipeline := runtime.jobs.map (·.pipeline)

/-- The pipelines spawned and not finished. -/
def unfinished (runtime : Runtime) : List Pipeline :=
  (runtime.jobs.filter (!·.isFinished)).map (·.pipeline)

/-- Poll a dynamic import for the first time.  The engine queues a pipeline that it starts, and the
runtime makes it a task. -/
def start (runtime : Runtime) (specifier : String) (requester? : Option ModuleId) : Runtime :=
  let (waiter, engine) := runtime.machine.session.engine.beginImport specifier requester?
  let joined? := match waiter.wait with
    | .pipeline ticket => some ticket
    | _ => none
  { machine := runtime.machine.withEngine
      { engine with imports := { engine.imports with queue := [] } }
    jobs := runtime.jobs ++ engine.imports.queue.map (⟨·, .spawned⟩)
    callers := runtime.callers ++ [⟨waiter, joined?, false⟩] }

/-- Poll a caller again. -/
def poll (runtime : Runtime) (place : Nat) : Runtime :=
  match runtime.callers[place]? with
  | none => runtime
  | some caller =>
      if caller.dropped then runtime
      else
        let (waiter, engine) := runtime.machine.session.engine.poll caller.waiter
        { runtime with
          machine := runtime.machine.withEngine engine
          callers := runtime.callers.set place { caller with waiter } }

/-- Let a task do something. -/
def work (runtime : Runtime) (place : Nat) (f : Pipeline → Phase → Phase × Machine) : Runtime :=
  match runtime.jobs[place]? with
  | none => runtime
  | some job =>
      let (phase, machine) := f job.pipeline job.phase
      { runtime with machine, jobs := runtime.jobs.set place { job with phase } }

/-- The runtime after a turn. -/
def take (runtime : Runtime) : Turn → Runtime
  | .step =>
      let machine := runtime.machine.step
      { runtime with machine, jobs := runtime.jobs.map (·.told machine) }
  | .call command save? => { runtime with machine := runtime.machine.ask command save? }
  | .rehost host =>
      { runtime with
        machine := runtime.machine.withEngine { runtime.machine.session.engine with host } }
  | .start specifier requester? => runtime.start specifier requester?
  | .poll place => runtime.poll place
  | .drop place =>
      { runtime with
        callers := runtime.callers.modify place (fun caller => { caller with dropped := true }) }
  | .advance place => runtime.work place (Phase.advance runtime.machine)
  | .arrive place request =>
      runtime.work place (fun _ => Phase.arrive runtime.machine request)

/-- The runtime after any number of turns. -/
def play (runtime : Runtime) (turns : List Turn) : Runtime :=
  turns.foldl take runtime

@[simp] theorem play_nil (runtime : Runtime) : runtime.play [] = runtime := rfl

@[simp] theorem play_cons (runtime : Runtime) (first : Turn) (rest : List Turn) :
    runtime.play (first :: rest) = (runtime.take first).play rest := rfl

/-- What a turn notes. -/
def marks (runtime : Runtime) : Turn → List Mark
  | .step => runtime.machine.stepMarks
  | .call command _ =>
      if runtime.machine.isDone then runtime.machine.session.commandMarks command else []
  | .advance place => match runtime.jobs[place]? with
    | some job => job.phase.marks runtime.machine job.pipeline
    | none => []
  | _ => []

/-- What any number of turns note. -/
def log (runtime : Runtime) : List Turn → List Mark
  | [] => []
  | first :: rest => runtime.marks first ++ (runtime.take first).log rest

end Runtime

/-- Whether a turn is that of a caller who has been polled before. -/
def Turn.isCallers : Turn → Bool
  | poll _ | drop _ => true
  | _ => false

end Linkage
