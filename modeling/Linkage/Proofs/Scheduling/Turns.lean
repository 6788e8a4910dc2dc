import Linkage.Proofs.Runs.Failures
import Linkage.Proofs.Scheduling.Basic

/-!
# What a turn does to the machine

Apart from a step of the machine, a turn leaves the work on its stack alone unless there is none.  So
what is known of runs holds in a runtime: every turn is a chain of changes, and work is attended to.

* `Machine.Proceeds` : what one turn does to the machine.
* `Runtime.proceeds_take`, `Runtime.stack_take` : every turn.
* `Machine.Sound`, `Machine.Sound.proceeds` : what holds of the machine at any time.
-/

namespace Linkage

namespace Engine

variable (engine : Engine) (waiter : Waiter)

theorem touches_poll : engine.store.Touches (engine.poll waiter).2.store :=
  (engine.touches_passTurn waiter).trans (touches_notice _ _)

theorem imports_poll : (engine.poll waiter).2.imports = engine.imports :=
  (imports_notice _ _).trans (imports_passTurn engine waiter)

end Engine

namespace Machine

variable {machine machine' machine'' : Machine} {marks more : List Mark}

/-- A machine changes by a chain of changes, and goes on to be attended to. -/
structure Proceeds (machine : Machine) (marks : List Mark) (machine' : Machine) : Prop where
  chain : Chain machine.stage marks machine'.stage
  attends : machine.stage.Living → machine.session.store.Closed → machine.Attends →
    machine'.Attends

theorem Proceeds.refl (machine : Machine) : machine.Proceeds [] machine :=
  ⟨.refl _, fun _ _ hattends => hattends⟩

theorem proceeds_step (machine : Machine) : machine.Proceeds machine.stepMarks machine.step :=
  ⟨machine.chain_step, fun hliving hclosed hattends => attends_step hliving hclosed hattends⟩

/-- Work that begins above the stack. -/
theorem Proceeds.of_enters (hchain : Chain machine.stage marks machine'.stage)
    (henters : machine.session.Enters machine.stack marks machine') :
    machine.Proceeds marks machine' :=
  ⟨hchain, fun hliving hclosed hattends => hattends.enters hliving hclosed hchain henters rfl rfl⟩

/-- The store is touched while the stack is left alone. -/
theorem Proceeds.of_touches (htouches : machine.session.store.Touches machine'.session.store)
    (hstack : machine'.stack = machine.stack) : machine.Proceeds [] machine' := by
  refine .of_enters ?_ (.of_nothing hstack)
  have hchain : Chain machine.stage [] (machine'.session.stage machine.stack) :=
    .of_touches htouches
  rwa [← hstack] at hchain

theorem stack_aside {α : Type} (machine : Machine) (action : Attempt α) :
    (machine.aside action).2.stack = machine.stack := rfl

theorem proceeds_aside {α : Type} (machine : Machine) {action : Attempt α}
    (hquiet : action.Quiet) : machine.Proceeds [] (machine.aside action).2 :=
  .of_touches (machine.session.touches_attempt hquiet) (machine.stack_aside action)

/-- What a synchronous call notes. -/
theorem proceeds_ask (machine : Machine) (command : Command) (save? : Option String) :
    machine.Proceeds (if machine.isDone then machine.session.commandMarks command else [])
      (machine.ask command save?) := by
  unfold ask
  split
  · rename_i hdone
    have hstack : machine.stack = [] := List.isEmpty_iff.mp hdone
    refine .of_enters ?_ ?_
    · rw [stage, hstack]
      exact chain_enterCommand machine.session [] command save?
    · rw [hstack]
      exact enters_command machine.session [] command save?
  · have hanswer : ∀ command, command ≠ .reset →
        machine.Proceeds [] { machine with session := (machine.session.answer command save?).2 } :=
      fun command hreset => .of_touches (machine.session.touches_answer command save? hreset) rfl
    cases command with
    | evaluate specifier referrer? =>
        exact machine.proceeds_aside (Attempt.quiet_resolveAndRegister specifier referrer?)
    | graph specifier queries =>
        exact machine.proceeds_aside (Attempt.quiet_resolveAndRegister specifier none)
    | require specifier referrer? =>
        exact machine.proceeds_aside (Attempt.quiet_resolve specifier referrer?)
    | reset => exact .refl machine
    | _ => exact hanswer _ (by simp)

/-- A call leaves the work on the stack alone. -/
theorem ask_of_work (hwork : machine.isDone ≠ true) (command : Command) (save? : Option String) :
    (machine.ask command save?).stack = machine.stack ∧
      (machine.ask command save?).signal = machine.signal := by
  unfold ask
  rw [if_neg hwork]
  cases command <;> exact ⟨rfl, rfl⟩

end Machine

namespace Phase

variable (machine : Machine) (pipeline : Pipeline) (phase : Phase)

theorem quiet_unsettled (level : List ModuleId) : (Attempt.unsettled level).Quiet :=
  .get_bind (fun _ => .pure _)

theorem quiet_level (level : List (RecordRef × Record)) (known : List ModuleId × List ModuleId) :
    (level.foldlM (fun (found, seen) (ref, record) =>
      Attempt.nextLevel ref record found seen) known).Quiet :=
  .foldlM _ _ (fun known entry => Attempt.quiet_nextLevel entry.1 entry.2 known.1 known.2)

theorem proceeds_launch (hdone : machine.isDone = true) (target : ModuleId) :
    machine.Proceeds (machine.session.runMarks target) (launch machine target).2 := by
  have hstack : machine.stack = [] := List.isEmpty_iff.mp hdone
  refine .of_enters ?_ ?_
  · rw [Machine.stage, hstack]
    exact Machine.chain_enterRun machine.session [] target
  · rw [hstack]
    exact Machine.enters_run machine.session [] target

theorem proceeds_advance :
    machine.Proceeds (phase.marks machine pipeline) (phase.advance machine pipeline).2 := by
  cases phase with
  | spawned | running | finished => exact .refl machine
  | ended ending => exact .of_touches .refl rfl
  | opening level seen =>
      cases level with
      | nil => exact .refl machine
      | cons first rest => exact machine.proceeds_aside (quiet_unsettled (first :: rest))
  | fetching level awaited seen =>
      cases awaited with
      | nil => exact machine.proceeds_aside (quiet_level level ([], seen))
      | cons first rest => exact .refl machine
  | fetched =>
      unfold advance marks
      dsimp only
      split
      · rename_i hdone
        exact proceeds_launch machine hdone pipeline.target
      · exact .refl machine

/-- A task that is polled leaves the work on the stack alone. -/
theorem advance_of_work (hwork : machine.isDone ≠ true) :
    (phase.advance machine pipeline).2.stack = machine.stack ∧
      (phase.advance machine pipeline).2.signal = machine.signal := by
  cases phase with
  | spawned | running | finished | ended => exact ⟨rfl, rfl⟩
  | opening level seen => cases level <;> exact ⟨rfl, rfl⟩
  | fetching level awaited seen => cases awaited <;> exact ⟨rfl, rfl⟩
  | fetched =>
      unfold advance
      dsimp only
      rw [if_neg hwork]
      exact ⟨rfl, rfl⟩

theorem proceeds_arrive (request : Nat) :
    machine.Proceeds [] (phase.arrive machine request).2 := by
  cases phase with
  | fetching level awaited seen =>
      unfold arrive
      dsimp only
      cases awaited[request]? with
      | none => exact .refl machine
      | some entry => exact machine.proceeds_aside (Attempt.quiet_fetchSource entry.1 entry.2)
  | spawned | opening | fetched | running | ended | finished => exact .refl machine

/-- An answer of the host leaves the work on the stack alone. -/
theorem arrive_of_work (request : Nat) :
    (phase.arrive machine request).2.stack = machine.stack ∧
      (phase.arrive machine request).2.signal = machine.signal := by
  cases phase with
  | fetching level awaited seen =>
      unfold arrive
      dsimp only
      cases awaited[request]? <;> exact ⟨rfl, rfl⟩
  | spawned | opening | fetched | running | ended | finished => exact ⟨rfl, rfl⟩

end Phase

namespace Runtime

variable (runtime : Runtime)

theorem machine_work (place : Nat) (f : Pipeline → Phase → Phase × Machine) :
    (runtime.work place f).machine = match runtime.jobs[place]? with
      | none => runtime.machine
      | some job => (f job.pipeline job.phase).2 := by
  unfold work
  cases runtime.jobs[place]? <;> rfl

/-- A task does something, or there is none at that place. -/
theorem work_cases (place : Nat) (f : Pipeline → Phase → Phase × Machine) :
    runtime.work place f = runtime ∨ ∃ front job back, runtime.jobs = front ++ job :: back ∧
      runtime.work place f = { runtime with
        machine := (f job.pipeline job.phase).2
        jobs := front ++ { job with phase := (f job.pipeline job.phase).1 } :: back } := by
  unfold work
  cases hjob : runtime.jobs[place]? with
  | none => exact .inl rfl
  | some job =>
      obtain ⟨hplace, rfl⟩ := List.getElem?_eq_some_iff.mp hjob
      refine .inr ⟨runtime.jobs.take place, runtime.jobs[place], runtime.jobs.drop (place + 1), ?_, ?_⟩
      · rw [List.getElem_cons_drop, List.take_append_drop]
      · dsimp only
        rw [List.set_eq_take_append_cons_drop, if_pos hplace]

/-- **Every turn is a chain of changes, and work is attended to.** -/
theorem proceeds_take (turn : Turn) :
    runtime.machine.Proceeds (runtime.marks turn) (runtime.take turn).machine := by
  cases turn with
  | step => exact runtime.machine.proceeds_step
  | call command save? => exact runtime.machine.proceeds_ask command save?
  | rehost host => exact .of_touches .refl rfl
  | start specifier requester? =>
      exact .of_touches (runtime.machine.session.engine.touches_beginImport specifier requester?) rfl
  | drop place => exact .refl runtime.machine
  | poll place =>
      unfold take poll
      dsimp only
      split
      · exact .refl runtime.machine
      · split
        · exact .refl runtime.machine
        · exact .of_touches (runtime.machine.session.engine.touches_poll _) rfl
  | advance place =>
      unfold marks take
      dsimp only
      rw [machine_work]
      cases runtime.jobs[place]? with
      | none => exact .refl runtime.machine
      | some job => exact Phase.proceeds_advance runtime.machine job.pipeline job.phase
  | arrive place request =>
      unfold marks take
      dsimp only
      rw [machine_work]
      cases runtime.jobs[place]? with
      | none => exact .refl runtime.machine
      | some job => exact Phase.proceeds_arrive runtime.machine job.phase request

/-- While there is work on the stack, only a step of the machine does some of it. -/
theorem stack_take {turn : Turn} (hwork : runtime.machine.isDone ≠ true) (hstep : turn ≠ .step) :
    (runtime.take turn).machine.stack = runtime.machine.stack ∧
      (runtime.take turn).machine.signal = runtime.machine.signal := by
  cases turn with
  | step => exact absurd rfl hstep
  | call command save? => exact Machine.ask_of_work hwork command save?
  | rehost | start | drop => exact ⟨rfl, rfl⟩
  | poll place =>
      unfold take poll
      dsimp only
      split
      · exact ⟨rfl, rfl⟩
      · split <;> exact ⟨rfl, rfl⟩
  | advance place =>
      unfold take
      dsimp only
      rw [machine_work]
      cases runtime.jobs[place]? with
      | none => exact ⟨rfl, rfl⟩
      | some job => exact Phase.advance_of_work runtime.machine job.pipeline job.phase hwork
  | arrive place request =>
      unfold take
      dsimp only
      rw [machine_work]
      cases runtime.jobs[place]? with
      | none => exact ⟨rfl, rfl⟩
      | some job => exact Phase.arrive_of_work runtime.machine job.phase request

end Runtime

/-! ## What holds at any time -/

/-- What holds of a machine whatever it does. -/
structure Machine.Sound (machine : Machine) : Prop where
  living : machine.stage.Living
  closed : machine.session.store.Closed
  tells : ∀ ref record, machine.session.store.record? ref = some record → record.Tells
  agrees : ∀ ref record, machine.session.store.record? ref = some record → record.Agrees
  current : machine.session.store.Current
  attends : machine.Attends

theorem Machine.Sound.proceeds {machine machine' : Machine} {marks : List Mark}
    (hsound : machine.Sound) (hproceeds : machine.Proceeds marks machine') : machine'.Sound where
  living := hproceeds.chain.living hsound.living
  closed := hproceeds.chain.closed hsound.living hsound.closed
  tells := hproceeds.chain.tells hsound.living hsound.tells
  agrees := hproceeds.chain.agrees hsound.living hsound.tells hsound.agrees
  current := hproceeds.chain.current hsound.living hsound.current
  attends := hproceeds.attends hsound.living hsound.closed hsound.attends

theorem Machine.sound_new (place : Place) (config : Config) : (new place config).Sound where
  living := living_new place config
  closed := closed_perform place config []
  tells := tells_perform place config []
  agrees := agrees_perform place config []
  current := ⟨rfl, nofun⟩
  attends := attends_perform place config List.not_mem_nil

end Linkage
