import Linkage.Proofs.Engine.Upholding
import Linkage.Proofs.Runs.Acts
import Linkage.Proofs.Runs.Advancing
import Linkage.Proofs.Runs.Launches

/-!
# Facts upheld by runs

What every attempt of an engine upholds, a run upholds as long as nobody replaces the host or forgets
the modules.  Whether somebody does is told by the commands that bodies and callers give.  A fact
that does not mind either is upheld by every run.

* `Command.Upholds`, `Machine.upheld_step`, `Machine.upheld_opening` : how work begins and goes on.
* `Machine.Upholds`, `Machine.Upholds.perform` : steps and runs.
* `Engine.UpheldAlways`, `Engine.UpheldAlways.perform` : facts that every run upholds.
-/

namespace Linkage

/-- The command that an instruction gives to the engine, if it does. -/
def Instruction.command? : Instruction → Option Command
  | .perform command _ => some command
  | .attempt instruction => instruction.command?
  | _ => none

/-- A command that leaves the modules and the host as they are. -/
structure Command.Lasts (command : Command) : Prop where
  reset : command ≠ .reset
  rehosts : command.rehosts = false

/-- Every command that an instruction gives leaves the modules and the host as they are. -/
def Instruction.Lasts (instruction : Instruction) : Prop :=
  ∀ command, instruction.command? = some command → command.Lasts

/-- The answer to a command upholds a fact. -/
def Command.Upholds (fact : Engine → Prop) (command : Command) : Prop :=
  ∀ (session : Session) (save? : Option String), fact session.engine →
    fact (session.answer command save?).2.engine

/-- The answer to every command that an instruction gives upholds a fact. -/
def Instruction.Upholds (fact : Engine → Prop) (instruction : Instruction) : Prop :=
  ∀ command, instruction.command? = some command → command.Upholds fact

namespace Engine

variable {fact : Engine → Prop} {engine engine' : Engine}

theorem KnowsSame.of_stirs (hstirs : engine.Stirs engine') : engine.KnowsSame engine' := by
  have hframe := hstirs.frame
  exact ⟨by rw [hframe], by rw [hframe], by rw [hframe], .of_stirs hstirs.store, by rw [hframe]⟩

/-- What is done for every waiter in order. -/
theorem keeps_forWaiters {f : Engine → Waiter → Waiter × Engine}
    (hstep : ∀ {engine : Engine}, fact engine → ∀ waiter, fact (f engine waiter).2)
    (hfact : fact engine) (waiters : List Waiter) : fact (engine.forWaiters f waiters).2 := by
  unfold forWaiters
  refine List.foldlRecOn (motive := fun (state : List Waiter × Engine) => fact state.2) waiters _
    hfact (fun state hstate waiter _ => ?_)
  exact hstep hstate waiter

namespace UpheldThroughout

variable (hupheld : UpheldThroughout fact)
include hupheld

theorem beginImport (hfact : fact engine) (specifier : String) (requester? : Option ModuleId) :
    fact (engine.beginImport specifier requester?).2 := by
  have hjoined := (hupheld.join specifier requester?).after hfact
  unfold Engine.beginImport
  generalize engine.attempt (Attempt.beginImport specifier requester?) = ended at hjoined
  obtain ⟨result, engine'⟩ := ended
  cases result <;> exact hjoined

theorem conclude (hfact : fact engine) (waiter : Waiter) : fact (engine.conclude waiter).2 :=
  (hupheld.keeps_concludeImport waiter.target waiter.requester?).after hfact

theorem passTurn (hfact : fact engine) (waiter : Waiter) : fact (engine.passTurn waiter).2 := by
  unfold Engine.passTurn
  split
  · exact hupheld.conclude hfact waiter
  · exact hfact

theorem notice (hfact : fact engine) (waiter : Waiter) : fact (engine.notice waiter).2 := by
  unfold Engine.notice
  split
  · split
    · exact hfact
    · exact hfact
    · exact hupheld.conclude hfact waiter
  · exact hfact

theorem prefetchQueue (hfact : fact engine) : fact engine.prefetchQueue.2 := by
  have hemptied : fact { engine with imports := { engine.imports with queue := [] } } :=
    hupheld.same (.of_imports engine _) hfact
  unfold Engine.prefetchQueue
  refine List.foldlRecOn (motive := fun (state : List Pipeline × Engine) => fact state.2)
    engine.imports.queue _ hemptied (fun state hstate pipeline _ => ?_)
  have hfetched := (hupheld.prefetch pipeline.target).after hstate
  dsimp only
  generalize state.2.attempt (Attempt.prefetch pipeline.target) = ended at hfetched ⊢
  obtain ⟨result, engine'⟩ := ended
  cases result with
  | ok value => exact hfetched
  | error error => exact hupheld.same (.of_imports engine' _) hfetched

end UpheldThroughout

end Engine

namespace Machine

/-- The next step is an instruction of a body. -/
structure Next (machine : Machine) (ref : RecordRef) (record : Record) (instruction : Instruction)
    (rest : Program) (tail : List Frame) : Prop where
  stack : machine.stack = .body ref (instruction :: rest) :: tail
  record : machine.session.store.record? ref = some record
  signal : machine.signal = .go ∨ ∃ value, machine.signal = .reply (.ok value)

namespace Next

variable {machine : Machine} {ref : RecordRef} {record : Record} {instruction : Instruction}
  {rest : Program} {tail : List Frame} (hnext : machine.Next ref record instruction rest tail)
include hnext

theorem stepMarks : machine.stepMarks = machine.session.instructionMarks record instruction := by
  obtain ⟨session, stack, signal⟩ := machine
  obtain ⟨rfl, hrecord, rfl | ⟨value, rfl⟩⟩ := hnext <;>
    simp only [Machine.stepMarks, show session.store.record? ref = some record from hrecord]

theorem step : machine.step =
    enterInstruction machine.session (.body ref rest :: tail) ref record instruction := by
  obtain ⟨session, stack, signal⟩ := machine
  obtain ⟨rfl, hrecord, rfl | ⟨value, rfl⟩⟩ := hnext <;>
    simp only [Machine.step, show session.store.record? ref = some record from hrecord]

end Next

section Upheld

variable {fact : Engine → Prop} (hupheld : Engine.UpheldThroughout fact) {session : Session}
include hupheld

theorem upheld_enterRun (hfact : fact session.engine) (stack : List Frame) (root : ModuleId) :
    fact (enterRun session stack root).session.engine := by
  have hprepared := (hupheld.keeps_prepare root).after hfact
  unfold enterRun Session.attempt
  generalize session.engine.attempt (Attempt.prepare root) = ended at hprepared
  obtain ⟨result, engine⟩ := ended
  cases result <;> exact hprepared

theorem upheld_enterLegacy (hfact : fact session.engine) (stack : List Frame) (ref : RecordRef) :
    fact (enterLegacy session stack ref).session.engine := by
  have hstarted := (hupheld.keeps_startLegacy ref).after hfact
  unfold enterLegacy Session.attempt
  generalize session.engine.attempt (Attempt.startLegacy ref) = ended at hstarted
  obtain ⟨result, engine⟩ := ended
  cases result <;> exact hstarted

theorem upheld_enterEvaluate (hfact : fact session.engine) (stack : List Frame)
    (specifier : String) (referrer? : Option ModuleId) :
    fact (enterEvaluate session stack specifier referrer?).session.engine := by
  have hregistered := (hupheld.register specifier referrer?).after hfact
  unfold enterEvaluate Session.attempt
  generalize session.engine.attempt (Attempt.resolveAndRegister specifier referrer?) = ended
    at hregistered
  obtain ⟨result, engine⟩ := ended
  cases result with
  | error error => exact hregistered
  | ok found => exact upheld_enterRun hupheld hregistered _ _

theorem upheld_enterRequire (hfact : fact session.engine) (stack : List Frame)
    (specifier : String) (referrer? : Option ModuleId) :
    fact (enterRequire session stack specifier referrer?).session.engine := by
  have hregistered := (hupheld.register specifier referrer?).after hfact
  unfold enterRequire Session.attempt
  generalize session.engine.attempt (Attempt.resolveAndRegister specifier referrer?) = ended
    at hregistered
  obtain ⟨result, engine⟩ := ended
  cases result with
  | error error => exact hregistered
  | ok found =>
      obtain ⟨resolved, ref⟩ := found
      dsimp only
      split
      · exact hregistered
      · split
        · exact upheld_enterRun hupheld hregistered _ _
        · exact hregistered
        · exact hregistered
        · exact hregistered
        · exact upheld_enterLegacy hupheld hregistered _ _

/-- A command that is answered at once. -/
theorem upheld_answer {command : Command} (hlasts : command.Lasts)
    (hinspects : command.inspects = false) : command.Upholds fact := by
  intro session save? hfact
  have hstirred (hresolve : ∀ specifier referrer?, command ≠ .resolve specifier referrer?)
      (hgraph : ∀ specifier queries, command ≠ .graph specifier queries) :
      fact (session.answer command save?).2.engine :=
    hupheld.same (.of_stirs
      (session.stirs_answer command save? hresolve hgraph hinspects hlasts.reset
        hlasts.rehosts)) hfact
  cases command with
  | resolve specifier referrer? => exact (hupheld.resolve specifier referrer?).after hfact
  | graph specifier queries => exact (hupheld.keeps_graphOf specifier).after hfact
  | _ => exact hstirred (by simp) (by simp)

theorem upheld_enterCommand (hfact : fact session.engine) (stack : List Frame) {command : Command}
    (hupholds : command.Upholds fact) (save? : Option String) :
    fact (enterCommand session stack command save?).session.engine := by
  cases command with
  | evaluate specifier referrer? => exact upheld_enterEvaluate hupheld hfact _ specifier referrer?
  | require specifier referrer? => exact upheld_enterRequire hupheld hfact _ specifier referrer?
  | _ => exact hupholds session save? hfact

theorem upheld_enterAccess {α : Type} (hfact : fact session.engine) (stack : List Frame)
    {ref : RecordRef} {action : Access α} (hwithin : Access.Within ref action)
    {andThen : Session → α → Session}
    (hthen : ∀ session value, (andThen session value).engine = session.engine) :
    fact (enterAccess session stack action andThen).session.engine := by
  have hworked : fact (session.access action).2.engine :=
    hupheld.same (.of_store (.of_works (hwithin session.store))) hfact
  unfold enterAccess
  generalize session.access action = ended at hworked
  obtain ⟨result, session'⟩ := ended
  cases result with
  | error error => exact hworked
  | ok value =>
      show fact (andThen session' value).engine
      rwa [hthen]

theorem upheld_enterInstruction (hfact : fact session.engine) (stack : List Frame)
    (ref : RecordRef) (record : Record) {instruction : Instruction}
    (hupholds : instruction.Upholds fact) :
    fact (enterInstruction session stack ref record instruction).session.engine := by
  -- an instruction that is attempted is entered with one more frame
  fun_induction enterInstruction session stack ref record instruction with
  | case1 | case2 => exact upheld_enterRequire hupheld hfact _ _ _
  | case3 stack statement =>
      refine upheld_enterAccess hupheld hfact _ (Scope.within_run ref statement) ?_
      intro session logged?
      cases logged? <;> rfl
  | case4 | case9 | case12 => exact hfact
  | case5 stack instruction ih => exact ih hupholds
  | case6 stack name =>
      exact upheld_enterAccess hupheld hfact _ (Scope.within_read ref name) (fun _ _ => rfl)
  | case7 stack name literal value session' hvalue =>
      have hstirs := session.stirs_evaluateLiteral literal
      rw [hvalue] at hstirs
      exact upheld_enterAccess hupheld (hupheld.same (.of_stirs hstirs) hfact) _
        (Scope.within_write ref name value) (fun _ _ => rfl)
  | case8 stack name as_ =>
      exact upheld_enterAccess hupheld hfact _ (Scope.within_capture ref name) (fun _ _ => rfl)
  | case10 =>
      exact upheld_enterAccess hupheld hfact _ (Scope.within_exports ref) (fun _ _ => rfl)
  | case11 stack source =>
      exact upheld_enterAccess hupheld hfact _
        ((Scope.within_read ref source).bind (Scope.within_replaceExports ref)) (fun _ _ => rfl)
  | case13 stack command save? =>
      exact upheld_enterCommand hupheld hfact _ (hupholds command rfl) save?

theorem upheld_enterModule (hfact : fact session.engine) (stack : List Frame) (id : ModuleId) :
    fact (enterModule session stack id).session.engine := by
  unfold enterModule
  split
  · rename_i ref record _ _
    split
    · split
      · exact hfact
      · exact hupheld.same (.of_store (.of_status ref .evaluating)) hfact
    · have hstarted := (hupheld.keeps_startLegacy ref).after hfact
      unfold Session.attempt
      generalize session.engine.attempt (Attempt.startLegacy ref) = ended at hstarted
      obtain ⟨result, engine⟩ := ended
      cases result <;> exact hstarted
    · exact hfact
  · exact hfact

theorem upheld_leaveBody (hfact : fact session.engine) (stack : List Frame) (ref : RecordRef)
    (reply : Reply) : fact (leaveBody session stack ref reply).session.engine := by
  unfold leaveBody
  cases reply with
  | ok value => exact hupheld.same (.of_store (.of_status ref .evaluated)) hfact
  | error error =>
      refine hupheld.same (.of_store (.of_modify ref (fun record => ?_))) hfact
      exact ⟨rfl, rfl, rfl, rfl⟩

theorem upheld_enterDrain (hfact : fact session.engine) (stack : List Frame) :
    fact (enterDrain session stack).session.engine := by
  have hpassed := Engine.keeps_forWaiters hupheld.passTurn (hupheld.prefetchQueue hfact) session.waiters
  unfold enterDrain
  dsimp only
  split <;> exact hpassed

/-- A body goes on, or there is no record with which to go on. -/
theorem upheld_instruction (hfact : fact session.engine) {ref : RecordRef} {instruction : Instruction}
    {rest : Program} {tail : List Frame} {signal : Signal}
    (hsignal : signal = .go ∨ ∃ value, signal = .reply (.ok value))
    (hupholds : ∀ record, Next ⟨session, .body ref (instruction :: rest) :: tail, signal⟩ ref record
      instruction rest tail → instruction.Upholds fact) :
    fact (step ⟨session, .body ref (instruction :: rest) :: tail, signal⟩).session.engine := by
  cases hrecord : session.store.record? ref with
  | none => rcases hsignal with rfl | ⟨value, rfl⟩ <;> simp only [step, hrecord] <;> exact hfact
  | some record =>
      have hnext : Next ⟨session, .body ref (instruction :: rest) :: tail, signal⟩ ref record
          instruction rest tail := ⟨rfl, hrecord, hsignal⟩
      rw [hnext.step]
      exact upheld_enterInstruction hupheld hfact _ ref record (hupholds record hnext)

/-- What a step upholds, if it does not give a command by which it is not upheld. -/
theorem upheld_step {machine : Machine} (hfact : fact machine.session.engine)
    (hupholds : ∀ ref record instruction rest tail,
      machine.Next ref record instruction rest tail → instruction.Upholds fact) :
    fact machine.step.session.engine := by
  obtain ⟨session, stack, signal⟩ := machine
  cases stack with
  | nil => exact hfact
  | cons frame tail =>
      cases frame with
      | pass rest =>
          cases rest with
          | nil => exact hfact
          | cons id rest => exact upheld_enterModule hupheld hfact _ id
      | body ref rest =>
          cases rest with
          | nil =>
              rcases signal with _ | ⟨error | value⟩
              · exact upheld_leaveBody hupheld hfact tail ref .done
              · exact upheld_leaveBody hupheld hfact tail ref (.error error)
              · exact upheld_leaveBody hupheld hfact tail ref .done
          | cons instruction rest =>
              rcases signal with _ | ⟨error | value⟩
              · exact upheld_instruction hupheld hfact (.inl rfl)
                  (fun record => hupholds ref record instruction rest tail)
              · exact upheld_leaveBody hupheld hfact tail ref (.error error)
              · exact upheld_instruction hupheld hfact (.inr ⟨value, rfl⟩)
                  (fun record => hupholds ref record instruction rest tail)
      | settle root =>
          rcases signal with _ | ⟨error | value⟩
          · exact hfact
          · exact hfact
          · unfold step
            dsimp only
            split <;> exact hfact
      | batch rest =>
          cases rest with
          | nil => exact Engine.keeps_forWaiters hupheld.notice hfact session.waiters
          | cons pipeline rest => exact upheld_enterRun hupheld hfact _ pipeline.target
      | drain => exact upheld_enterDrain hupheld hfact tail
      | present id requester? =>
          rcases signal with _ | ⟨error | value⟩
          · exact hfact
          · exact hfact
          · exact hupheld.same (.of_store (.of_stir (.space id requester?))) hfact
      | exported ref =>
          rcases signal with _ | ⟨error | value⟩
          · exact hfact
          · exact hfact
          · unfold step
            dsimp only
            split
            · exact hfact
            · split <;> exact hfact
      | assign ref name =>
          rcases signal with _ | ⟨error | value⟩
          · exact hfact
          · exact hfact
          · exact upheld_enterAccess hupheld hfact tail (Scope.within_write ref name value)
              (fun _ _ => rfl)
      | attempt => rcases signal with _ | ⟨error | value⟩ <;> exact hfact
      | report command save? =>
          rcases signal with _ | reply
          · exact hfact
          · exact hupheld.same (.of_stirs (session.stirs_answerCommand save? command reply)) hfact
      | finish pipeline =>
          rcases signal with _ | ⟨error | value⟩
          · exact hfact
          · exact hupheld.same (.of_imports session.engine _) hfact
          · exact hupheld.same (.of_imports session.engine _) hfact

theorem upheld_beginImports (requests : List (String × Option ModuleId))
    (hfact : fact session.engine) : fact (session.beginImports requests).engine := by
  unfold Session.beginImports
  refine List.foldlRecOn (motive := fun session : Session => fact session.engine) requests _ hfact
    (fun session hsession request _ => ?_)
  exact hupheld.beginImport hsession request.1 request.2

/-- A command from outside begins. -/
theorem upheld_opening (hfact : fact session.engine) {command : Command}
    (hupholds : command.Upholds fact) (hinspects : command.inspects = true →
      ∀ (engine : Engine) (loads : Nat), fact engine → fact { engine with loads })
    (save? : Option String) :
    fact (session.opening save? command).session.engine := by
  cases command with
  | evaluate specifier referrer? => exact upheld_enterEvaluate hupheld hfact [] specifier referrer?
  | require specifier referrer? => exact upheld_enterRequire hupheld hfact [] specifier referrer?
  | importNow specifier referrer? => exact upheld_beginImports hupheld _ hfact
  | importAll requests => exact upheld_beginImports hupheld requests hfact
  | drive => exact hfact
  | await name =>
      unfold Session.opening
      dsimp only
      split
      · exact hfact
      · exact upheld_beginImports hupheld _ hfact
  | startImport specifier referrer? => exact hupheld.beginImport hfact specifier referrer?
  | inspectHost id bare? referrer? fetch =>
      cases fetch with
      | true => exact hinspects rfl session.engine _ hfact
      | false => exact hupholds session save? hfact
  | _ => exact hupholds session save? hfact

end Upheld

end Machine

/-- A command that has the host give sources that nobody keeps, if their number does not matter. -/
theorem Engine.UpheldAhead.answer_of_inspects {fact : Engine → Prop}
    (hupheld : Engine.UpheldAhead fact) {command : Command} (hinspects : command.inspects = true) :
    command.Upholds fact := by
  cases command with
  | inspectHost => exact fun session _ hfact => hupheld.recount session.engine _ hfact
  | _ => cases hinspects

/-- A command that is answered at once, if it does not matter how many sources the host has given. -/
theorem Engine.UpheldAhead.answer {fact : Engine → Prop} (hupheld : Engine.UpheldAhead fact)
    {command : Command} (hlasts : command.Lasts) : command.Upholds fact := by
  cases hinspects : command.inspects with
  | false => exact Machine.upheld_answer hupheld.toUpheldThroughout hlasts hinspects
  | true => exact hupheld.answer_of_inspects hinspects

/-- Such a command may also forget the modules, if the fact is kept then. -/
theorem Engine.UpheldAhead.answer_of_reset {fact : Engine → Prop} (hupheld : Engine.UpheldAhead fact)
    (hreset : ∀ engine, fact engine → fact engine.reset) {command : Command}
    (hrehosts : command.rehosts = false) : command.Upholds fact := by
  by_cases hforgets : command = .reset
  · subst hforgets
    exact fun session _ hfact => hreset session.engine hfact
  · exact hupheld.answer ⟨hforgets, hrehosts⟩

/-! ## Modules that stay registered -/

namespace Session

variable (session : Session)

theorem reset_not_mem_instructionMarks (record : Record) {instruction : Instruction}
    (hlasts : instruction.Lasts) : .reset ∉ session.instructionMarks record instruction := by
  -- an instruction that is attempted gives the command of the one in it
  fun_induction instructionMarks session record instruction with
  | case1 => exact reset_not_mem_requireMarks _ _ _
  | case2 instruction ih => exact ih hlasts
  | case3 command => exact session.reset_not_mem_commandMarks (hlasts command rfl).reset
  | case4 => exact List.not_mem_nil

/-- An instruction that forgets all modules is noted. -/
theorem reset_mem_instructionMarks (record : Record) {instruction : Instruction}
    (hgiven : instruction.command? = some .reset) :
    .reset ∈ session.instructionMarks record instruction := by
  fun_induction instructionMarks session record instruction with
  | case1 => cases hgiven
  | case2 instruction ih => exact ih hgiven
  | case3 command =>
      obtain rfl := Option.some.inj hgiven
      exact List.mem_singleton_self _
  | case4 instruction _ hattempt hperform =>
      cases instruction with
      | «attempt» inner => exact absurd rfl (hattempt inner)
      | perform command save? => exact absurd rfl (hperform command save?)
      | _ => cases hgiven

end Session

/-- A step forgets no module if the instruction that is next does not. -/
theorem Machine.reset_not_mem_stepMarks {machine : Machine}
    (hlasts : ∀ ref instruction rest tail, machine.stack = .body ref (instruction :: rest) :: tail →
      instruction.Lasts) : .reset ∉ machine.stepMarks := by
  unfold stepMarks
  dsimp only
  split
  · exact Session.reset_not_mem_moduleMarks _ _
  · simp
  · simp
  · rename_i hstack _
    split
    · exact List.not_mem_nil
    · exact Session.reset_not_mem_instructionMarks _ _ (hlasts _ _ _ _ hstack)
  · rename_i hstack _
    split
    · exact List.not_mem_nil
    · exact Session.reset_not_mem_instructionMarks _ _ (hlasts _ _ _ _ hstack)
  · simp
  · exact Session.reset_not_mem_runMarks _ _
  · exact List.not_mem_nil

/-! ## Bodies on the stack -/

theorem Idle.body_not_mem {frames : List Frame} (hidle : Idle frames) (ref : RecordRef)
    (program : Program) : .body ref program ∉ frames :=
  fun hmem => by cases hidle _ hmem

/-- A body on the stack when work has begun was there before, or it is that of a module. -/
theorem Session.Enters.body_back {session : Session} {base : List Frame} {marks : List Mark}
    {machine : Machine} (henters : session.Enters base marks machine) {ref : RecordRef}
    {program : Program} (hbody : .body ref program ∈ machine.stack) :
    .body ref program ∈ base ∨ machine.session.store.HasBody ref program := by
  cases henters with
  | waits above hidle hstack =>
      rw [hstack] at hbody
      exact .inl ((List.mem_append.mp hbody).resolve_left (hidle.body_not_mem ref program))
  | body above ref' program' hidle hstack hmarks hbegun =>
      rw [hstack] at hbody
      rcases List.mem_cons.mp hbody with heq | hbody
      · obtain ⟨rfl, rfl⟩ := Frame.body.inj heq
        exact .inr hbegun
      · exact .inl ((List.mem_append.mp hbody).resolve_left (hidle.body_not_mem ref program))
  | run above graph hidle hbegun hlaunches =>
      obtain ⟨_, -, -, -, -, -, hstack⟩ := hlaunches.begins
      rw [hstack] at hbody
      have habove : Idle (.settle graph.root :: above) := List.forall_mem_cons.mpr ⟨rfl, hidle⟩
      have hframes := (List.mem_cons.mp hbody).resolve_left nofun
      exact .inl ((List.mem_append.mp hframes).resolve_left (habove.body_not_mem ref program))

/-- The body of a module that is registered, with instructions left that are allowed. -/
structure Store.Runs (store : Store) (allowed : Instruction → Prop) (ref : RecordRef)
    (program : Program) : Prop where
  registered : ∃ id, store.lookup? id = some ref
  allowed : ∀ instruction ∈ program, allowed instruction

/-- What holds of the engine, and of the bodies on the stack. -/
structure Machine.Upholds (fact : Engine → Prop) (allowed : Instruction → Prop)
    (machine : Machine) : Prop where
  engine : fact machine.session.engine
  bodies : ∀ ref program, .body ref program ∈ machine.stack →
    machine.session.store.Runs allowed ref program

/-- A fact that is upheld, and by which the bodies of modules hold only such instructions. -/
structure Engine.Allows (fact : Engine → Prop) (allowed : Instruction → Prop) : Prop extends
    Engine.UpheldAhead fact where
  reset : ∀ engine, fact engine → fact engine.reset
  lasts : ∀ instruction, allowed instruction → instruction.Lasts
  sources : ∀ engine ref record source, fact engine → engine.store.record? ref = some record →
    record.source? = some source → ∀ instruction ∈ source.body, allowed instruction

/-- An act by which no other host is taken. -/
def Act.KeepsHost : Act → Prop
  | .call command _ => command.rehosts = false
  | .rehost _ => False
  | _ => True

namespace Machine.Upholds

variable {fact : Engine → Prop} {allowed : Instruction → Prop}
  (hallows : Engine.Allows fact allowed) {machine : Machine} {session : Session}
include hallows

/-- The body of a module holds only what is allowed. -/
theorem of_hasBody (hfact : fact session.engine) {ref : RecordRef} {program : Program}
    (hbody : session.store.HasBody ref program) : session.store.Runs allowed ref program := by
  obtain ⟨id, record, source, hregistered, hsource, rfl⟩ := hbody
  exact ⟨⟨id, hregistered.lookup⟩,
    hallows.sources _ ref record source hfact hregistered.record hsource⟩

theorem enters {base : List Frame} {marks : List Mark} {machine' : Machine}
    (hbase : ∀ ref program, .body ref program ∈ base →
      machine'.session.store.Runs allowed ref program)
    (henters : session.Enters base marks machine') (hfact : fact machine'.session.engine) :
    machine'.Upholds fact allowed where
  engine := hfact
  bodies ref program hbody := (henters.body_back hbody).elim (hbase ref program)
    (of_hasBody hallows hfact)

/-- The instruction that is next is allowed. -/
theorem lasts (hupholds : machine.Upholds fact allowed) (ref : RecordRef)
    (instruction : Instruction) (rest : Program) (tail : List Frame)
    (hstack : machine.stack = .body ref (instruction :: rest) :: tail) : instruction.Lasts := by
  have hbody : .body ref (instruction :: rest) ∈ machine.stack := hstack ▸ List.mem_cons_self
  exact hallows.lasts _ ((hupholds.bodies ref _ hbody).allowed _ List.mem_cons_self)

theorem step (hupholds : machine.Upholds fact allowed) : machine.step.Upholds fact allowed := by
  have hfact : fact machine.step.session.engine :=
    upheld_step hallows.toUpheldThroughout hupholds.engine
      (fun ref _ instruction rest tail hnext _ hgiven =>
        hallows.answer (hupholds.lasts hallows ref instruction rest tail hnext.stack _ hgiven))
  have hkept (ref : RecordRef) : (∃ id, machine.session.store.lookup? id = some ref) →
      ∃ id, machine.step.session.store.lookup? id = some ref := by
    rintro ⟨id, hlookup⟩
    exact ⟨id, machine.chain_step.lookup (reset_not_mem_stepMarks (hupholds.lasts hallows)) hlookup⟩
  have hbodies := hupholds.bodies
  have hgoes := machine.goes
  generalize machine.step = machine' at hgoes hfact hkept ⊢
  generalize machine.stack = stack at hgoes hbodies
  generalize machine.stepMarks = marks at hgoes
  have htail {frame : Frame} {tail : List Frame} (hstack : stack = frame :: tail)
      (ref : RecordRef) (program : Program) (hbody : .body ref program ∈ tail) :
      machine'.session.store.Runs allowed ref program := by
    obtain ⟨hregistered, hallowed⟩ :=
      hbodies ref program (hstack ▸ List.mem_cons_of_mem _ hbody)
    exact ⟨hkept ref hregistered, hallowed⟩
  cases hgoes with
  | rest => exact ⟨hfact, nofun⟩
  | ended | leave | absent | settle => exact ⟨hfact, htail rfl⟩
  | turn id rest tail =>
      refine enters hallows (fun ref program hbody => ?_) (enters_module _ _ id) hfact
      exact htail rfl ref program ((List.mem_cons.mp hbody).resolve_left nofun)
  | body ref instruction rest tail henters =>
      refine enters hallows (fun other program hbody => ?_) henters hfact
      rcases List.mem_cons.mp hbody with heq | hbody
      · obtain ⟨rfl, rfl⟩ := Frame.body.inj heq
        obtain ⟨hregistered, hallowed⟩ :=
          hbodies other (instruction :: program) List.mem_cons_self
        exact ⟨hkept other hregistered,
          fun left hleft => hallowed left (List.mem_cons_of_mem _ hleft)⟩
      · exact htail rfl other program hbody
  | waits frame tail _ _ henters => exact enters hallows (htail rfl) henters hfact

theorem opening (hfact : fact session.engine) {command : Command}
    (hrehosts : command.rehosts = false) (save? : Option String) :
    (session.opening save? command).Upholds fact allowed := by
  refine enters hallows (fun _ _ hbody => absurd hbody List.not_mem_nil)
    (session.enters_opening command save?) ?_
  exact upheld_opening hallows.toUpheldThroughout hfact
    (hallows.answer_of_reset hallows.reset hrehosts) (fun _ => hallows.recount) save?

theorem act (hupholds : machine.Upholds fact allowed) {act : Act} (hkeeps : act.KeepsHost) :
    (machine.act act).Upholds fact allowed := by
  cases act with
  | step => exact step hallows hupholds
  | call command save? =>
      unfold Machine.act
      dsimp only
      split
      · exact opening hallows hupholds.engine hkeeps save?
      · exact hupholds
  | conclude command save? reply =>
      unfold Machine.act
      dsimp only
      split
      · exact ⟨hallows.same (.of_stirs (machine.session.stirs_closing command save? reply))
          hupholds.engine, nofun⟩
      · exact hupholds
  | abandon => exact ⟨hupholds.engine, nofun⟩
  | rehost host => cases hkeeps

/-- **What every attempt upholds, a run upholds.** -/
theorem perform (hupholds : machine.Upholds fact allowed) {acts : List Act}
    (hkeeps : ∀ act ∈ acts, act.KeepsHost) : (machine.perform acts).Upholds fact allowed := by
  induction acts generalizing machine with
  | nil => exact hupholds
  | cons first rest ih =>
      exact ih (act hallows hupholds (hkeeps first List.mem_cons_self))
        (fun other hother => hkeeps other (List.mem_cons_of_mem _ hother))

end Machine.Upholds

/-! ## Facts that do not depend on the host -/

/-- A command that forgets no modules, and has the host give no sources that nobody keeps. -/
structure Command.Spares (command : Command) : Prop where
  reset : command ≠ .reset
  inspects : command.inspects = false

/-- If the host does not matter, such a command may also change where modules come from. -/
theorem Engine.UpheldThroughout.answer_of_rehost {fact : Engine → Prop}
    (hupheld : Engine.UpheldThroughout fact)
    (hrehost : ∀ (engine : Engine) (host : Host), fact engine → fact { engine with host })
    {command : Command} (hspares : command.Spares) : command.Upholds fact := by
  cases hrehosts : command.rehosts with
  | false => exact Machine.upheld_answer hupheld ⟨hspares.reset, hrehosts⟩ hspares.inspects
  | true =>
      intro session save? hfact
      obtain ⟨host, heq⟩ := session.engine_answer_of_rehosts save? hrehosts
      rw [heq]
      exact hrehost session.engine host hfact

section Anywhere

variable {fact : Engine → Prop} (hupheld : Engine.UpheldAhead fact)
  (hrehost : ∀ (engine : Engine) (host : Host), fact engine → fact { engine with host })
include hupheld hrehost

/-- Only the command that forgets the modules is left out. -/
theorem Engine.UpheldAhead.answer_of_rehost {command : Command} (hreset : command ≠ .reset) :
    command.Upholds fact := by
  cases hinspects : command.inspects with
  | false => exact hupheld.toUpheldThroughout.answer_of_rehost hrehost ⟨hreset, hinspects⟩
  | true => exact hupheld.answer_of_inspects hinspects

/-- A step that forgets no module keeps such a fact. -/
theorem Machine.upheld_step_of_rehost {machine : Machine} (hfact : fact machine.session.engine)
    (hreset : .reset ∉ machine.stepMarks) : fact machine.step.session.engine := by
  refine upheld_step hupheld.toUpheldThroughout hfact ?_
  intro ref record instruction rest tail hnext command hgiven
  refine hupheld.answer_of_rehost hrehost ?_
  rintro rfl
  rw [hnext.stepMarks] at hreset
  exact hreset (Session.reset_mem_instructionMarks _ _ hgiven)

end Anywhere

/-! ## Facts that every run upholds -/

/-- A fact that is upheld whatever happens: also when all modules are forgotten, and when modules
come from another host. -/
structure Engine.UpheldAlways (fact : Engine → Prop) : Prop extends Engine.UpheldAhead fact where
  reset : ∀ engine, fact engine → fact engine.reset
  rehost : ∀ (engine : Engine) (host : Host), fact engine → fact { engine with host }

namespace Engine.UpheldAlways

variable {fact : Engine → Prop} (hupheld : UpheldAlways fact)
include hupheld

theorem answer (command : Command) : command.Upholds fact := by
  by_cases hreset : command = .reset
  · subst hreset
    exact fun session _ hfact => hupheld.reset session.engine hfact
  · exact hupheld.answer_of_rehost hupheld.rehost hreset

theorem act {machine : Machine} (hfact : fact machine.session.engine) (act : Act) :
    fact (machine.act act).session.engine := by
  cases act with
  | step =>
      exact Machine.upheld_step hupheld.toUpheldThroughout hfact
        (fun _ _ _ _ _ _ command _ => hupheld.answer command)
  | call command save? =>
      unfold Machine.act
      dsimp only
      split
      · exact Machine.upheld_opening hupheld.toUpheldThroughout hfact (hupheld.answer command)
          (fun _ => hupheld.recount) save?
      · exact hfact
  | conclude command save? reply =>
      unfold Machine.act
      dsimp only
      split
      · exact hupheld.same (.of_stirs (machine.session.stirs_closing command save? reply)) hfact
      · exact hfact
  | abandon => exact hfact
  | rehost host => exact hupheld.rehost machine.session.engine host hfact

/-- **What is upheld whatever happens holds in every state of every run.** -/
theorem perform {machine : Machine} (hfact : fact machine.session.engine) (acts : List Act) :
    fact (machine.perform acts).session.engine := by
  induction acts generalizing machine with
  | nil => exact hfact
  | cons first rest ih => exact ih (hupheld.act hfact first)

end Engine.UpheldAlways

end Linkage
