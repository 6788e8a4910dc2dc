import Linkage.Proofs.Engine.Enriching
import Linkage.Proofs.Runs.Closure
import Linkage.Proofs.Runs.Upholding
import Linkage.Proofs.Store.Confining

/-!
# Who replaces an exports value

The exports value of a legacy module is replaced by instructions of its own body and by nothing else:
not by what other bodies do, nor by resolving, loading, linking or importing, nor by the beginning and
the end of a body.

* `Store.Exposes` : the exports value of a record.
* `Machine.Replaces` : the next step replaces the exports value of a record.
* `Machine.exposes_act`, `Machine.exposes_perform` : one act, and a whole run.
-/

namespace Linkage

/-- A record of a legacy module, with this exports value. -/
def Store.Exposes (ref : RecordRef) (value : Value) (store : Store) : Prop :=
  ∃ record, store.record? ref = some record ∧ record.exports?.map (·.value) = some value

/-- Instructions that replace the exports value. -/
def Instruction.replacesExports : Instruction → Bool
  | .statement (.setExports _) | .replaceExports _ => true
  | .attempt instruction => instruction.replacesExports
  | _ => false

/-- The next step is an instruction of the body of a record that replaces the exports value. -/
def Machine.Replaces (machine : Machine) (ref : RecordRef) : Prop :=
  ∃ record instruction rest tail, machine.Next ref record instruction rest tail ∧
    instruction.replacesExports

variable {ref : RecordRef} {value : Value}

/-- Values that change are in no record. -/
theorem Store.record?_of_stirs {store store' : Store} (hstirs : store.Stirs store')
    (ref : RecordRef) : store'.record? ref = store.record? ref := by
  induction hstirs with
  | refl => rfl
  | tail _ hstir ih =>
      rw [← ih]
      cases hstir with
      | heap | write => rfl
      | space id requester? => simp

namespace Store.Exposes

variable {store store' : Store}

theorem of_records (hrecords : store'.record? ref = store.record? ref)
    (hexposes : store.Exposes ref value) : store'.Exposes ref value := by
  obtain ⟨record, hrecord, hvalue⟩ := hexposes
  exact ⟨record, hrecords.trans hrecord, hvalue⟩

theorem sameSlots (hsame : store.SameSlots store') (hexposes : store.Exposes ref value) :
    store'.Exposes ref value :=
  hexposes.of_records (hsame.record ref)

/-- A record is changed in other respects. -/
theorem modify (hexposes : store.Exposes ref value) (changed : RecordRef) {f : Record → Record}
    (hkept : ∀ record : Record,
      (f record).exports?.map (·.value) = record.exports?.map (·.value)) :
    (store.modify changed f).Exposes ref value := by
  obtain ⟨record, hrecord, hvalue⟩ := hexposes
  by_cases href : ref = changed
  · subst href
    exact ⟨f record, record?_modify_self f hrecord, (hkept record).trans hvalue⟩
  · exact ⟨record, (record?_modify_ne href f).trans hrecord, hvalue⟩

theorem status (hexposes : store.Exposes ref value) (changed : RecordRef) (status : Status) :
    (store.setStatus changed status).Exposes ref value :=
  hexposes.modify changed (fun _ => rfl)

theorem begin (hexposes : store.Exposes ref value) (changed : RecordRef) :
    (store.modify changed Record.begin).Exposes ref value :=
  hexposes.modify changed (fun _ => Option.map_map ..)

theorem learns (hlearns : store.Learns store') (hexposes : store.Exposes ref value) :
    store'.Exposes ref value := by
  obtain ⟨record, hrecord, hvalue⟩ := hexposes
  obtain ⟨record', hrecord', hinformed⟩ := hlearns.enriches.record ref record hrecord
  exact ⟨record', hrecord', hinformed.exports ▸ hvalue⟩

theorem link (hexposes : store.Exposes ref value) (order : List ModuleId) :
    (store.link order).2.Exposes ref value := by
  obtain ⟨record, hrecord, hvalue⟩ := hexposes
  obtain ⟨status, environment, hrecord'⟩ := (rebinds_link store order).record ref record hrecord
  exact ⟨_, hrecord', hvalue⟩

theorem stirs (hstirs : store.Stirs store') (hexposes : store.Exposes ref value) :
    store'.Exposes ref value :=
  hexposes.of_records (record?_of_stirs hstirs ref)

/-- A name of a record is assigned. -/
theorem assigns {changed : RecordRef} {name : String}
    (hassigns : store.Assigns changed name store')
    (hother : changed ≠ ref → store'.record? ref = store.record? ref)
    (hexposes : store.Exposes ref value) : store'.Exposes ref value := by
  by_cases href : changed = ref
  · subst href
    obtain ⟨record, hrecord, hvalue⟩ := hexposes
    obtain ⟨environment, hrecord', -⟩ := hassigns.record record hrecord
    exact ⟨_, hrecord', hvalue⟩
  · exact hexposes.of_records (hother href)

/-- An action of a module changes its own exports value at most. -/
theorem stays {α : Type} {own : RecordRef} {id : ModuleId} {post : Store → Prop}
    {action : Access α} (hstays : store.Stays own id post action)
    (hpost : own = ref → post (store.access action).2 → (store.access action).2.Exposes ref value)
    (hexposes : store.Exposes ref value) : (store.access action).2.Exposes ref value := by
  obtain ⟨hinside, hok, herror⟩ := hstays
  by_cases href : ref = own
  · cases hended : (store.access action).1 with
    | ok given => exact hpost href.symm (hok given hended)
    | error error => exact hexposes.sameSlots (herror error hended)
  · exact hexposes.of_records (hinside.other ref href)

end Store.Exposes

/-! ## Attempts -/

namespace Engine

open Attempt

/-- The exports value of a record, as a fact about engines. -/
abbrev Exposes (ref : RecordRef) (value : Value) (engine : Engine) : Prop :=
  engine.store.Exposes ref value

theorem taughtAhead_exposes (ref : RecordRef) (value : Value) : TaughtAhead (Exposes ref value) :=
  taughtAhead_of_learns (fun hlearns hexposes => hexposes.learns hlearns)
    (fun asked _ hexposes => hexposes.modify asked (fun _ => rfl))

theorem keeps_exposes_tryStore {α : Type} {f : Store → Except ModuleError α × Store}
    (hkept : ∀ store : Store, store.Exposes ref value → (f store).2.Exposes ref value) :
    Keeps (Exposes ref value) (tryStore f) :=
  Triple.bind (.onStore (fun engine hexposes => hkept engine.store hexposes))
    (fun _ => .ofExcept (fun _ _ _ hexposes => hexposes) (fun _ hexposes => hexposes))

theorem keeps_exposes_prepare (root : ModuleId) : Keeps (Exposes ref value) (prepare root) :=
  (taughtAhead_exposes ref value).keeps_prepare
    (fun order => keeps_exposes_tryStore (fun _ hexposes => hexposes.link order)) root

theorem keeps_exposes_startLegacy (started : RecordRef) :
    Keeps (Exposes ref value) (startLegacy started) := by
  refine (taughtAhead_exposes ref value).keeps_startLegacy
    (triple_sourceOf_of_learns (fun hlearns hexposes => hexposes.learns hlearns) started)
    (.onStore (fun _ hexposes => Store.Exposes.begin hexposes started))

theorem keeps_exposes_resolve (specifier : String) (referrer? : Option ModuleId) :
    Keeps (Exposes ref value) (resolve specifier referrer?) := by
  refine .of_after (fun engine hexposes => ?_)
  rw [attempt_resolve]
  exact hexposes

theorem keeps_exposes_concludeImport (target : ModuleId) (requester? : Option ModuleId) :
    Keeps (Exposes ref value) (concludeImport target requester?) :=
  keeps_concludeImport (keeps_exposes_tryStore (fun _ hexposes =>
    hexposes.stirs (.single (.space target requester?))))

theorem keeps_exposes_beginImport (specifier : String) (requester? : Option ModuleId) :
    Keeps (Exposes ref value) (Attempt.beginImport specifier requester?) := by
  refine (keeps_exposes_resolve specifier requester?).bind (fun resolved => ?_)
  have hjoined : Keeps (Exposes ref value) (joinOrStart resolved) :=
    triple_joinOrStart (fun _ _ hexposes => hexposes) (fun _ hexposes => hexposes)
      (.onStore (fun engine hexposes =>
        hexposes.learns (.single (.register resolved.id resolved.format))))
  exact hjoined.bind (fun _ => .pure (fun _ hexposes => hexposes))

/-! ## Dynamic imports -/

variable {engine : Engine}

theorem exposes_beginImport (hexposes : Exposes ref value engine) (specifier : String)
    (requester? : Option ModuleId) : Exposes ref value (engine.beginImport specifier requester?).2 := by
  have hjoined := (keeps_exposes_beginImport specifier requester?).after hexposes
  unfold beginImport
  generalize engine.attempt (Attempt.beginImport specifier requester?) = ended at hjoined
  obtain ⟨result, engine'⟩ := ended
  cases result <;> exact hjoined

theorem exposes_conclude (hexposes : Exposes ref value engine) (waiter : Waiter) :
    Exposes ref value (engine.conclude waiter).2 :=
  (keeps_exposes_concludeImport waiter.target waiter.requester?).after hexposes

theorem exposes_passTurn (hexposes : Exposes ref value engine) (waiter : Waiter) :
    Exposes ref value (engine.passTurn waiter).2 := by
  unfold passTurn
  split
  · exact exposes_conclude hexposes waiter
  · exact hexposes

theorem exposes_notice (hexposes : Exposes ref value engine) (waiter : Waiter) :
    Exposes ref value (engine.notice waiter).2 := by
  unfold notice
  split
  · split
    · exact hexposes
    · exact hexposes
    · exact exposes_conclude hexposes waiter
  · exact hexposes

theorem exposes_prefetchQueue (hexposes : Exposes ref value engine) :
    Exposes ref value engine.prefetchQueue.2 := by
  unfold prefetchQueue
  refine List.foldlRecOn (motive := fun (state : List Pipeline × Engine) => Exposes ref value state.2)
    engine.imports.queue _ hexposes (fun state hstate pipeline _ => ?_)
  have hfetched := ((taughtAhead_exposes ref value).keeps_prefetch pipeline.target).after hstate
  dsimp only
  generalize state.2.attempt (Attempt.prefetch pipeline.target) = ended at hfetched ⊢
  obtain ⟨result, engine'⟩ := ended
  cases result <;> exact hfetched

end Engine

namespace Machine

variable {session : Session}

theorem exposes_attempt {α : Type} {action : Attempt α} 
    (hkeeps : Attempt.Keeps (Engine.Exposes ref value) action)
    (hexposes : session.store.Exposes ref value) :
    (session.attempt action).2.store.Exposes ref value :=
  hkeeps.after hexposes

theorem exposes_enterRun (hexposes : session.store.Exposes ref value) (stack : List Frame)
    (root : ModuleId) : (enterRun session stack root).session.store.Exposes ref value := by
  have hprepared := exposes_attempt (Engine.keeps_exposes_prepare root) hexposes
  unfold enterRun
  generalize session.attempt (Attempt.prepare root) = ended at hprepared
  obtain ⟨result, session'⟩ := ended
  cases result <;> exact hprepared

theorem exposes_enterLegacy (hexposes : session.store.Exposes ref value) (stack : List Frame)
    (started : RecordRef) :
    (enterLegacy session stack started).session.store.Exposes ref value := by
  have hstarted := exposes_attempt (Engine.keeps_exposes_startLegacy started) hexposes
  unfold enterLegacy
  generalize session.attempt (Attempt.startLegacy started) = ended at hstarted
  obtain ⟨result, session'⟩ := ended
  cases result <;> exact hstarted

theorem exposes_enterEvaluate (hexposes : session.store.Exposes ref value) (stack : List Frame)
    (specifier : String) (referrer? : Option ModuleId) :
    (enterEvaluate session stack specifier referrer?).session.store.Exposes ref value := by
  have hregistered := exposes_attempt
    ((Engine.taughtAhead_exposes ref value).register specifier referrer?) hexposes
  unfold enterEvaluate
  generalize session.attempt (Attempt.resolveAndRegister specifier referrer?) = ended
    at hregistered
  obtain ⟨result, session'⟩ := ended
  cases result with
  | error error => exact hregistered
  | ok found => exact exposes_enterRun hregistered _ _

theorem exposes_enterRequire (hexposes : session.store.Exposes ref value) (stack : List Frame)
    (specifier : String) (referrer? : Option ModuleId) :
    (enterRequire session stack specifier referrer?).session.store.Exposes ref value := by
  have hregistered := exposes_attempt
    ((Engine.taughtAhead_exposes ref value).register specifier referrer?) hexposes
  unfold enterRequire
  generalize session.attempt (Attempt.resolveAndRegister specifier referrer?) = ended
    at hregistered
  obtain ⟨result, session'⟩ := ended
  cases result with
  | error error => exact hregistered
  | ok found =>
      obtain ⟨resolved, asked⟩ := found
      dsimp only
      split
      · exact hregistered
      · split
        · exact exposes_enterRun hregistered _ _
        · exact hregistered
        · exact hregistered
        · exact hregistered
        · exact exposes_enterLegacy hregistered _ _

theorem exposes_answer (hexposes : session.store.Exposes ref value) (command : Command)
    (save? : Option String) : (session.answer command save?).2.store.Exposes ref value := by
  cases hrehosts : command.rehosts with
  | true =>
      obtain ⟨host, heq⟩ := session.engine_answer_of_rehosts save? hrehosts
      unfold Session.store
      rw [heq]
      exact hexposes
  | false =>
      cases command with
      | resolve specifier referrer? =>
          exact exposes_attempt (Engine.keeps_exposes_resolve specifier referrer?) hexposes
      | graph specifier queries =>
          exact exposes_attempt ((Engine.taughtAhead_exposes ref value).keeps_graphOf specifier)
            hexposes
      | inspectHost => exact hexposes
      | reset => exact hexposes.of_records rfl
      | _ =>
          exact hexposes.stirs
            (session.stirs_answer _ save? (by simp) (by simp) rfl (by simp) hrehosts).store

theorem exposes_enterCommand (hexposes : session.store.Exposes ref value) (stack : List Frame)
    (command : Command) (save? : Option String) :
    (enterCommand session stack command save?).session.store.Exposes ref value := by
  have hanswered := exposes_answer hexposes command save?
  cases command with
  | evaluate specifier referrer? => exact exposes_enterEvaluate hexposes _ specifier referrer?
  | require specifier referrer? => exact exposes_enterRequire hexposes _ specifier referrer?
  | _ => exact hanswered

theorem exposes_enterAccess {α : Type} {action : Access α} {andThen : Session → α → Session}
    (haccess : (session.store.access action).2.Exposes ref value) (stack : List Frame)
    (hthen : ∀ session value, (andThen session value).store = session.store) :
    (enterAccess session stack action andThen).session.store.Exposes ref value := by
  have haccessed : (session.access action).2.store.Exposes ref value := haccess
  unfold enterAccess
  generalize session.access action = ended at haccessed
  obtain ⟨result, session'⟩ := ended
  cases result with
  | error error => exact haccessed
  | ok given =>
      show (andThen session' given).store.Exposes ref value
      rwa [hthen]

/-- To assign a name changes no exports value, be the record there or not. -/
theorem exposes_write {store : Store} (hexposes : store.Exposes ref value) (own : RecordRef)
    (name : String) (given : Value) :
    (store.access (Scope.write own name given)).2.Exposes ref value := by
  cases hrecord : store.record? own with
  | some record =>
      exact hexposes.stays (Scope.bounded_write name given store record hrecord rfl)
        (fun href hassigns => hexposes.assigns hassigns (fun hother => absurd href hother))
  | none =>
      refine hexposes.of_records ?_
      have hunbound : store.binding? own name = none := by rw [Store.binding?, hrecord]; rfl
      rw [Scope.access_write, hunbound]
      dsimp only
      rw [Store.record?_writeCell, Store.record?_declare]
      split
      · rename_i href
        rw [href, hrecord]
        rfl
      · rfl

/-- A statement of a body, unless it replaces the exports value. -/
theorem exposes_run {own : RecordRef} {record : Record} {statement : Statement}
    (hrecord : session.store.record? own = some record)
    (hspares : own = ref → ¬ (Instruction.statement statement).replacesExports)
    (hexposes : session.store.Exposes ref value) :
    (session.store.access (Scope.run own statement)).2.Exposes ref value := by
  have hstays := Scope.bounded_run statement session.store record hrecord rfl
  refine hexposes.stays hstays (fun href hleaves => ?_)
  have hassigned {name : String}
      (hassigns : session.store.Assigns own name (session.store.access (Scope.run own statement)).2) :
      (session.store.access (Scope.run own statement)).2.Exposes ref value :=
    hexposes.assigns hassigns (fun hother => absurd href hother)
  cases statement with
  | set | copy | get | add | setDefault => exact hassigned hleaves
  | setExports => exact absurd rfl (hspares href)
  | _ => exact hexposes.sameSlots hleaves

/-- An instruction of a body, unless it replaces the exports value. -/
theorem exposes_enterInstruction {own : RecordRef} {record : Record} {instruction : Instruction}
    (hrecord : session.store.record? own = some record)
    (hspares : own = ref → ¬ instruction.replacesExports)
    (hexposes : session.store.Exposes ref value) (stack : List Frame) :
    (enterInstruction session stack own record instruction).session.store.Exposes ref value := by
  have hlooks {α : Type} {action : Access α} (hlooks : Scope.Looks action) :
      (session.store.access action).2.Exposes ref value :=
    hexposes.sameSlots (hlooks session.store)
  -- an instruction that is attempted is entered with one more frame
  fun_induction enterInstruction session stack own record instruction with
  | case1 | case2 => exact exposes_enterRequire hexposes _ _ _
  | case3 stack statement =>
      refine exposes_enterAccess (exposes_run hrecord hspares hexposes) stack ?_
      intro session logged?
      cases logged? <;> rfl
  | case4 | case9 | case12 => exact hexposes
  | case5 stack instruction ih => exact ih hspares
  | case6 stack name =>
      exact exposes_enterAccess (hlooks (Scope.looks_read own name)) stack (fun _ _ => rfl)
  | case7 stack name literal given session' hvalue =>
      have hstirs := (session.stirs_evaluateLiteral literal).store
      rw [hvalue] at hstirs
      have hexposes' : session'.store.Exposes ref value := hexposes.stirs hstirs
      exact exposes_enterAccess (exposes_write hexposes' own name given) stack (fun _ _ => rfl)
  | case8 stack name as_ =>
      exact exposes_enterAccess (hlooks (Scope.looks_capture own name)) stack (fun _ _ => rfl)
  | case10 stack =>
      exact exposes_enterAccess (hlooks (Scope.looks_exports own)) stack (fun _ _ => rfl)
  | case11 stack source =>
      have hbounded : Scope.Bounded own record.id (fun store store' => store.Replaces own store')
          (do Scope.replaceExports own (← Scope.read own source)) :=
        .after (Scope.looks_read own source) (fun hsame hreplaces => hreplaces.after hsame)
          Scope.bounded_replaceExports
      refine exposes_enterAccess ?_ stack (fun _ _ => rfl)
      exact hexposes.stays (hbounded session.store record hrecord rfl)
        (fun href _ => absurd rfl (hspares href))
  | case13 stack command save? => exact exposes_enterCommand hexposes _ command save?

theorem exposes_enterModule (hexposes : session.store.Exposes ref value) (stack : List Frame)
    (id : ModuleId) : (enterModule session stack id).session.store.Exposes ref value := by
  unfold enterModule
  split
  · rename_i started record _ _
    split
    · split
      · exact hexposes
      · exact hexposes.status started .evaluating
    · have hstarted := exposes_attempt (Engine.keeps_exposes_startLegacy started) hexposes
      generalize session.attempt (Attempt.startLegacy started) = ended at hstarted
      obtain ⟨result, session'⟩ := ended
      cases result <;> exact hstarted
    · exact hexposes
  · exact hexposes

theorem exposes_leaveBody (hexposes : session.store.Exposes ref value) (stack : List Frame)
    (ended : RecordRef) (reply : Reply) :
    (leaveBody session stack ended reply).session.store.Exposes ref value := by
  unfold leaveBody
  cases reply with
  | ok given => exact hexposes.status ended .evaluated
  | error error => exact hexposes.modify ended (fun _ => rfl)

theorem exposes_enterDrain (hexposes : session.store.Exposes ref value) (stack : List Frame) :
    (enterDrain session stack).session.store.Exposes ref value := by
  have hpassed := Engine.keeps_forWaiters Engine.exposes_passTurn
    (Engine.exposes_prefetchQueue hexposes) session.waiters
  unfold enterDrain
  dsimp only
  split <;> exact hpassed

/-- **A step leaves every exports value as it is**, unless it is an instruction of the body of that
module that replaces it. -/
theorem exposes_step {machine : Machine} (hexposes : machine.session.store.Exposes ref value)
    (hspares : ¬ machine.Replaces ref) : machine.step.session.store.Exposes ref value := by
  obtain ⟨session, stack, signal⟩ := machine
  cases stack with
  | nil => exact hexposes
  | cons frame tail =>
      cases frame with
      | pass rest =>
          cases rest with
          | nil => exact hexposes
          | cons id rest => exact exposes_enterModule hexposes _ id
      | body own rest =>
          cases rest with
          | nil =>
              rcases signal with _ | ⟨error | given⟩
              · exact exposes_leaveBody hexposes tail own .done
              · exact exposes_leaveBody hexposes tail own (.error error)
              · exact exposes_leaveBody hexposes tail own .done
          | cons instruction rest =>
              have hnext (hsignal : signal = .go ∨ ∃ given, signal = .reply (.ok given)) :
                  (step ⟨session, .body own (instruction :: rest) :: tail,
                    signal⟩).session.store.Exposes ref value := by
                cases hrecord : session.store.record? own with
                | none =>
                    rcases hsignal with rfl | ⟨given, rfl⟩ <;> simp only [step, hrecord] <;>
                      exact hexposes
                | some record =>
                    have hnext : Next ⟨session, .body own (instruction :: rest) :: tail, signal⟩
                        own record instruction rest tail := ⟨rfl, hrecord, hsignal⟩
                    rw [hnext.step]
                    refine exposes_enterInstruction hrecord ?_ hexposes _
                    rintro rfl hreplaces
                    exact hspares ⟨record, instruction, rest, tail, hnext, hreplaces⟩
              rcases signal with _ | ⟨error | given⟩
              · exact hnext (.inl rfl)
              · exact exposes_leaveBody hexposes tail own (.error error)
              · exact hnext (.inr ⟨given, rfl⟩)
      | settle root =>
          rcases signal with _ | ⟨error | given⟩
          · exact hexposes
          · exact hexposes
          · unfold step
            dsimp only
            split <;> exact hexposes
      | batch rest =>
          cases rest with
          | nil =>
              have hnoticed : Engine.Exposes ref value
                  (session.engine.forWaiters Engine.notice session.waiters).2 :=
                Engine.keeps_forWaiters Engine.exposes_notice hexposes session.waiters
              exact hnoticed
          | cons pipeline rest => exact exposes_enterRun hexposes _ pipeline.target
      | drain => exact exposes_enterDrain hexposes tail
      | present id requester? =>
          rcases signal with _ | ⟨error | given⟩
          · exact hexposes
          · exact hexposes
          · exact hexposes.stirs (.single (.space id requester?))
      | exported own =>
          rcases signal with _ | ⟨error | given⟩
          · exact hexposes
          · exact hexposes
          · unfold step
            dsimp only
            split
            · exact hexposes
            · split <;> exact hexposes
      | assign own name =>
          rcases signal with _ | ⟨error | given⟩
          · exact hexposes
          · exact hexposes
          · exact exposes_enterAccess (exposes_write hexposes own name given) tail (fun _ _ => rfl)
      | attempt => rcases signal with _ | ⟨error | given⟩ <;> exact hexposes
      | report command save? =>
          rcases signal with _ | reply
          · exact hexposes
          · exact hexposes.stirs (session.stirs_answerCommand save? command reply).store
      | finish pipeline => rcases signal with _ | ⟨error | given⟩ <;> exact hexposes

theorem exposes_beginImports (hexposes : session.store.Exposes ref value)
    (requests : List (String × Option ModuleId)) :
    (session.beginImports requests).store.Exposes ref value := by
  unfold Session.beginImports
  refine List.foldlRecOn (motive := fun session : Session => session.store.Exposes ref value)
    requests _ hexposes (fun session hsession request _ => ?_)
  exact Engine.exposes_beginImport hsession request.1 request.2

theorem exposes_opening (hexposes : session.store.Exposes ref value) (command : Command)
    (save? : Option String) : (session.opening save? command).session.store.Exposes ref value := by
  have hanswered := exposes_answer hexposes command save?
  cases command with
  | evaluate specifier referrer? => exact exposes_enterEvaluate hexposes [] specifier referrer?
  | require specifier referrer? => exact exposes_enterRequire hexposes [] specifier referrer?
  | importNow specifier referrer? => exact exposes_beginImports hexposes _
  | importAll requests => exact exposes_beginImports hexposes requests
  | drive => exact hexposes
  | await name =>
      unfold Session.opening
      dsimp only
      split
      · exact hexposes
      · rename_i future _
        have hbegun : Session.store { session with futures := session.futures.erase name } =
            session.store := rfl
        exact exposes_beginImports (hbegun ▸ hexposes) [(future.specifier, some future.requester)]
  | startImport specifier referrer? =>
      exact Engine.exposes_beginImport hexposes specifier referrer?
  | inspectHost id bare? referrer? fetch => cases fetch <;> exact hexposes
  | _ => exact hanswered

/-- No act but a step replaces an exports value. -/
theorem exposes_act {machine : Machine} (hexposes : machine.session.store.Exposes ref value)
    (act : Act) (hspares : ¬ machine.Replaces ref) :
    (machine.act act).session.store.Exposes ref value := by
  cases act with
  | step => exact exposes_step hexposes hspares
  | call command save? =>
      unfold Machine.act
      dsimp only
      split
      · exact exposes_opening hexposes command save?
      · exact hexposes
  | conclude command save? reply =>
      unfold Machine.act
      dsimp only
      split
      · exact hexposes.stirs (machine.session.stirs_closing command save? reply).store
      · exact hexposes
  | abandon => exact hexposes
  | rehost host => exact hexposes

/-- An exports value stays what it is throughout a run in which the body of its module does not
replace it. -/
theorem exposes_perform {machine : Machine} (hexposes : machine.session.store.Exposes ref value)
    {acts : List Act} (hspares : ∀ done, done <+: acts → ¬ (machine.perform done).Replaces ref) :
    (machine.perform acts).session.store.Exposes ref value := by
  induction acts generalizing machine with
  | nil => exact hexposes
  | cons first rest ih =>
      refine ih (exposes_act hexposes first (hspares [] (List.nil_prefix))) (fun done hdone => ?_)
      exact hspares (first :: done) (List.cons_prefix_cons.mpr ⟨rfl, hdone⟩)

end Machine

end Linkage
