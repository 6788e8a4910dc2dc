import Linkage.Proofs.Anchoring.Sessions
import Linkage.Proofs.Runs.Acts

/-!
# Nothing dangles in a run

The frames on the stack stand for records that have been made, and every reply is a value that refers
to what has been made.  So in every run in which answers are made of the replies that were given, all
that a session keeps can be looked up.

* `Machine.Anchored` : all that a machine refers to has been made.
* `Machine.anchored_enterInstruction`, `Machine.anchored_step` : one step.
* `Machine.Relays`, `Machine.anchored_perform` : runs.
-/

namespace Linkage

variable {least extent extent' : Extent} {session : Session} {stack : List Frame}

/-- The record that a frame stands for, if any, has been made. -/
def Frame.Anchored (extent : Extent) : Frame → Prop
  | .exported ref | .body ref _ | .assign ref _ => ref.Anchored extent
  | _ => True

theorem Frame.Anchored.mono {frame : Frame} (hframe : frame.Anchored extent)
    (hle : extent.Le extent') : frame.Anchored extent' := by
  cases frame with
  | exported | body | assign => exact RecordRef.Anchored.mono hle hframe
  | pass | settle | present | «attempt» | report | batch | finish | drain => trivial

/-- The reply that the topmost frame is given refers to what has been made. -/
def Signal.Anchored (extent : Extent) : Signal → Prop
  | .go => True
  | .reply given => given.Anchored extent

/-- All that a machine refers to has been made, and at least so much has. -/
structure Machine.Anchored (least : Extent) (machine : Machine) : Prop where
  session : machine.session.Anchored least
  stack : ∀ frame ∈ machine.stack, frame.Anchored machine.session.store.extent
  signal : machine.signal.Anchored machine.session.store.extent

/-- The answer to a command that has run a module is made of the reply that has been given. -/
def Act.Relays (machine : Machine) : Act → Prop
  | .conclude (.evaluate _ _) _ reply | .conclude (.require _ _) _ reply =>
      machine.signal = .reply reply
  | _ => True

namespace Machine

theorem Anchored.weaken {machine : Machine} {lower : Extent} (hanchored : machine.Anchored least)
    (hle : lower.Le least) : machine.Anchored lower :=
  { hanchored with session := hanchored.session.weaken hle }

section Enter

variable (hsession : session.Anchored least) (hstack : ∀ frame ∈ stack, frame.Anchored least)
include hsession hstack

/-- Frames that were there stand for what has been made. -/
theorem anchored_below : ∀ frame ∈ stack, frame.Anchored session.store.extent :=
  fun frame hframe => (hstack frame hframe).mono hsession.store.grown

theorem anchored_going {frame : Frame} (hframe : frame.Anchored session.store.extent) :
    Machine.Anchored least ⟨session, frame :: stack, .go⟩ where
  session := hsession
  stack := List.forall_mem_cons.mpr ⟨hframe, anchored_below hsession hstack⟩
  signal := trivial

theorem anchored_idle : Machine.Anchored least ⟨session, stack, .go⟩ where
  session := hsession
  stack := anchored_below hsession hstack
  signal := trivial

theorem anchored_giving {reply : Reply} (hreply : reply.Anchored session.store.extent) :
    (giving session stack reply).Anchored least where
  session := hsession
  stack := anchored_below hsession hstack
  signal := hreply

theorem anchored_done : (giving session stack .done).Anchored least :=
  anchored_giving hsession hstack (Reply.anchored_done _)

theorem anchored_failing (error : ModuleError) : (giving session stack (.error error)).Anchored least :=
  anchored_giving hsession hstack (Reply.anchored_error _ error)

theorem anchored_enterAccess {α : Type} {action : Access α} {pre : Store → Prop}
    {R : Extent → α → Prop}
    (haction : Access.Triple pre action
      (fun value store => store.Anchored session.store.extent ∧ R store.extent value)
      (Store.Anchored session.store.extent)) (hpre : pre session.store)
    {andThen : Session → α → Session}
    (hthen : ∀ (session : Session) value, session.Anchored least → R session.store.extent value →
      (andThen session value).Anchored least) :
    (enterAccess session stack action andThen).Anchored least := by
  obtain ⟨hkept, hgiven⟩ := hsession.access haction hpre
  unfold enterAccess
  generalize session.access action = ended at hkept hgiven
  obtain ⟨result, session⟩ := ended
  cases result with
  | error error => exact anchored_failing hkept hstack error
  | ok value => exact anchored_done (hthen session value hkept (hgiven value rfl)) hstack

/-- An access of which only the store matters. -/
theorem anchored_enterDeed {α : Type} {action : Access α} {pre : Store → Prop}
    (haction : Access.Triple pre action (fun _ => Store.Anchored session.store.extent)
      (Store.Anchored session.store.extent)) (hpre : pre session.store)
    {andThen : Session → α → Session}
    (hthen : ∀ (session : Session) value, session.Anchored least →
      (andThen session value).Anchored least) :
    (enterAccess session stack action andThen).Anchored least :=
  anchored_enterAccess hsession hstack (R := fun _ _ => True)
    (haction.imp (fun _ hpre => hpre) (fun _ _ hstore => ⟨hstore, trivial⟩) (fun _ hstore => hstore))
    hpre (fun session value hkept _ => hthen session value hkept)

theorem anchored_leaveBody (ref : RecordRef) (reply : Reply) :
    (leaveBody session stack ref reply).Anchored least := by
  refine anchored_done (hsession.withStore ?_) hstack
  cases reply with
  | ok value => exact hsession.store.self.setStatus ref .evaluated
  | error error =>
      exact hsession.store.self.modify_of_same ref (fun _ => rfl) (fun _ => rfl) (fun _ => .inl rfl)

theorem anchored_enterRun (root : ModuleId) : (enterRun session stack root).Anchored least := by
  have hprepared := hsession.attempt (Attempt.anchors_prepare root)
  unfold enterRun
  generalize session.attempt (Attempt.prepare root) = ended at hprepared
  obtain ⟨error | order, session⟩ := ended
  · exact anchored_failing hprepared hstack error
  · have hsettle : ∀ frame ∈ .settle root :: stack, frame.Anchored least :=
      List.forall_mem_cons.mpr ⟨trivial, hstack⟩
    exact anchored_going hprepared hsettle trivial

theorem anchored_enterLegacy {ref : RecordRef} (href : ref.Anchored session.store.extent) :
    (enterLegacy session stack ref).Anchored least := by
  have hstarted := hsession.self.attempt (Attempt.anchors_startLegacy ref)
  have hgrown := hstarted.store.grown
  replace hstarted := hstarted.weaken hsession.store.grown
  unfold enterLegacy
  generalize session.attempt (Attempt.startLegacy ref) = ended at hstarted hgrown
  obtain ⟨error | program, session'⟩ := ended
  · exact anchored_failing hstarted hstack error
  · exact anchored_going hstarted hstack (RecordRef.Anchored.mono hgrown href)

omit hsession hstack in
/-- The frame that waits for the body stands for the same record. -/
theorem anchored_enterLegacy_of_exported (hsession : session.Anchored least)
    (hstack : ∀ frame ∈ stack, frame.Anchored least) {ref : RecordRef}
    (href : ref.Anchored session.store.extent) :
    (enterLegacy session (.exported ref :: stack) ref).Anchored least := by
  have hframes : ∀ frame ∈ .exported ref :: stack, frame.Anchored session.store.extent :=
    List.forall_mem_cons.mpr ⟨href, anchored_below hsession hstack⟩
  exact (anchored_enterLegacy hsession.self hframes href).weaken hsession.store.grown

theorem anchored_enterEvaluate (specifier : String) (referrer? : Option ModuleId) :
    (enterEvaluate session stack specifier referrer?).Anchored least := by
  have hfound := hsession.attempt (Attempt.anchors_resolveAndRegister specifier referrer?)
  unfold enterEvaluate
  generalize session.attempt (Attempt.resolveAndRegister specifier referrer?) = ended at hfound
  obtain ⟨error | ⟨resolved, _⟩, session⟩ := ended
  · exact anchored_failing hfound hstack error
  · have hpresent : ∀ frame ∈ .present resolved.id referrer? :: stack, frame.Anchored least :=
      List.forall_mem_cons.mpr ⟨trivial, hstack⟩
    exact anchored_enterRun hfound hpresent resolved.id

theorem anchored_enterRequire (specifier : String) (referrer? : Option ModuleId) :
    (enterRequire session stack specifier referrer?).Anchored least := by
  have hfound := hsession.attempt (Attempt.anchors_resolveAndRegister specifier referrer?)
  unfold enterRequire
  generalize session.attempt (Attempt.resolveAndRegister specifier referrer?) = ended at hfound
  obtain ⟨error | ⟨resolved, ref⟩, session⟩ := ended
  · exact anchored_failing hfound hstack error
  · dsimp only
    cases hrecord : session.store.record? ref with
    | none => exact anchored_failing hfound hstack _
    | some record =>
        have href := Store.anchored_of_record hrecord
        dsimp only
        cases hexports : record.exports? with
        | none =>
            have hpresent : ∀ frame ∈ .present record.id referrer? :: stack, frame.Anchored least :=
              List.forall_mem_cons.mpr ⟨trivial, hstack⟩
            exact anchored_enterRun hfound hpresent record.id
        | some exports =>
            have hvalue := (hfound.store.record ref record hrecord).exports exports hexports
            cases record.status with
            | evaluating | evaluated =>
                exact anchored_giving hfound hstack
                  (fun value hgiven => Except.ok.inj hgiven ▸ hvalue)
            | errored => exact anchored_failing hfound hstack _
            | unlinked | linking | linked =>
                exact anchored_enterLegacy_of_exported hfound hstack href

/-- A command begins. -/
theorem anchored_enterCommand (command : Command) (save? : Option String) :
    (enterCommand session stack command save?).Anchored least := by
  have hreports : ∀ frame ∈ .report command save? :: stack, frame.Anchored least :=
    List.forall_mem_cons.mpr ⟨trivial, hstack⟩
  have hanswered := hsession.answer command save?
  cases command with
  | evaluate specifier referrer? => exact anchored_enterEvaluate hsession hreports specifier referrer?
  | require specifier referrer? => exact anchored_enterRequire hsession hreports specifier referrer?
  | _ => exact anchored_done { hanswered with } hstack

theorem anchored_enterModule (id : ModuleId) : (enterModule session stack id).Anchored least := by
  have hidle := anchored_idle hsession hstack
  unfold enterModule
  cases hlookup : session.store.lookup? id with
  | none => exact hidle
  | some ref =>
      have href := hsession.store.lookup hlookup
      cases session.store.find? id with
      | none => exact hidle
      | some record =>
          dsimp only
          split
          · split
            · exact hidle
            · rename_i source _
              have hstatus := hsession.store.self.setStatus ref .evaluating
              exact anchored_going (hsession.withStore hstatus) hstack
                (RecordRef.Anchored.mono hstatus.grown href)
          · have hstarted := hsession.self.attempt (Attempt.anchors_startLegacy ref)
            have hgrown := hstarted.store.grown
            replace hstarted := hstarted.weaken hsession.store.grown
            generalize session.attempt (Attempt.startLegacy ref) = ended at hstarted hgrown
            obtain ⟨error | program, session'⟩ := ended
            · exact anchored_idle { hstarted with } hstack
            · exact anchored_going hstarted hstack (RecordRef.Anchored.mono hgrown href)
          · exact hidle

omit hsession hstack in
theorem anchored_enterDrain (hsession : session.Anchored least)
    (hstack : ∀ frame ∈ stack, frame.Anchored least) : (enterDrain session stack).Anchored least := by
  have hfetched := Engine.anchored_prefetchQueue hsession.store.self
  unfold enterDrain
  generalize session.engine.prefetchQueue = fetched at hfetched
  obtain ⟨ready, engine⟩ := fetched
  obtain ⟨hserved, hwaiters⟩ := Engine.anchored_forWaiters Engine.serves_passTurn hfetched
    (fun waiter hwaiter => (hsession.waiters waiter hwaiter).mono hfetched.grown)
  dsimp only at hserved hwaiters ⊢
  generalize engine.forWaiters Engine.passTurn session.waiters = served at hserved hwaiters
  obtain ⟨waiters, engine⟩ := served
  have hafter : Session.Anchored least { session with engine, waiters } :=
    ⟨hserved.weaken hsession.store.grown,
      fun slot value hvalue => (hsession.slots slot value hvalue).mono hserved.grown,
      fun name live hlive => (hsession.lives name live hlive).mono hserved.grown, hwaiters⟩
  dsimp only
  split
  · have hdrain : ∀ frame ∈ .drain :: stack, frame.Anchored least :=
      List.forall_mem_cons.mpr ⟨trivial, hstack⟩
    exact anchored_going hafter hdrain trivial
  · exact anchored_done hafter hstack

end Enter

/-- An instruction begins. -/
theorem anchored_enterInstruction {stack : List Frame} (hsession : session.Anchored least)
    (hstack : ∀ frame ∈ stack, frame.Anchored least) {ref : RecordRef} (href : ref.Anchored least)
    (record : Record) (instruction : Instruction) :
    (enterInstruction session stack ref record instruction).Anchored least := by
  have href' : ref.Anchored session.store.extent := href.mono hsession.store.grown
  cases instruction with
  | «attempt» instruction =>
      have hattempt : ∀ frame ∈ Frame.attempt :: stack, frame.Anchored least :=
        List.forall_mem_cons.mpr ⟨trivial, hstack⟩
      exact anchored_enterInstruction hsession hattempt href record instruction
  | announce => exact anchored_done { hsession with } hstack
  | introduce => exact anchored_done { hsession with } hstack
  | importLater specifier as_ => exact anchored_done { hsession with } hstack
  | observe name =>
      exact anchored_enterAccess hsession hstack (R := Value.Anchored) (Scope.anchored_read name)
        hsession.store.self (fun _ _ hkept _ => { hkept with })
  | observeExports =>
      exact anchored_enterAccess hsession hstack (R := fun extent exports =>
        Value.Anchored extent exports.value) Scope.anchored_exports hsession.store.self
        (fun _ _ hkept _ => { hkept with })
  | assign name literal =>
      obtain ⟨hkept, hvalue⟩ := hsession.evaluateLiteral literal
      exact anchored_enterDeed hkept hstack
        (Scope.anchored_write (href.mono hkept.store.grown) name _) ⟨hkept.store.self, hvalue⟩
        (fun _ _ hkept => hkept)
  | capture name as_ =>
      refine anchored_enterAccess hsession hstack (R := LiveBinding.Anchored)
        (Scope.anchored_capture name) hsession.store.self (fun session live hkept hlive => ?_)
      refine { hkept with lives := fun other found hfound => ?_ }
      change (session.lives.insert as_ live).find? other = some found at hfound
      rw [Table.find?_insert] at hfound
      split at hfound
      · exact Option.some.inj hfound ▸ hlive
      · exact hkept.lives other found hfound
  | replaceExports source =>
      exact anchored_enterDeed hsession hstack
        ((Scope.anchored_read source).bind (fun value => Scope.anchored_replaceExports value))
        hsession.store.self (fun _ _ hkept => hkept)
  | perform command save? => exact anchored_enterCommand hsession hstack command save?
  | statement statement =>
      cases statement with
      | require specifier target? =>
          cases target? with
          | none => exact anchored_enterRequire hsession hstack specifier (some record.id)
          | some target =>
              have hassign : ∀ frame ∈ .assign ref target :: stack, frame.Anchored least :=
                List.forall_mem_cons.mpr ⟨href, hstack⟩
              exact anchored_enterRequire hsession hassign specifier (some record.id)
      | _ =>
          refine anchored_enterDeed hsession hstack (Scope.anchored_run href' _)
            hsession.store.self (fun session logged? hkept => ?_)
          cases logged? <;> exact { hkept with }

theorem anchored_answerCommand (hsession : session.Anchored least) (command : Command)
    (save? : Option String) {reply : Reply} (hreply : reply.Anchored session.store.extent) :
    (answerCommand session save? command reply).2.Anchored least := by
  unfold answerCommand
  split
  · exact hsession.answerReply save? hreply
  · exact hsession.answerValue save? hreply

/-- The pipelines of a batch have ended, and those who wait are told. -/
theorem anchored_notice (hsession : session.Anchored least) {stack : List Frame}
    (hstack : ∀ frame ∈ stack, frame.Anchored least) :
    let ended := session.engine.forWaiters Engine.notice session.waiters
    Machine.Anchored least ⟨{ session with engine := ended.2, waiters := ended.1 }, stack, .go⟩ := by
  obtain ⟨hserved, hwaiters⟩ := Engine.anchored_forWaiters Engine.serves_notice hsession.store.self
    hsession.waiters
  refine anchored_idle ⟨hserved.weaken hsession.store.grown, ?_, ?_, hwaiters⟩ hstack
  · exact fun slot value hvalue => (hsession.slots slot value hvalue).mono hserved.grown
  · exact fun name live hlive => (hsession.lives name live hlive).mono hserved.grown

variable {machine : Machine}

/-- **A step leaves nothing dangling.** -/
theorem anchored_step (hanchored : machine.Anchored least) : machine.step.Anchored least := by
  obtain ⟨session, stack, signal⟩ := machine
  obtain ⟨hsession, hframes, hsignal⟩ := hanchored
  suffices hself : (step ⟨session, stack, signal⟩).Anchored session.store.extent from
    hself.weaken hsession.store.grown
  replace hsession := hsession.self
  dsimp only at hframes hsignal
  cases stack with
  | nil => exact ⟨hsession, nofun, hsignal⟩
  | cons frame stack =>
      obtain ⟨hframe, hstack⟩ := List.forall_mem_cons.mp hframes
      have hdone := anchored_done hsession hstack
      have hpassed := anchored_failing hsession hstack
      cases frame with
      | pass rest =>
          cases rest with
          | nil => exact hdone
          | cons id rest =>
              have hpass : ∀ frame ∈ .pass rest :: stack, frame.Anchored session.store.extent :=
                List.forall_mem_cons.mpr ⟨trivial, hstack⟩
              exact anchored_enterModule hsession hpass id
      | settle root =>
          rcases signal with _ | ⟨error | value⟩
          · exact hdone
          · exact hpassed error
          · unfold Machine.step
            dsimp only
            split
            · exact hpassed _
            · exact anchored_giving hsession hstack hsignal
      | present id requester? =>
          rcases signal with _ | ⟨error | value⟩
          · exact hdone
          · exact hpassed error
          · have hcached := session.store.cached_namespace_ id requester?
            refine anchored_giving (hsession.cached hcached) hstack ?_
            show Reply.Anchored (session.store.namespace_ id requester?).2.extent _
            rw [Store.Anchored.extent_of_cached hcached]
            exact hsession.space id requester?
      | exported ref =>
          rcases signal with _ | ⟨error | value⟩
          · exact hdone
          · exact hpassed error
          · unfold Machine.step
            dsimp only
            cases hrecord : session.store.record? ref with
            | none => exact hdone
            | some record =>
                dsimp only
                cases record.error? with
                | some error => exact hpassed error
                | none =>
                    refine anchored_giving hsession hstack (fun value hvalue => ?_)
                    obtain rfl := Except.ok.inj hvalue
                    cases hexports : record.exports? with
                    | none => trivial
                    | some exports =>
                        exact (hsession.store.record ref record hrecord).exports exports hexports
      | body ref rest =>
          have hnext (instruction : Instruction) (rest : Program) :
              (step ⟨session, .body ref (instruction :: rest) :: stack, .go⟩).Anchored
                session.store.extent := by
            have hbody : ∀ frame ∈ .body ref rest :: stack, frame.Anchored session.store.extent :=
              List.forall_mem_cons.mpr ⟨hframe, hstack⟩
            unfold Machine.step
            dsimp only
            cases session.store.record? ref with
            | none => exact hdone
            | some record =>
                exact anchored_enterInstruction hsession hbody hframe record instruction
          rcases signal with _ | ⟨error | value⟩
          · cases rest with
            | nil => exact anchored_leaveBody hsession hstack ref .done
            | cons instruction rest => exact hnext instruction rest
          · cases rest <;> exact anchored_leaveBody hsession hstack ref (.error error)
          · cases rest with
            | nil => exact anchored_leaveBody hsession hstack ref .done
            | cons instruction rest => exact hnext instruction rest
      | assign ref name =>
          rcases signal with _ | ⟨error | value⟩
          · exact hdone
          · exact hpassed error
          · exact anchored_enterDeed hsession hstack (Scope.anchored_write hframe name value)
              ⟨hsession.store.self, hsignal value rfl⟩ (fun _ _ hkept => hkept)
      | «attempt» =>
          rcases signal with _ | ⟨error | value⟩
          · exact hdone
          · exact anchored_done { hsession with } hstack
          · exact anchored_done { hsession with } hstack
      | report command save? =>
          rcases signal with _ | reply
          · exact hdone
          · have hanswered := anchored_answerCommand hsession command save? hsignal
            exact anchored_done { hanswered with } hstack
      | batch rest =>
          cases rest with
          | nil => exact anchored_notice hsession hstack
          | cons pipeline rest =>
              have hfinish : ∀ frame ∈ .finish pipeline :: .batch rest :: stack,
                  frame.Anchored session.store.extent :=
                List.forall_mem_cons.mpr ⟨trivial, List.forall_mem_cons.mpr ⟨trivial, hstack⟩⟩
              exact anchored_enterRun hsession hfinish pipeline.target
      | finish pipeline =>
          rcases signal with _ | reply
          · exact hdone
          · exact anchored_idle { hsession with } hstack
      | drain => exact anchored_enterDrain hsession hstack

/-! ## Runs -/

/-- However a command from outside begins. -/
theorem anchored_opening (hsession : session.Anchored least) (command : Command)
    (save? : Option String) : (session.opening save? command).Anchored least := by
  have hnone : ∀ frame ∈ ([] : List Frame), frame.Anchored least := nofun
  have hdrain : ∀ frame ∈ [Frame.drain], frame.Anchored least :=
    List.forall_mem_cons.mpr ⟨trivial, nofun⟩
  have hanswered := anchored_idle (hsession.answer command save?) hnone
  cases command with
  | evaluate specifier referrer? => exact anchored_enterEvaluate hsession hnone specifier referrer?
  | require specifier referrer? => exact anchored_enterRequire hsession hnone specifier referrer?
  | importNow specifier referrer? => exact anchored_idle (hsession.beginImports _) hdrain
  | importAll requests => exact anchored_idle (hsession.beginImports _) hdrain
  | drive => exact anchored_idle hsession hdrain
  | await name =>
      unfold Session.opening
      dsimp only
      split
      · exact anchored_idle hsession hnone
      · have herased : Session.Anchored least { session with futures := session.futures.erase name } :=
          ⟨hsession.store, hsession.slots, hsession.lives, hsession.waiters⟩
        exact anchored_idle (herased.beginImports _) hdrain
  | startImport specifier referrer? =>
      obtain ⟨hstore, -⟩ := Engine.anchored_beginImport hsession.store.self specifier referrer?
        session.store.extent
      exact anchored_idle (hsession.of_grown hstore rfl rfl rfl) hnone
  | inspectHost id bare? referrer? fetch =>
      cases fetch with
      | false => exact hanswered
      | true => exact anchored_idle (hsession.of_grown hsession.store.self rfl rfl rfl) hdrain
  | _ => exact hanswered

/-- The results of dynamic imports show records that are there. -/
theorem anchored_results (hsession : session.Anchored least) :
    ∀ reply ∈ session.results, Reply.Anchored session.store.extent reply := by
  intro reply hreply value hvalue
  obtain ⟨waiter, hwaiter, rfl⟩ := List.mem_map.mp hreply
  have hwait := hsession.waiters waiter hwaiter
  generalize waiter.wait = wait at hwait hvalue
  cases wait with
  | turn | pipeline => cases hvalue
  | «over» result =>
      cases result with
      | error error => cases hvalue
      | ok found => exact Except.ok.inj hvalue ▸ hwait

/-- All results are shown, and kept one after the other. -/
theorem anchored_answerAll (hsession : session.Anchored least) (save? : Option String)
    {replies : List Reply} (hreplies : ∀ reply ∈ replies, reply.Anchored session.store.extent) :
    (session.answerAll save? replies).2.Anchored least := by
  unfold Session.answerAll
  -- each answer may add to the heap, so the replies are kept anchored by what there was before
  refine (List.foldlRecOn replies _ (motive := fun shown =>
    Session.Anchored session.store.extent (Prod.snd shown)) hsession.self ?_).weaken
      hsession.store.grown
  rintro ⟨answers, next⟩ hnext reply hreply
  exact (hnext.self.answerReply save? ((hreplies reply hreply).mono hnext.store.grown)).weaken
    hnext.store.grown

theorem anchored_closing (hanchored : machine.Anchored least) {command : Command}
    {save? : Option String} {reply : Reply}
    (hrelays : (Act.conclude command save? reply).Relays machine) :
    (machine.session.closing save? reply command).Anchored least := by
  have hsession := hanchored.session
  have htaken : Session.Anchored least { machine.session with waiters := [] } :=
    { hsession with waiters := nofun }
  have hresults := anchored_results hsession
  have hfirst : Reply.Anchored machine.session.store.extent
      (machine.session.results.headD (.error (.aborted "too many steps"))) := by
    generalize machine.session.results = results at hresults
    cases results with
    | nil => exact Reply.anchored_error _ _
    | cons reply rest => exact hresults reply List.mem_cons_self
  -- what has been given is on the signal
  have hgiven : machine.signal = .reply reply → reply.Anchored machine.session.store.extent := by
    intro hsignal
    have hanchors := hanchored.signal
    rwa [hsignal] at hanchors
  cases command with
  | evaluate specifier referrer? => exact hsession.answerReply save? (hgiven hrelays)
  | require specifier referrer? => exact hsession.answerValue save? (hgiven hrelays)
  | importNow | await => exact htaken.answerReply save? hfirst
  | importAll requests => exact anchored_answerAll htaken save? hresults
  | _ => exact hsession

theorem anchored_act (hanchored : machine.Anchored least) {act : Act}
    (hrelays : act.Relays machine) : (machine.act act).Anchored least := by
  have hnone : ∀ frame ∈ ([] : List Frame), frame.Anchored least := nofun
  cases act with
  | step => exact anchored_step hanchored
  | call command save? =>
      unfold Machine.act
      dsimp only
      split
      · exact anchored_opening hanchored.session command save?
      · exact hanchored
  | conclude command save? reply =>
      unfold Machine.act
      dsimp only
      split
      · exact anchored_idle (anchored_closing hanchored hrelays) hnone
      · exact hanchored
  | abandon => exact anchored_idle hanchored.session hnone
  | rehost host => exact { hanchored with session := { hanchored.session with } }

/-- Answers are made of the replies that have been given. -/
def Relays (machine : Machine) : List Act → Prop
  | [] => True
  | first :: rest => first.Relays machine ∧ (machine.act first).Relays rest

/-- **In every run in which answers are made of the replies that have been given, nothing dangles.** -/
theorem anchored_perform (hanchored : machine.Anchored least) {acts : List Act}
    (hrelays : machine.Relays acts) : (machine.perform acts).Anchored least := by
  induction acts generalizing machine with
  | nil => exact hanchored
  | cons first rest ih => exact ih (anchored_act hanchored hrelays.1) hrelays.2

theorem anchored_new (place : Place) (config : Config) :
    (new place config).Anchored ⟨0, 0, 0⟩ :=
  anchored_idle (Session.anchored_new place config) nofun

end Machine

end Linkage
