import Linkage.Proofs.Renaming.Sessions
import Linkage.Proofs.Session.Frames

/-!
# Machines under new names

Two machines mirror each other above two bases under new names if their sessions do and the frames
above the bases correspond, none of which runs pipelines.  While there are such frames, a step does
the same to both, and it leaves the dynamic imports and those who wait for them as they are.

* `Machine.Mirrors` : the relation.
* `Machine.Mirrors.step` : one step.
* `Machine.Mirrors.after` : all steps up to the bases.
-/

namespace Linkage

/-- Whether a frame has nothing to do with pipelines. -/
def Frame.isInner : Frame → Bool
  | batch _ | finish _ | drain => false
  | _ => true

/-- Frames that have nothing to do with pipelines. -/
abbrev Inner (above : List Frame) : Prop := ∀ frame ∈ above, frame.isInner = true

theorem Inner.cons {above : List Frame} (habove : Inner above) (frame : Frame)
    (hframe : frame.isInner = true) : Inner (frame :: above) :=
  List.forall_mem_cons.mpr ⟨hframe, habove⟩

/-- Two machines that do not differ above their bases but in what things are called. -/
structure Machine.Mirrors (names : Renaming) (imports imports' : Imports)
    (waiters waiters' : List Waiter) (base base' : List Frame) (machine machine' : Machine) :
    Prop where
  session : machine.session.Mirrors names imports imports' waiters waiters' machine'.session
  stack : ∃ above, Inner above ∧ machine.stack = above ++ base ∧
    machine'.stack = above.map (Frame.rename names) ++ base'
  signal : machine'.signal = machine.signal.rename names

namespace Machine

variable {names : Renaming} {imports imports' : Imports} {waiters waiters' : List Waiter}
  {base base' : List Frame} {session session' : Session} {above : List Frame}

section Enter

variable (hsession : session.Mirrors names imports imports' waiters waiters' session')
  (habove : Inner above)
include hsession habove

theorem mirrors_going : Mirrors names imports imports' waiters waiters' base base'
    ⟨session, above ++ base, .go⟩ ⟨session', above.map (Frame.rename names) ++ base', .go⟩ :=
  ⟨hsession, ⟨above, habove, rfl, rfl⟩, rfl⟩

theorem mirrors_giving {reply reply' : Reply}
    (hreply : Matches (fun value value' => value' = value.rename names) reply reply') :
    Mirrors names imports imports' waiters waiters' base base'
      (giving session (above ++ base) reply)
      (giving session' (above.map (Frame.rename names) ++ base') reply') :=
  ⟨hsession, ⟨above, habove, rfl, rfl⟩, congrArg Signal.reply hreply.eq_map⟩

theorem mirrors_done : Mirrors names imports imports' waiters waiters' base base'
    (giving session (above ++ base) .done)
    (giving session' (above.map (Frame.rename names) ++ base') .done) :=
  mirrors_giving hsession habove (.ok rfl)

theorem mirrors_enterRun (root : ModuleId) :
    Mirrors names imports imports' waiters waiters' base base'
      (enterRun session (above ++ base) root)
      (enterRun session' (above.map (Frame.rename names) ++ base') root) := by
  obtain ⟨hresult, hsession'⟩ := hsession.attempt (Attempt.prepare_mirrors root)
  unfold enterRun
  generalize session.attempt (Attempt.prepare root) = ended at hresult hsession'
  generalize session'.attempt (Attempt.prepare root) = ended' at hresult hsession'
  obtain ⟨result, session⟩ := ended
  obtain ⟨result', session'⟩ := ended'
  cases hresult with
  | error error => exact mirrors_giving hsession' habove (.error error)
  | ok horder =>
      subst horder
      exact mirrors_going hsession' ((habove.cons (.settle root) rfl).cons (.pass _) rfl)

theorem mirrors_enterLegacy (ref : RecordRef) :
    Mirrors names imports imports' waiters waiters' base base'
      (enterLegacy session (above ++ base) ref)
      (enterLegacy session' (above.map (Frame.rename names) ++ base') (names.record ref)) := by
  obtain ⟨hresult, hsession'⟩ := hsession.attempt (Attempt.startLegacy_mirrors ref)
  unfold enterLegacy
  generalize session.attempt (Attempt.startLegacy ref) = ended at hresult hsession'
  generalize session'.attempt (Attempt.startLegacy (names.record ref)) = ended'
    at hresult hsession'
  obtain ⟨result, session⟩ := ended
  obtain ⟨result', session'⟩ := ended'
  cases hresult with
  | error error => exact mirrors_giving hsession' habove (.error error)
  | ok hprogram =>
      subst hprogram
      exact mirrors_going hsession' (habove.cons (.body ref _) rfl)

theorem mirrors_enterEvaluate (specifier : String) (referrer? : Option ModuleId) :
    Mirrors names imports imports' waiters waiters' base base'
      (enterEvaluate session (above ++ base) specifier referrer?)
      (enterEvaluate session' (above.map (Frame.rename names) ++ base') specifier referrer?) := by
  obtain ⟨hresult, hsession'⟩ :=
    hsession.attempt (Attempt.resolveAndRegister_mirrors specifier referrer?)
  unfold enterEvaluate
  generalize session.attempt (Attempt.resolveAndRegister specifier referrer?) = ended
    at hresult hsession'
  generalize session'.attempt (Attempt.resolveAndRegister specifier referrer?) = ended'
    at hresult hsession'
  obtain ⟨result, session⟩ := ended
  obtain ⟨result', session'⟩ := ended'
  cases hresult with
  | error error => exact mirrors_giving hsession' habove (.error error)
  | @ok found found' hfound =>
      obtain ⟨resolved, ref⟩ := found
      obtain ⟨resolved', ref'⟩ := found'
      obtain rfl : resolved' = resolved := hfound.1
      exact mirrors_enterRun hsession' (habove.cons (.present resolved'.id referrer?) rfl)
        resolved'.id

theorem mirrors_enterRequire (specifier : String) (referrer? : Option ModuleId) :
    Mirrors names imports imports' waiters waiters' base base'
      (enterRequire session (above ++ base) specifier referrer?)
      (enterRequire session' (above.map (Frame.rename names) ++ base') specifier referrer?) := by
  obtain ⟨hresult, hsession'⟩ :=
    hsession.attempt (Attempt.resolveAndRegister_mirrors specifier referrer?)
  unfold enterRequire
  generalize session.attempt (Attempt.resolveAndRegister specifier referrer?) = ended
    at hresult hsession'
  generalize session'.attempt (Attempt.resolveAndRegister specifier referrer?) = ended'
    at hresult hsession'
  obtain ⟨result, session⟩ := ended
  obtain ⟨result', session'⟩ := ended'
  cases hresult with
  | error error => exact mirrors_giving hsession' habove (.error error)
  | @ok found found' hfound =>
      obtain ⟨resolved, ref⟩ := found
      obtain ⟨resolved', ref'⟩ := found'
      obtain ⟨hresolved, href⟩ := hfound
      dsimp only at hresolved href
      subst hresolved href
      dsimp only
      rw [hsession'.store.record]
      cases session.store.record? ref with
      | none => exact mirrors_giving hsession' habove (.error _)
      | some record =>
          dsimp only [Option.map_some]
          rw [Record.rename_exports, Record.rename_status, Record.rename_id, Record.rename_error]
          cases record.exports? with
          | none =>
              exact mirrors_enterRun hsession' (habove.cons (.present record.id referrer?) rfl)
                record.id
          | some exports =>
              dsimp only [Option.map_some]
              cases record.status with
              | evaluating | evaluated => exact mirrors_giving hsession' habove (.ok rfl)
              | errored => exact mirrors_giving hsession' habove (.error _)
              | unlinked | linking | linked =>
                  exact mirrors_enterLegacy hsession' (habove.cons (.exported ref) rfl) ref

theorem mirrors_enterCommand (command : Command) (save? : Option String) :
    Mirrors names imports imports' waiters waiters' base base'
      (enterCommand session (above ++ base) command save?)
      (enterCommand session' (above.map (Frame.rename names) ++ base') command save?) := by
  have hanswer := hsession.answer command save?
  cases command with
  | evaluate specifier referrer? =>
      exact mirrors_enterEvaluate hsession
        (habove.cons (.report (.evaluate specifier referrer?) save?) rfl) specifier referrer?
  | require specifier referrer? =>
      exact mirrors_enterRequire hsession
        (habove.cons (.report (.require specifier referrer?) save?) rfl) specifier referrer?
  | _ => exact mirrors_done (hanswer.note _ _) habove

theorem mirrors_enterAccess {α β : Type} {R : α → β → Prop} {action : Access α}
    {action' : Access β} (haction : Access.Mirrors names R action action')
    {andThen : Session → α → Session} {andThen' : Session → β → Session}
    (hthen : ∀ (session session' : Session) value value', R value value' →
      session.Mirrors names imports imports' waiters waiters' session' →
      (andThen session value).Mirrors names imports imports' waiters waiters'
        (andThen' session' value')) :
    Mirrors names imports imports' waiters waiters' base base'
      (enterAccess session (above ++ base) action andThen)
      (enterAccess session' (above.map (Frame.rename names) ++ base') action' andThen') := by
  obtain ⟨hresult, hsession'⟩ := hsession.access haction
  unfold enterAccess
  generalize session.access action = ended at hresult hsession'
  generalize session'.access action' = ended' at hresult hsession'
  obtain ⟨result, session⟩ := ended
  obtain ⟨result', session'⟩ := ended'
  cases hresult with
  | error error => exact mirrors_giving hsession' habove (.error error)
  | ok hvalue => exact mirrors_done (hthen _ _ _ _ hvalue hsession') habove

theorem mirrors_enterModule (id : ModuleId) :
    Mirrors names imports imports' waiters waiters' base base'
      (enterModule session (above ++ base) id)
      (enterModule session' (above.map (Frame.rename names) ++ base') id) := by
  have hgoing : Mirrors names imports imports' waiters waiters' base base'
      ⟨session, above ++ base, .go⟩ ⟨session', above.map (Frame.rename names) ++ base', .go⟩ :=
    mirrors_going hsession habove
  unfold enterModule
  rw [hsession.store.lookup, hsession.store.find]
  cases session.store.lookup? id with
  | none => exact hgoing
  | some ref =>
      cases session.store.find? id with
      | none => exact hgoing
      | some record =>
          dsimp only [Option.map_some]
          rw [Record.rename_format, Record.rename_status, Record.rename_source]
          cases record.format with
          | modern =>
              cases record.status with
              | linked =>
                  dsimp only
                  cases record.source? with
                  | none => exact hgoing
                  | some source =>
                      exact mirrors_going
                        (hsession.withStore (hsession.store.setStatus ref .evaluating))
                        (habove.cons (.body ref source.body) rfl)
              | unlinked | linking | evaluating | evaluated | errored => exact hgoing
          | legacy =>
              cases record.status with
              | unlinked =>
                  obtain ⟨hresult, hsession'⟩ :=
                    hsession.attempt (Attempt.startLegacy_mirrors ref)
                  dsimp only
                  generalize session.attempt (Attempt.startLegacy ref) = ended
                    at hresult hsession'
                  generalize session'.attempt (Attempt.startLegacy (names.record ref)) = ended'
                    at hresult hsession'
                  obtain ⟨result, session⟩ := ended
                  obtain ⟨result', session'⟩ := ended'
                  cases hresult with
                  | error error => exact mirrors_going (hsession'.note _ _) habove
                  | ok hprogram =>
                      subst hprogram
                      exact mirrors_going hsession' (habove.cons (.body ref _) rfl)
              | linking | linked | evaluating | evaluated | errored => exact hgoing

theorem mirrors_leaveBody (ref : RecordRef) {reply reply' : Reply}
    (hreply : Matches (fun _ _ => True) reply reply') :
    Mirrors names imports imports' waiters waiters' base base'
      (leaveBody session (above ++ base) ref reply)
      (leaveBody session' (above.map (Frame.rename names) ++ base') (names.record ref) reply') := by
  cases hreply with
  | ok =>
      exact mirrors_done (hsession.withStore (hsession.store.setStatus ref .evaluated)) habove
  | error error =>
      have hfailed : (session.store.modify ref (fun record =>
            record.fail (.evaluation record.id error))).Mirrors names
          (session'.store.modify (names.record ref) (fun record =>
            record.fail (.evaluation record.id error))) :=
        hsession.store.modify ref (fun _ => rfl)
      exact mirrors_done (hsession.withStore hfailed) habove

end Enter

theorem mirrors_enterInstruction
    (hsession : session.Mirrors names imports imports' waiters waiters' session')
    (habove : Inner above) (ref : RecordRef) (record : Record) (instruction : Instruction) :
    Mirrors names imports imports' waiters waiters' base base'
      (enterInstruction session (above ++ base) ref record instruction)
      (enterInstruction session' (above.map (Frame.rename names) ++ base') (names.record ref)
        (record.rename names) instruction) := by
  generalize hstack : above ++ base = stack
  fun_induction enterInstruction session stack ref record instruction generalizing above with
  | case1 stack specifier =>
      subst hstack
      exact mirrors_enterRequire hsession habove specifier (some record.id)
  | case2 stack specifier target =>
      subst hstack
      exact mirrors_enterRequire hsession (habove.cons (.assign ref target) rfl) specifier
        (some record.id)
  | case3 stack statement hnone hsome =>
      subst hstack
      rw [enterInstruction]
      · refine mirrors_enterAccess hsession habove (Scope.run_mirrors ref statement) ?_
        intro session session' logged logged' _ hmirrors
        cases logged <;> cases logged' <;> exact { hmirrors with }
      · exact hnone
      · exact hsome
  | case4 stack =>
      subst hstack
      exact mirrors_done (hsession.note _ _) habove
  | case5 stack instruction ih =>
      subst hstack
      exact ih (habove.cons .attempt rfl) rfl
  | case6 stack name =>
      subst hstack
      exact mirrors_enterAccess hsession habove (Scope.read_mirrors ref name)
        (fun session session' value value' _ hmirrors => hmirrors.note _ _)
  | case7 stack name literal value session'' hvalue =>
      subst hstack
      obtain ⟨hsame, hsession'⟩ := hsession.evaluateLiteral literal
      rw [hvalue] at hsame hsession'
      rw [enterInstruction]
      dsimp only at hsame hsession' ⊢
      rw [hsame]
      exact mirrors_enterAccess hsession' habove (Scope.write_mirrors ref name value)
        (fun _ _ _ _ _ hmirrors => hmirrors)
  | case8 stack name as_ =>
      subst hstack
      refine mirrors_enterAccess hsession habove (Scope.capture_mirrors ref name) ?_
      intro session session' live live' hlive hmirrors
      subst hlive
      refine { hmirrors with lives := ?_ }
      dsimp only
      rw [hmirrors.lives, Table.insert_map]
  | case9 stack specifier as_ =>
      subst hstack
      refine mirrors_done { hsession with futures := ?_ } habove
      dsimp only
      rw [hsession.futures]
      rfl
  | case10 stack =>
      subst hstack
      exact mirrors_enterAccess hsession habove (Scope.exports_mirrors ref)
        (fun session session' value value' _ hmirrors => hmirrors.note _ _)
  | case11 stack source =>
      subst hstack
      have hreplaces : Access.SameDeed names
          (Scope.read ref source >>= Scope.replaceExports ref)
          (Scope.read (names.record ref) source >>= Scope.replaceExports (names.record ref)) := by
        refine (Scope.read_mirrors ref source).bind (fun value _ hvalue => ?_)
        subst hvalue
        exact Scope.replaceExports_mirrors ref value
      exact mirrors_enterAccess hsession habove hreplaces (fun _ _ _ _ _ hmirrors => hmirrors)
  | case12 stack =>
      subst hstack
      exact mirrors_done (hsession.note _ _) habove
  | case13 stack command save? =>
      subst hstack
      exact mirrors_enterCommand hsession habove command save?

/-! ## Steps -/

theorem Mirrors.answerCommand
    (hsession : session.Mirrors names imports imports' waiters waiters' session')
    (command : Command) (save? : Option String) {reply reply' : Reply}
    (hreply : Matches (fun value value' => value' = value.rename names) reply reply') :
    (answerCommand session save? command reply).2.Mirrors names imports imports' waiters waiters'
      (answerCommand session' save? command reply').2 := by
  unfold Machine.answerCommand
  split
  · exact hsession.answerReply save? hreply
  · exact hsession.answerValue save? hreply

variable {machine machine' : Machine}

/-- A step on a frame above the bases does the same to both machines. -/
theorem Mirrors.step
    (hmirrors : Mirrors names imports imports' waiters waiters' base base' machine machine')
    (hhigher : base.length < machine.stack.length) :
    Mirrors names imports imports' waiters waiters' base base' machine.step machine'.step := by
  obtain ⟨hsession, ⟨above, habove, hstack, hstack'⟩, hsignal⟩ := hmirrors
  obtain ⟨session, stack, signal⟩ := machine
  obtain ⟨session', stack', signal'⟩ := machine'
  dsimp only at hsession hstack hstack' hsignal hhigher
  subst hstack hstack' hsignal
  cases above with
  | nil => exact absurd hhigher (Nat.lt_irrefl _)
  | cons frame above =>
      obtain ⟨hinner, hrest⟩ : frame.isInner = true ∧ Inner above :=
        List.forall_mem_cons.mp habove
      change Mirrors names imports imports' waiters waiters' base base'
        (Machine.step ⟨session, frame :: (above ++ base), signal⟩)
        (Machine.step ⟨session', frame.rename names :: (above.map (Frame.rename names) ++ base'),
          signal.rename names⟩)
      have hpassed : ∀ error : ModuleError, Mirrors names imports imports' waiters waiters' base
          base' (giving session (above ++ base) (.error error))
          (giving session' (above.map (Frame.rename names) ++ base') (.error error)) :=
        fun error => mirrors_giving hsession hrest (.error error)
      have hdone : Mirrors names imports imports' waiters waiters' base base'
          (giving session (above ++ base) .done)
          (giving session' (above.map (Frame.rename names) ++ base') .done) :=
        mirrors_done hsession hrest
      cases frame with
      | batch | finish | drain => cases hinner
      | pass rest =>
          cases rest with
          | nil => exact hdone
          | cons id rest => exact mirrors_enterModule hsession (hrest.cons (.pass rest) rfl) id
      | settle root =>
          rcases signal with _ | ⟨error | value⟩
          · exact hdone
          · exact hpassed error
          · have herror : (session'.store.find? root).bind (·.error?) =
                (session.store.find? root).bind (·.error?) := by
              rw [hsession.store.find]
              cases session.store.find? root <;> rfl
            unfold Machine.step Frame.rename Signal.rename
            dsimp only [Except.map]
            rw [herror]
            cases (session.store.find? root).bind (·.error?) with
            | none => exact mirrors_giving hsession hrest (.ok rfl)
            | some error => exact hpassed error
      | present id requester? =>
          rcases signal with _ | ⟨error | value⟩
          · exact hdone
          · exact hpassed error
          · exact mirrors_giving
              (hsession.withStore (hsession.store.namespace_ id requester?).2) hrest
              (.of_map (hsession.store.space id requester?))
      | exported ref =>
          rcases signal with _ | ⟨error | value⟩
          · exact hdone
          · exact hpassed error
          · unfold Machine.step Frame.rename Signal.rename
            dsimp only [Except.map]
            rw [hsession.store.record]
            cases session.store.record? ref with
            | none => exact hdone
            | some record =>
                dsimp only [Option.map_some]
                rw [Record.rename_error, Record.rename_exports]
                cases record.error? with
                | some error => exact hpassed error
                | none =>
                    refine mirrors_giving hsession hrest (.ok ?_)
                    cases record.exports? <;> rfl
      | body ref rest =>
          have hnext (instruction : Instruction) (rest : Program) :
              Mirrors names imports imports' waiters waiters' base base'
                (Machine.step ⟨session, .body ref (instruction :: rest) :: (above ++ base), .go⟩)
                (Machine.step ⟨session', .body (names.record ref) (instruction :: rest) ::
                  (above.map (Frame.rename names) ++ base'), .go⟩) := by
            unfold Machine.step
            dsimp only
            rw [hsession.store.record]
            cases session.store.record? ref with
            | none => exact hdone
            | some record =>
                exact mirrors_enterInstruction hsession (hrest.cons (.body ref rest) rfl) ref
                  record instruction
          have hended : Mirrors names imports imports' waiters waiters' base base'
              (leaveBody session (above ++ base) ref .done)
              (leaveBody session' (above.map (Frame.rename names) ++ base') (names.record ref)
                .done) :=
            mirrors_leaveBody hsession hrest ref (.ok trivial)
          rcases signal with _ | ⟨error | value⟩
          · cases rest with
            | nil => exact hended
            | cons instruction rest => exact hnext instruction rest
          · cases rest <;> exact mirrors_leaveBody hsession hrest ref (.error error)
          · cases rest with
            | nil => exact hended
            | cons instruction rest => exact hnext instruction rest
      | assign ref name =>
          rcases signal with _ | ⟨error | value⟩
          · exact hdone
          · exact hpassed error
          · exact mirrors_enterAccess hsession hrest (Scope.write_mirrors ref name value)
              (fun _ _ _ _ _ hmirrors => hmirrors)
      | «attempt» =>
          rcases signal with _ | ⟨error | value⟩
          · exact hdone
          · exact mirrors_done (hsession.note _ _) hrest
          · exact mirrors_done (hsession.note _ _) hrest
      | report command save? =>
          rcases signal with _ | ⟨error | value⟩
          · exact hdone
          · exact mirrors_done
              ((Mirrors.answerCommand hsession command save? (.error error)).note _ _) hrest
          · exact mirrors_done
              ((Mirrors.answerCommand hsession command save? (.ok rfl)).note _ _) hrest

/-- All steps up to the bases do the same to both machines. -/
theorem Mirrors.after {count : Nat}
    (hmirrors : Mirrors names imports imports' waiters waiters' base base' machine machine')
    (hhigher : ∀ taken < count, base.length < (machine.after taken).stack.length) :
    Mirrors names imports imports' waiters waiters' base base' (machine.after count)
      (machine'.after count) := by
  induction count with
  | zero => exact hmirrors
  | succ count ih =>
      rw [after_succ', after_succ']
      exact (ih (fun taken htaken => hhigher taken (Nat.lt_succ_of_lt htaken))).step
        (hhigher count (Nat.lt_succ_self count))

/-- Both machines have as many frames above their bases. -/
theorem Mirrors.higher_iff
    (hmirrors : Mirrors names imports imports' waiters waiters' base base' machine machine') :
    base'.length < machine'.stack.length ↔ base.length < machine.stack.length := by
  obtain ⟨above, -, hstack, hstack'⟩ := hmirrors.stack
  rw [hstack, hstack', List.length_append, List.length_append, List.length_map]
  omega

end Machine

end Linkage
