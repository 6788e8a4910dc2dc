import Linkage.Proofs.Alike.Sessions

/-!
# Machines that are alike

Two machines are alike if their sessions are and their frames correspond, none of which runs
pipelines.  A command begins alike on both, and a step does the same to both.

* `Machine.Alike` : the relation.
* `Machine.alike_enterCommand`, `Machine.alike_enterRun` : how work begins.
* `Machine.Alike.step` : one step.
-/

namespace Linkage

/-- Two frames that have nothing to do with pipelines and do the same work on paired records. -/
inductive Frame.Alike (pairing : Pairing) : Frame → Frame → Prop
  | pass (rest : List ModuleId) : Frame.Alike pairing (.pass rest) (.pass rest)
  | settle (root : ModuleId) : Frame.Alike pairing (.settle root) (.settle root)
  | present (id : ModuleId) (requester? : Option ModuleId) :
      Frame.Alike pairing (.present id requester?) (.present id requester?)
  | exported {ref ref' : RecordRef} (href : pairing.record ref ref') :
      Frame.Alike pairing (.exported ref) (.exported ref')
  | body {ref ref' : RecordRef} (href : pairing.record ref ref') (rest : Program) :
      Frame.Alike pairing (.body ref rest) (.body ref' rest)
  | assign {ref ref' : RecordRef} (href : pairing.record ref ref') (name : String) :
      Frame.Alike pairing (.assign ref name) (.assign ref' name)
  | attempt : Frame.Alike pairing .attempt .attempt
  | report (command : Command) (save? : Option String) :
      Frame.Alike pairing (.report command save?) (.report command save?)

/-- Two signals say the same. -/
inductive Signal.Alike (pairing : Pairing) : Signal → Signal → Prop
  | go : Signal.Alike pairing .go .go
  | reply {reply reply' : Reply} (hreply : Matches (Value.Alike pairing) reply reply') :
      Signal.Alike pairing (.reply reply) (.reply reply')

/-- Two machines that do not differ but in paired numbers, in what is cached, in the events noted, in
their dynamic imports, and in who waits for them. -/
structure Machine.Alike (pairing : Pairing) (imports imports' : Imports)
    (machine machine' : Machine) : Prop where
  session : machine.session.Alike pairing imports imports' machine'.session
  stack : List.Forall₂ (Frame.Alike pairing) machine.stack machine'.stack
  signal : machine.signal.Alike pairing machine'.signal

namespace Machine

variable {pairing : Pairing} {imports imports' : Imports} {session session' : Session}
  {stack stack' : List Frame}

section Enter

variable (hsession : session.Alike pairing imports imports' session')
  (hstack : List.Forall₂ (Frame.Alike pairing) stack stack')
include hsession hstack

theorem alike_going : Machine.Alike pairing imports imports' ⟨session, stack, .go⟩
    ⟨session', stack', .go⟩ :=
  ⟨hsession, hstack, .go⟩

theorem alike_giving {reply reply' : Reply}
    (hreply : Matches (Value.Alike pairing) reply reply') :
    (giving session stack reply).Alike pairing imports imports' (giving session' stack' reply') :=
  ⟨hsession, hstack, .reply hreply⟩

theorem alike_done : (giving session stack .done).Alike pairing imports imports'
    (giving session' stack' .done) :=
  alike_giving hsession hstack (.ok .undefined)

theorem alike_enterAccess {α β : Type} {R : α → β → Prop} {action : Access α}
    {action' : Access β} (haction : Access.Alike pairing R action action')
    {andThen : Session → α → Session} {andThen' : Session → β → Session}
    (hthen : ∀ (session session' : Session) value value', R value value' →
      session.Alike pairing imports imports' session' →
      (andThen session value).Alike pairing imports imports' (andThen' session' value')) :
    (enterAccess session stack action andThen).Alike pairing imports imports'
      (enterAccess session' stack' action' andThen') := by
  obtain ⟨hresult, hsession'⟩ := hsession.access haction
  unfold enterAccess
  generalize session.access action = ended at hresult hsession'
  generalize session'.access action' = ended' at hresult hsession'
  obtain ⟨result, session⟩ := ended
  obtain ⟨result', session'⟩ := ended'
  cases hresult with
  | error error => exact alike_giving hsession' hstack (.error error)
  | ok hvalue => exact alike_done (hthen _ _ _ _ hvalue hsession') hstack

theorem alike_leaveBody {ref ref' : RecordRef} (href : pairing.record ref ref')
    {reply reply' : Reply} (hreply : Matches (fun _ _ => True) reply reply') :
    (leaveBody session stack ref reply).Alike pairing imports imports'
      (leaveBody session' stack' ref' reply') := by
  cases hreply with
  | ok =>
      exact alike_done (hsession.withStore (hsession.store.setStatus href .evaluated)) hstack
  | error error =>
      have hfailed : Store.Alike pairing
          (session.store.modify ref (fun record => record.fail (.evaluation record.id error)))
          (session'.store.modify ref' (fun record => record.fail (.evaluation record.id error))) :=
        hsession.store.modify href
          (fun record record' hrecord =>
            have hid := hrecord.id
            have hpoison := hrecord.poison
            { hrecord with
              status := rfl
              error := by rw [Record.fail, Record.fail, hid]
              poison := by rw [Record.fail, Record.fail, hid, hpoison] })
          (fun _ => rfl) (fun _ => rfl)
      exact alike_done (hsession.withStore hfailed) hstack

section Covered

variable (hall : ∀ id, pairing.covers id)
include hall

theorem alike_enterRun (root : ModuleId) :
    (enterRun session stack root).Alike pairing imports imports'
      (enterRun session' stack' root) := by
  obtain ⟨hresult, hsession'⟩ := hsession.attempt (Attempt.alike_prepare hall root)
  unfold enterRun
  generalize session.attempt (Attempt.prepare root) = ended at hresult hsession'
  generalize session'.attempt (Attempt.prepare root) = ended' at hresult hsession'
  obtain ⟨result, session⟩ := ended
  obtain ⟨result', session'⟩ := ended'
  cases hresult with
  | error error => exact alike_giving hsession' hstack (.error error)
  | ok horder =>
      subst horder
      exact alike_going hsession' (.cons (.pass _) (.cons (.settle root) hstack))

theorem alike_enterLegacy {ref ref' : RecordRef} (href : pairing.record ref ref') :
    (enterLegacy session stack ref).Alike pairing imports imports'
      (enterLegacy session' stack' ref') := by
  obtain ⟨hresult, hsession'⟩ := hsession.attempt (Attempt.alike_startLegacy hall href)
  unfold enterLegacy
  generalize session.attempt (Attempt.startLegacy ref) = ended at hresult hsession'
  generalize session'.attempt (Attempt.startLegacy ref') = ended' at hresult hsession'
  obtain ⟨result, session⟩ := ended
  obtain ⟨result', session'⟩ := ended'
  cases hresult with
  | error error => exact alike_giving hsession' hstack (.error error)
  | ok hprogram =>
      subst hprogram
      exact alike_going hsession' (.cons (.body href _) hstack)

theorem alike_enterEvaluate (specifier : String) (referrer? : Option ModuleId) :
    (enterEvaluate session stack specifier referrer?).Alike pairing imports imports'
      (enterEvaluate session' stack' specifier referrer?) := by
  obtain ⟨hresult, hsession'⟩ :=
    hsession.attempt (Attempt.alike_resolveAndRegister hall specifier referrer?)
  unfold enterEvaluate
  generalize session.attempt (Attempt.resolveAndRegister specifier referrer?) = ended
    at hresult hsession'
  generalize session'.attempt (Attempt.resolveAndRegister specifier referrer?) = ended'
    at hresult hsession'
  obtain ⟨result, session⟩ := ended
  obtain ⟨result', session'⟩ := ended'
  cases hresult with
  | error error => exact alike_giving hsession' hstack (.error error)
  | @ok found found' hfound =>
      obtain ⟨resolved, ref⟩ := found
      obtain ⟨resolved', ref'⟩ := found'
      obtain rfl : resolved = resolved' := hfound.1
      exact alike_enterRun hsession' (.cons (.present resolved.id referrer?) hstack) hall
        resolved.id

theorem alike_enterRequire (specifier : String) (referrer? : Option ModuleId) :
    (enterRequire session stack specifier referrer?).Alike pairing imports imports'
      (enterRequire session' stack' specifier referrer?) := by
  obtain ⟨hresult, hsession'⟩ :=
    hsession.attempt (Attempt.alike_resolveAndRegister hall specifier referrer?)
  unfold enterRequire
  generalize session.attempt (Attempt.resolveAndRegister specifier referrer?) = ended
    at hresult hsession'
  generalize session'.attempt (Attempt.resolveAndRegister specifier referrer?) = ended'
    at hresult hsession'
  obtain ⟨result, session⟩ := ended
  obtain ⟨result', session'⟩ := ended'
  cases hresult with
  | error error => exact alike_giving hsession' hstack (.error error)
  | @ok found found' hfound =>
      obtain ⟨resolved, ref⟩ := found
      obtain ⟨resolved', ref'⟩ := found'
      obtain ⟨hresolved, href⟩ := hfound
      dsimp only at hresolved href
      subst hresolved
      dsimp only
      rcases rel_cases (hsession'.store.record href) with
        ⟨hnone, hnone'⟩ | ⟨record, record', hsome, hsome', hrecord⟩
      · rw [hnone, hnone']
        exact alike_giving hsession' hstack (.error _)
      · rw [hsome, hsome']
        dsimp only
        rw [← hrecord.id, ← hrecord.status, ← hrecord.error]
        rcases rel_cases hrecord.exports with
          ⟨hnone, hnone'⟩ | ⟨exports, exports', hexports, hexports', hsame⟩
        · rw [hnone, hnone']
          exact alike_enterRun hsession' (.cons (.present record.id referrer?) hstack) hall
            record.id
        · rw [hexports, hexports']
          cases record.status with
          | evaluating | evaluated => exact alike_giving hsession' hstack (.ok hsame.value)
          | errored => exact alike_giving hsession' hstack (.error _)
          | unlinked | linking | linked =>
              exact alike_enterLegacy hsession' (.cons (.exported href) hstack) hall href

/-- A command begins alike. -/
theorem alike_enterCommand (command : Command) (save? : Option String) :
    (enterCommand session stack command save?).Alike pairing imports imports'
      (enterCommand session' stack' command save?) := by
  have hanswer := hsession.answer hall command save?
  cases command with
  | evaluate specifier referrer? =>
      exact alike_enterEvaluate hsession
        (.cons (.report (.evaluate specifier referrer?) save?) hstack) hall specifier referrer?
  | require specifier referrer? =>
      exact alike_enterRequire hsession
        (.cons (.report (.require specifier referrer?) save?) hstack) hall specifier referrer?
  | _ => exact alike_done (hanswer.note _ _) hstack

theorem alike_enterModule (id : ModuleId) :
    (enterModule session stack id).Alike pairing imports imports'
      (enterModule session' stack' id) := by
  have hgoing := alike_going hsession hstack
  unfold enterModule
  rcases hsession.store.registered (hall id) with
    ⟨hlookup, hlookup', -, -⟩ | ⟨ref, ref', record, record', href, hrecord, hfound, hfound', -⟩
  · rw [hlookup, hlookup']
    exact hgoing
  · rw [hfound.lookup, hfound'.lookup, hfound.find, hfound'.find]
    dsimp only
    rw [← hrecord.format, ← hrecord.status, ← hrecord.source]
    cases record.format with
    | modern =>
        cases record.status with
        | linked =>
            dsimp only
            cases record.source? with
            | none => exact hgoing
            | some source =>
                exact alike_going (hsession.withStore (hsession.store.setStatus href .evaluating))
                  (.cons (.body href source.body) hstack)
        | unlinked | linking | evaluating | evaluated | errored => exact hgoing
    | legacy =>
        cases record.status with
        | unlinked =>
            obtain ⟨hresult, hsession'⟩ :=
              hsession.attempt (Attempt.alike_startLegacy hall href)
            dsimp only
            generalize session.attempt (Attempt.startLegacy ref) = ended at hresult hsession'
            generalize session'.attempt (Attempt.startLegacy ref') = ended'
              at hresult hsession'
            obtain ⟨result, session⟩ := ended
            obtain ⟨result', session'⟩ := ended'
            cases hresult with
            | error error => exact alike_going (hsession'.note _ _) hstack
            | ok hprogram =>
                subst hprogram
                exact alike_going hsession' (.cons (.body href _) hstack)
        | linking | linked | evaluating | evaluated | errored => exact hgoing

end Covered

end Enter

variable (hall : ∀ id, pairing.covers id)
include hall

/-- An instruction begins alike. -/
theorem alike_enterInstruction {stack stack' : List Frame}
    (hsession : session.Alike pairing imports imports' session')
    (hstack : List.Forall₂ (Frame.Alike pairing) stack stack') {ref ref' : RecordRef}
    (href : pairing.record ref ref') {record record' : Record} (hid : record.id = record'.id)
    (instruction : Instruction) :
    (enterInstruction session stack ref record instruction).Alike pairing imports imports'
      (enterInstruction session' stack' ref' record' instruction) := by
  cases instruction with
  | «attempt» instruction =>
      exact alike_enterInstruction hsession (.cons .attempt hstack) href hid instruction
  | announce => exact alike_done (hsession.note _ _) hstack
  | observe name =>
      exact alike_enterAccess hsession hstack (Scope.alike_read href name)
        (fun session session' value value' _ halike => halike.note _ _)
  | assign name literal =>
      obtain ⟨hvalue, hsession'⟩ := hsession.evaluateLiteral literal
      exact alike_enterAccess hsession' hstack (Scope.alike_write href name hvalue)
        (fun _ _ _ _ _ halike => halike)
  | capture name as_ =>
      exact alike_enterAccess hsession hstack (Scope.alike_capture href name)
        (fun session session' live live' hlive halike =>
          { halike with lives := halike.lives.insert as_ hlive })
  | importLater specifier as_ =>
      refine alike_done { hsession with futures := ?_ } hstack
      dsimp only
      rw [hsession.futures, hid]
  | observeExports =>
      exact alike_enterAccess hsession hstack (Scope.alike_exports href)
        (fun session session' value value' _ halike => halike.note _ _)
  | replaceExports source =>
      have hreplaces : Access.AlikeDeed pairing
          (Scope.read ref source >>= Scope.replaceExports ref)
          (Scope.read ref' source >>= Scope.replaceExports ref') :=
        (Scope.alike_read href source).bind (fun _ _ hvalue =>
          Scope.alike_replaceExports href hvalue)
      exact alike_enterAccess hsession hstack hreplaces (fun _ _ _ _ _ halike => halike)
  | introduce => exact alike_done (hsession.note _ _) hstack
  | perform command save? => exact alike_enterCommand hsession hstack hall command save?
  | statement statement =>
      cases statement with
      | require specifier target? =>
          have hrequires := fun {stack stack' : List Frame}
              (hstack : List.Forall₂ (Frame.Alike pairing) stack stack') =>
            alike_enterRequire hsession hstack hall specifier (some record.id)
          cases target? with
          | none =>
              show (enterRequire session stack specifier (some record.id)).Alike pairing imports
                imports' (enterRequire session' stack' specifier (some record'.id))
              rw [← hid]
              exact hrequires hstack
          | some target =>
              show (enterRequire session (.assign ref target :: stack) specifier
                (some record.id)).Alike pairing imports imports'
                (enterRequire session' (.assign ref' target :: stack') specifier
                  (some record'.id))
              rw [← hid]
              exact hrequires (.cons (.assign href target) hstack)
      | _ =>
          refine alike_enterAccess hsession hstack (Scope.alike_run href _) ?_
          intro session session' logged logged' _ halike
          cases logged <;> cases logged' <;> exact { halike with }

omit hall in
theorem alike_answerCommand (hsession : session.Alike pairing imports imports' session')
    (command : Command) (save? : Option String) {reply reply' : Reply}
    (hreply : Matches (Value.Alike pairing) reply reply') :
    (answerCommand session save? command reply).2.Alike pairing imports imports'
      (answerCommand session' save? command reply').2 := by
  unfold answerCommand
  split
  · exact hsession.answerReply save? hreply
  · exact hsession.answerValue save? hreply

variable {machine machine' : Machine}

/-- A step does the same to both machines. -/
theorem Alike.step (halike : machine.Alike pairing imports imports' machine') :
    machine.step.Alike pairing imports imports' machine'.step := by
  obtain ⟨session, stack, signal⟩ := machine
  obtain ⟨session', stack', signal'⟩ := machine'
  obtain ⟨hsession, hframes, hsignal⟩ := halike
  dsimp only at hsession hframes hsignal
  cases hframes with
  | nil => exact ⟨hsession, .nil, hsignal⟩
  | @cons frame frame' stack stack' hframe hstack =>
      have hpassed : ∀ error : ModuleError, (giving session stack (.error error)).Alike pairing
          imports imports' (giving session' stack' (.error error)) :=
        fun error => alike_giving hsession hstack (.error error)
      have hdone := alike_done hsession hstack
      cases hframe with
      | pass rest =>
          cases rest with
          | nil => exact hdone
          | cons id rest => exact alike_enterModule hsession (.cons (.pass rest) hstack) hall id
      | settle root =>
          rcases hsignal with _ | ⟨hvalue | error⟩
          · exact hdone
          · unfold Machine.step
            dsimp only
            rw [rel_bind_eq (hsession.store.find (hall root)) (fun _ _ hrecord => hrecord.error)]
            cases (session'.store.find? root).bind (·.error?) with
            | none => exact alike_giving hsession hstack (.ok hvalue)
            | some error => exact hpassed error
          · exact hpassed error
      | present id requester? =>
          rcases hsignal with _ | ⟨hvalue | error⟩
          · exact hdone
          · exact alike_giving
              (hsession.withStore (hsession.store.namespace_ (hall id) requester?).2) hstack
              (hsession.store.space (hall id) requester?)
          · exact hpassed error
      | exported href =>
          rcases hsignal with _ | ⟨hvalue | error⟩
          · exact hdone
          · unfold Machine.step
            dsimp only
            rcases rel_cases (hsession.store.record href) with
              ⟨hnone, hnone'⟩ | ⟨record, record', hsome, hsome', hrecord⟩
            · rw [hnone, hnone']
              exact hdone
            · rw [hsome, hsome']
              dsimp only
              rw [← hrecord.error]
              cases record.error? with
              | some error => exact hpassed error
              | none =>
                  refine alike_giving hsession hstack (.ok ?_)
                  rcases rel_cases hrecord.exports with
                    ⟨hnone, hnone'⟩ | ⟨_, _, hexports, hexports', hsame⟩
                  · rw [hnone, hnone']
                    exact .undefined
                  · rw [hexports, hexports']
                    exact hsame.value
          · exact hpassed error
      | @body ref ref' href rest =>
          have hnext (instruction : Instruction) (rest : Program) :
              (Machine.step ⟨session, .body ref (instruction :: rest) :: stack, .go⟩).Alike pairing
                imports imports'
                (Machine.step ⟨session', .body ref' (instruction :: rest) :: stack', .go⟩) := by
            unfold Machine.step
            dsimp only
            rcases rel_cases (hsession.store.record href) with
              ⟨hnone, hnone'⟩ | ⟨record, record', hsome, hsome', hrecord⟩
            · rw [hnone, hnone']
              exact hdone
            · rw [hsome, hsome']
              exact alike_enterInstruction hall hsession (.cons (.body href rest) hstack) href
                hrecord.id instruction
          have hended : (leaveBody session stack ref .done).Alike pairing imports imports'
              (leaveBody session' stack' ref' .done) :=
            alike_leaveBody hsession hstack href (.ok trivial)
          rcases hsignal with _ | ⟨hvalue | error⟩
          · cases rest with
            | nil => exact hended
            | cons instruction rest => exact hnext instruction rest
          · cases rest with
            | nil => exact hended
            | cons instruction rest => exact hnext instruction rest
          · cases rest <;> exact alike_leaveBody hsession hstack href (.error error)
      | assign href name =>
          rcases hsignal with _ | ⟨hvalue | error⟩
          · exact hdone
          · exact alike_enterAccess hsession hstack (Scope.alike_write href name hvalue)
              (fun _ _ _ _ _ halike => halike)
          · exact hpassed error
      | «attempt» =>
          rcases hsignal with _ | ⟨hvalue | error⟩
          · exact hdone
          · exact alike_done (hsession.note _ _) hstack
          · exact alike_done (hsession.note _ _) hstack
      | report command save? =>
          rcases hsignal with _ | ⟨hvalue | error⟩
          · exact hdone
          · exact alike_done
              ((alike_answerCommand hsession command save? (.ok hvalue)).note _ _) hstack
          · exact alike_done
              ((alike_answerCommand hsession command save? (.error error)).note _ _) hstack

end Machine

end Linkage
