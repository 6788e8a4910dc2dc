import Linkage.Proofs.Engine.Importing
import Linkage.Proofs.Store.Access
import Linkage.Session.Run

/-!
# What answers do

Reading through namespaces and live bindings, and showing values, change values alone.  So does
every command that is answered at once, except those that resolve, build a graph, change the host or
forget the modules; and none but the last of these does more than touch the store.

* `Engine.Stirs` : only values have changed.
* `Session.stirs_answer`, `Session.touches_answer` : what a command does that is answered at once.
-/

namespace Linkage

namespace Store

variable (store : Store)

theorem stirs_entriesOf (found : Namespace) : store.Stirs (store.entriesOf found).2 := by
  unfold entriesOf
  split
  · exact .refl
  · exact reaches_foldl
      (fun state : List (String × Except ModuleError Value) × Store => state.2)
      (fun state key => state.2.stirs_readName found key) _ ([], store)

theorem stirs_showEntries (found : Namespace) : store.Stirs (store.showEntries found).2 := by
  have hstirs := store.stirs_entriesOf found
  unfold showEntries
  generalize store.entriesOf found = shown at hstirs
  obtain ⟨result, store'⟩ := shown
  cases result <;> exact hstirs

theorem stirs_showSpace (found : Namespace) : store.Stirs (store.showSpace found).2 :=
  store.stirs_showEntries found

theorem stirs_spaceToJson (found : Namespace) : store.Stirs (store.spaceToJson found).2 := by
  have hstirs := store.stirs_entriesOf found
  unfold spaceToJson
  generalize store.entriesOf found = shown at hstirs
  obtain ⟨result, store'⟩ := shown
  cases result <;> exact hstirs

theorem stirs_spaceText (found : Namespace) :
    store.Stirs (Console.spaceText store found).2 := by
  have hstirs := store.stirs_entriesOf found
  unfold Console.spaceText
  generalize store.entriesOf found = shown at hstirs
  obtain ⟨result, store'⟩ := shown
  cases result with
  | error error => exact hstirs
  | ok entries => cases entries <;> exact hstirs

end Store

namespace LiveBinding

theorem stirs_read (live : LiveBinding) (store : Store) :
    store.Stirs (store.access live.read).2 :=
  store.stirs_read live.binding (some live.requester)

theorem stirs_write (live : LiveBinding) (value : Value) (store : Store) :
    store.Stirs (store.access (live.write value)).2 := by
  unfold write
  rw [Store.access_bind, Store.access_get]
  dsimp only
  split
  · split
    · exact .single (.write _ value)
    · exact .refl
  · exact .refl

end LiveBinding

/-- Of an engine only values have changed. -/
structure Engine.Stirs (engine engine' : Engine) : Prop where
  frame : engine' = { engine with store := engine'.store }
  store : engine.store.Stirs engine'.store

namespace Engine.Stirs

variable {engine engine' engine'' : Engine}

theorem refl (engine : Engine) : engine.Stirs engine := ⟨rfl, .refl⟩

theorem trans (hfirst : engine.Stirs engine') (hsecond : engine'.Stirs engine'') :
    engine.Stirs engine'' :=
  ⟨by rw [hsecond.frame, hfirst.frame], hfirst.store.trans hsecond.store⟩

end Engine.Stirs

namespace Session

variable (session : Session)

theorem touches_attempt {α : Type} {action : Attempt α} (hquiet : action.Quiet) :
    session.store.Touches (session.attempt action).2.store :=
  hquiet.touches session.engine

theorem stirs_withStore {store : Store} (hstirs : session.store.Stirs store) :
    session.engine.Stirs (session.withStore store).engine :=
  ⟨rfl, hstirs⟩

theorem stirs_access {α : Type} {action : Access α}
    (hstirs : ∀ store : Store, store.Stirs (store.access action).2) :
    session.engine.Stirs (session.access action).2.engine :=
  session.stirs_withStore (hstirs session.store)

theorem stirs_evaluateLiteral (literal : Literal) :
    session.engine.Stirs (session.evaluateLiteral literal).2.engine := by
  cases literal with
  | json value => exact session.stirs_withStore (.single (.heap _))
  | undefined => exact .refl _
  | number value => exact .refl _
  | kept slot => exact .refl _

@[simp] theorem engine_keep (save? : Option String) (value : Value) :
    (session.keep save? value).engine = session.engine := by
  cases save? <;> rfl

@[simp] theorem engine_answerValue (save? : Option String) (result : Except ModuleError Value) :
    (session.answerValue save? result).2.engine = session.engine := by
  cases result with
  | ok value => exact session.engine_keep save? value
  | error error => rfl

theorem stirs_answerReply (save? : Option String) (result : Except ModuleError Value) :
    session.engine.Stirs (session.answerReply save? result).2.engine := by
  unfold answerReply
  split
  · dsimp only
    rw [engine_keep]
    exact session.stirs_withStore (session.store.stirs_showSpace _)
  · rw [engine_answerValue]
    exact .refl _

theorem stirs_answerCommand (save? : Option String) (command : Command) (reply : Reply) :
    session.engine.Stirs (Machine.answerCommand session save? command reply).2.engine := by
  unfold Machine.answerCommand
  split
  · exact session.stirs_answerReply save? _
  · rw [engine_answerValue]
    exact .refl _

theorem stirs_answerAll (save? : Option String) (replies : List Reply) :
    session.engine.Stirs (session.answerAll save? replies).2.engine := by
  unfold answerAll
  -- each result is shown in turn
  refine List.foldlRecOn (motive := fun (given : List Answer × Session) =>
    session.engine.Stirs given.2.engine) replies _ (.refl _) (fun given hgiven reply _ => ?_)
  exact hgiven.trans (given.2.stirs_answerReply save? reply)

theorem stirs_viewSpace (found : Namespace) (names : List String) :
    session.engine.Stirs (session.viewSpace found names).2.engine :=
  session.stirs_withStore ((session.store.stirs_showEntries found).trans
    ((Store.stirs_spaceToJson _ found).trans (Store.stirs_spaceText _ found)))

theorem stirs_inspectObject (ref : ObjectRef) (key : String) (value? : Option Literal) :
    session.engine.Stirs (session.inspectObject ref key value?).2.engine := by
  cases value? with
  | none => exact .refl _
  | some literal =>
      exact (session.stirs_evaluateLiteral literal).trans
        (stirs_withStore _ (.single (.heap _)))

theorem touches_startImport (specifier : String) (referrer? : Option ModuleId) :
    session.store.Touches (session.startImport specifier referrer?).2.store :=
  session.engine.touches_beginImport specifier referrer?

/-- Several dynamic imports begin one after the other. -/
theorem beginImports_append (first more : List (String × Option ModuleId)) :
    session.beginImports (first ++ more) = (session.beginImports first).beginImports more :=
  List.foldl_append

theorem beginImports_cons (specifier : String) (requester? : Option ModuleId)
    (more : List (String × Option ModuleId)) :
    session.beginImports ((specifier, requester?) :: more) =
      beginImports { session with
        engine := (session.engine.beginImport specifier requester?).2
        waiters := session.waiters ++ [(session.engine.beginImport specifier requester?).1] }
        more := rfl

theorem touches_beginImports (requests : List (String × Option ModuleId)) :
    session.store.Touches (session.beginImports requests).store := by
  unfold beginImports
  refine Store.reaches_foldl (fun session : Session => session.store) ?_ requests session
  intro session request
  exact session.engine.touches_beginImport request.1 request.2

end Session

/-- Whether a command changes where modules come from. -/
def Command.rehosts : Command → Bool
  | .insert _ _ | .alias _ _ | .write _ | .remove _ => true
  | _ => false

/-- Whether a command has the host give sources that nobody keeps. -/
def Command.inspects : Command → Bool
  | .inspectHost _ _ _ _ => true
  | _ => false

namespace Session

variable (session : Session)

/-- A command that is answered at once changes values alone, if it neither resolves nor builds a
graph, nor has the host give sources, nor changes the host, nor forgets the modules. -/
theorem stirs_answer (command : Command) (save? : Option String)
    (hresolve : ∀ specifier referrer?, command ≠ .resolve specifier referrer?)
    (hgraph : ∀ specifier queries, command ≠ .graph specifier queries)
    (hinspects : command.inspects = false) (hreset : command ≠ .reset)
    (hrehosts : command.rehosts = false) :
    session.engine.Stirs (session.answer command save?).2.engine := by
  cases command with
  | resolve specifier referrer? => exact absurd rfl (hresolve specifier referrer?)
  | graph specifier queries => exact absurd rfl (hgraph specifier queries)
  | space id requester? =>
      exact (session.stirs_withStore (.single (.space id requester?))).trans
        (stirs_answerReply _ save? _)
  | readExport slot name =>
      unfold answer
      dsimp only
      split
      · rw [engine_answerValue]
        exact session.stirs_withStore (session.store.stirs_readName _ name)
      · exact .refl _
  | viewSpace slot names =>
      unfold answer
      dsimp only
      split
      · exact session.stirs_viewSpace _ names
      · exact .refl _
  | put literal =>
      unfold answer
      dsimp only
      rw [engine_answerValue]
      exact session.stirs_evaluateLiteral literal
  | inspectObject slot key value? =>
      unfold answer
      dsimp only
      split
      · exact session.stirs_inspectObject _ key value?
      · exact .refl _
  | readLive live =>
      unfold answer
      dsimp only
      split
      · exact .refl _
      · rename_i found _
        rw [engine_answerValue]
        exact session.stirs_access found.stirs_read
  | writeLive live literal =>
      unfold answer
      dsimp only
      split
      · exact .refl _
      · rename_i found _
        have hwritten := (session.evaluateLiteral literal).2.stirs_access
          (found.stirs_write (session.evaluateLiteral literal).1)
        exact (session.stirs_evaluateLiteral literal).trans hwritten
  | insert | «alias» | write | remove => cases hrehosts
  | inspectHost => cases hinspects
  | reset => exact absurd rfl hreset
  | _ => exact .refl _

/-- A command that changes the host changes nothing else of the engine. -/
theorem engine_answer_of_rehosts {command : Command} (save? : Option String)
    (hrehosts : command.rehosts = true) : ∃ host,
      (session.answer command save?).2.engine = { session.engine with host } := by
  cases command with
  | insert path source | «alias» specifier path | write files | remove path =>
      unfold answer
      dsimp only
      split
      · exact ⟨_, rfl⟩
      · exact ⟨session.engine.host, rfl⟩
  | _ => cases hrehosts

/-- Every command that is answered at once only touches the store; only `reset` forgets. -/
theorem touches_answer (command : Command) (save? : Option String) (hreset : command ≠ .reset) :
    session.store.Touches (session.answer command save?).2.store := by
  cases hrehosts : command.rehosts with
  | true =>
      obtain ⟨host, heq⟩ := session.engine_answer_of_rehosts save? hrehosts
      unfold store
      rw [heq]
  | false =>
      cases command with
      | resolve specifier referrer? =>
          exact session.touches_attempt (Attempt.quiet_resolve specifier referrer?)
      | graph specifier queries => exact session.touches_attempt (Attempt.quiet_graphOf specifier)
      | inspectHost => exact .refl
      | _ =>
          exact (session.stirs_answer _ save? (by simp) (by simp) rfl hreset hrehosts).store.touches

end Session

end Linkage
