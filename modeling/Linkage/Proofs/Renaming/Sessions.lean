import Linkage.Proofs.Renaming.Accesses
import Linkage.Proofs.Renaming.Attempts

/-!
# Sessions under new names

Two sessions mirror each other under new names if their engines do and what they keep corresponds;
the events noted are not looked at.  Every command that is answered at once does the same to both,
and leaves the dynamic imports and those who wait for them as they are.

* `Session.Mirrors` : the relation.
* `Session.Mirrors.answer` : commands that are answered at once.
-/

namespace Linkage

/-- Two sessions that do not differ but in what things are called, in the events noted, in their
dynamic imports, and in who waits for them. -/
structure Session.Mirrors (names : Renaming) (imports imports' : Imports)
    (waiters waiters' : List Waiter) (session session' : Session) : Prop where
  engine : session.engine.Mirrors names imports imports' session'.engine
  place : session'.place = session.place
  slots : session'.slots = session.slots.map (Value.rename names)
  lives : session'.lives = session.lives.map (LiveBinding.rename names)
  futures : session'.futures = session.futures
  waiters_left : session.waiters = waiters
  waiters_right : session'.waiters = waiters'

/-- Every session mirrors itself. -/
theorem Session.Mirrors.refl (session : Session) :
    session.Mirrors .same session.engine.imports session.engine.imports session.waiters
      session.waiters session where
  engine := .refl session.engine
  place := rfl
  slots := by rw [Value.rename_same, Table.map_id]
  lives := by rw [LiveBinding.rename_same, Table.map_id]
  futures := rfl
  waiters_left := rfl
  waiters_right := rfl

variable {names : Renaming} {imports imports' : Imports} {waiters waiters' : List Waiter}
  {session session' : Session}

namespace Session.Mirrors

/-- What two sessions have in common whose engines have changed alike. -/
theorem withEngine (hmirrors : session.Mirrors names imports imports' waiters waiters' session')
    {engine engine' : Engine} (hengine : engine.Mirrors names imports imports' engine') :
    Session.Mirrors names imports imports' waiters waiters' { session with engine }
      { session' with engine := engine' } :=
  { hmirrors with engine := hengine }

theorem withStore (hmirrors : session.Mirrors names imports imports' waiters waiters' session')
    {store store' : Store} (hstore : store.Mirrors names store') :
    (session.withStore store).Mirrors names imports imports' waiters waiters'
      (session'.withStore store') :=
  hmirrors.withEngine (hmirrors.engine.withStore hstore)

theorem note (hmirrors : session.Mirrors names imports imports' waiters waiters' session')
    (event event' : Event) :
    (session.note event).Mirrors names imports imports' waiters waiters' (session'.note event') :=
  { hmirrors with }

theorem store (hmirrors : session.Mirrors names imports imports' waiters waiters' session') :
    session.store.Mirrors names session'.store := hmirrors.engine.store

theorem keep (hmirrors : session.Mirrors names imports imports' waiters waiters' session')
    (save? : Option String) (value : Value) :
    (session.keep save? value).Mirrors names imports imports' waiters waiters'
      (session'.keep save? (value.rename names)) := by
  cases save? with
  | none => exact hmirrors
  | some slot =>
      refine { hmirrors with slots := ?_ }
      show session'.slots.insert slot (value.rename names) = _
      rw [hmirrors.slots, Table.insert_map]
      rfl

theorem kept (hmirrors : session.Mirrors names imports imports' waiters waiters' session')
    (slot : String) : session'.kept slot = (session.kept slot).rename names := by
  unfold Session.kept
  rw [hmirrors.slots, Table.find?_map]
  cases session.slots.find? slot <;> rfl

theorem access (hmirrors : session.Mirrors names imports imports' waiters waiters' session')
    {α β : Type} {R : α → β → Prop} {action : Access α} {action' : Access β}
    (haction : Access.Mirrors names R action action') :
    Matches R (session.access action).1 (session'.access action').1 ∧
      (session.access action).2.Mirrors names imports imports' waiters waiters'
        (session'.access action').2 :=
  ⟨(haction _ _ hmirrors.store).1, hmirrors.withStore (haction _ _ hmirrors.store).2⟩

theorem attempt (hmirrors : session.Mirrors names imports imports' waiters waiters' session')
    {α β : Type} {R : α → β → Prop} {action : Attempt α} {action' : Attempt β}
    (haction : Attempt.Mirrors names imports imports' R action action') :
    Matches R (session.attempt action).1 (session'.attempt action').1 ∧
      (session.attempt action).2.Mirrors names imports imports' waiters waiters'
        (session'.attempt action').2 :=
  ⟨(haction _ _ hmirrors.engine).1, hmirrors.withEngine (haction _ _ hmirrors.engine).2⟩

theorem evaluateLiteral
    (hmirrors : session.Mirrors names imports imports' waiters waiters' session')
    (literal : Literal) :
    (session'.evaluateLiteral literal).1 = (session.evaluateLiteral literal).1.rename names ∧
      (session.evaluateLiteral literal).2.Mirrors names imports imports' waiters waiters'
        (session'.evaluateLiteral literal).2 := by
  cases literal with
  | undefined | number => exact ⟨rfl, hmirrors⟩
  | kept slot => exact ⟨hmirrors.kept slot, hmirrors⟩
  | json value =>
      obtain ⟨hvalue, hheap⟩ := Value.ofJson_mirrors value hmirrors.store.heap
      exact ⟨hvalue, hmirrors.withStore (hmirrors.store.withHeap hheap)⟩

theorem answerValue (hmirrors : session.Mirrors names imports imports' waiters waiters' session')
    (save? : Option String) {result result' : Except ModuleError Value}
    (hresult : Matches (fun value value' => value' = value.rename names) result result') :
    (session.answerValue save? result).2.Mirrors names imports imports' waiters waiters'
      (session'.answerValue save? result').2 := by
  cases hresult with
  | error error => exact hmirrors
  | @ok value value' hvalue =>
      subst hvalue
      exact hmirrors.keep save? value

theorem showEntries {store store' : Store} (hmirrors : store.Mirrors names store')
    (found : Namespace) :
    (store.showEntries found).2.Mirrors names (store'.showEntries (found.rename names)).2 := by
  have hentries := hmirrors.entriesOf found
  unfold Store.showEntries
  generalize store.entriesOf found = shown at hentries
  generalize store'.entriesOf (found.rename names) = shown' at hentries
  obtain ⟨result, store⟩ := shown
  obtain ⟨result', store'⟩ := shown'
  cases result <;> cases result' <;> exact hentries

theorem spaceText {store store' : Store} (hmirrors : store.Mirrors names store')
    (found : Namespace) :
    (Console.spaceText store found).2.Mirrors names
      (Console.spaceText store' (found.rename names)).2 := by
  have hentries := hmirrors.entriesOf found
  have htext : ∀ (store : Store) (found : Namespace),
      (Console.spaceText store found).2 = (store.entriesOf found).2 := by
    intro store found
    unfold Console.spaceText
    generalize store.entriesOf found = shown
    obtain ⟨result, store'⟩ := shown
    cases result with
    | error error => rfl
    | ok entries => cases entries <;> rfl
  rw [htext, htext]
  exact hentries

theorem answerReply (hmirrors : session.Mirrors names imports imports' waiters waiters' session')
    (save? : Option String) {result result' : Except ModuleError Value}
    (hresult : Matches (fun value value' => value' = value.rename names) result result') :
    (session.answerReply save? result).2.Mirrors names imports imports' waiters waiters'
      (session'.answerReply save? result').2 := by
  have hvalue := hmirrors.answerValue save? hresult
  cases hresult with
  | error error => exact hvalue
  | @ok value value' hsame =>
      subst hsame
      cases value with
      | space found =>
          exact (hmirrors.withStore (showEntries hmirrors.store found)).keep save? (.space found)
      | undefined | null | boolean | number | text | object => exact hvalue

theorem viewSpace (hmirrors : session.Mirrors names imports imports' waiters waiters' session')
    (found : Namespace) (listed : List String) :
    (session.viewSpace found listed).2.Mirrors names imports imports' waiters waiters'
      (session'.viewSpace (found.rename names) listed).2 :=
  hmirrors.withStore (spaceText ((showEntries hmirrors.store found).spaceToJson found) found)

theorem inspectObject
    (hmirrors : session.Mirrors names imports imports' waiters waiters' session')
    (ref : ObjectRef) (key : String) (value? : Option Literal) :
    (session.inspectObject ref key value?).2.Mirrors names imports imports' waiters waiters'
      (session'.inspectObject (names.object ref) key value?).2 := by
  cases value? with
  | none => exact hmirrors
  | some literal =>
      obtain ⟨hvalue, hmirrors'⟩ := hmirrors.evaluateLiteral literal
      unfold Session.inspectObject
      dsimp only
      rw [hvalue]
      exact hmirrors'.withStore (hmirrors'.store.withHeap (hmirrors'.store.heap.set ref key _))

theorem withPlace (hmirrors : session.Mirrors names imports imports' waiters waiters' session')
    (place : Place) : (session.withPlace place).Mirrors names imports imports' waiters waiters'
      (session'.withPlace place) :=
  { hmirrors with
    engine := { hmirrors.engine with host := rfl }
    place := rfl }

/-- Every command that is answered at once does the same to both sessions. -/
theorem answer (hmirrors : session.Mirrors names imports imports' waiters waiters' session')
    (command : Command) (save? : Option String) :
    (session.answer command save?).2.Mirrors names imports imports' waiters waiters'
      (session'.answer command save?).2 := by
  cases command with
  | resolve specifier referrer? => exact (hmirrors.attempt (Attempt.resolve_mirrors _ _)).2
  | graph specifier queries => exact (hmirrors.attempt (Attempt.graphOf_mirrors _)).2
  | space id requester? =>
      exact (hmirrors.withStore (hmirrors.store.namespace_ id requester?).2).answerReply save?
        (.of_map (hmirrors.store.space id requester?))
  | readExport slot name =>
      unfold Session.answer
      dsimp only
      rw [hmirrors.kept]
      cases session.kept slot with
      | space found =>
          obtain ⟨hresult, hstore⟩ := hmirrors.store.readName found name
          exact (hmirrors.withStore hstore).answerValue save? (.of_map hresult)
      | undefined | null | boolean | number | text | object => exact hmirrors
  | viewSpace slot listed =>
      unfold Session.answer
      dsimp only
      rw [hmirrors.kept]
      cases session.kept slot with
      | space found => exact hmirrors.viewSpace found listed
      | undefined | null | boolean | number | text | object => exact hmirrors
  | put literal =>
      obtain ⟨hvalue, hmirrors'⟩ := hmirrors.evaluateLiteral literal
      exact hmirrors'.answerValue save? (.ok hvalue)
  | inspectObject slot key value? =>
      unfold Session.answer
      dsimp only
      rw [hmirrors.kept]
      cases session.kept slot with
      | object ref => exact hmirrors.inspectObject ref key value?
      | undefined | null | boolean | number | text | space => exact hmirrors
  | readLive live =>
      unfold Session.answer
      dsimp only
      rw [hmirrors.lives, Table.find?_map]
      cases session.lives.find? live with
      | none => exact hmirrors
      | some found =>
          obtain ⟨hresult, hmirrors'⟩ := hmirrors.access found.read_mirrors
          exact hmirrors'.answerValue save? hresult
  | writeLive live literal =>
      unfold Session.answer
      dsimp only
      rw [hmirrors.lives, Table.find?_map]
      cases session.lives.find? live with
      | none => exact hmirrors
      | some found =>
          obtain ⟨hvalue, hmirrors'⟩ := hmirrors.evaluateLiteral literal
          dsimp only [Option.map_some]
          rw [hvalue]
          exact (hmirrors'.access (found.write_mirrors _)).2
  | insert path source =>
      unfold Session.answer
      dsimp only
      rw [hmirrors.place]
      cases session.place with
      | shelf found => exact hmirrors.withPlace _
      | files found => exact hmirrors
  | «alias» specifier path =>
      unfold Session.answer
      dsimp only
      rw [hmirrors.place]
      cases session.place with
      | shelf found => exact hmirrors.withPlace _
      | files found => exact hmirrors
  | write written =>
      unfold Session.answer
      dsimp only
      rw [hmirrors.place]
      cases session.place with
      | shelf found => exact hmirrors
      | files found => exact hmirrors.withPlace _
  | remove path =>
      unfold Session.answer
      dsimp only
      rw [hmirrors.place]
      cases session.place with
      | shelf found => exact hmirrors
      | files found => exact hmirrors.withPlace _
  | inspectHost id bare? referrer? fetch =>
      exact hmirrors.withEngine { hmirrors.engine with }
  | reset =>
      exact hmirrors.withEngine { hmirrors.engine with
        remembered := fun _ _ => rfl
        memory := rfl
        store := hmirrors.store.clear }
  | evaluate | require | importNow | importAll | startImport | drive | await | pending | status |
      record | listing | describe | compare | loadCount | assist => exact hmirrors

end Session.Mirrors

end Linkage
