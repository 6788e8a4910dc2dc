import Linkage.Proofs.Alike.Accesses
import Linkage.Proofs.Alike.Attempts

/-!
# Sessions that are alike

Two sessions are alike if their engines are and what they keep is; the events noted, the dynamic
imports and those who wait for them are not compared.  Every command that is answered at once does
the same to both.

* `Session.Alike` : the relation.
* `Session.Alike.answer` : commands that are answered at once.
-/

namespace Linkage

/-- Two sessions that do not differ but in paired numbers, in what is cached, in the events noted, in
their dynamic imports, and in who waits for them. -/
structure Session.Alike (pairing : Pairing) (imports imports' : Imports)
    (session session' : Session) : Prop where
  engine : session.engine.Alike pairing imports imports' session'.engine
  place : session.place = session'.place
  slots : session.slots.Alike (Value.Alike pairing) session'.slots
  lives : session.lives.Alike (LiveBinding.Alike pairing) session'.lives
  futures : session.futures = session'.futures

variable {pairing : Pairing} {imports imports' : Imports} {session session' : Session}

namespace Session.Alike

/-- What two sessions have in common whose engines have changed alike. -/
theorem withEngine (halike : session.Alike pairing imports imports' session')
    {engine engine' : Engine} {imports imports' : Imports}
    (hengine : engine.Alike pairing imports imports' engine') :
    Session.Alike pairing imports imports' { session with engine }
      { session' with engine := engine' } :=
  { halike with engine := hengine }

theorem withStore (halike : session.Alike pairing imports imports' session')
    {store store' : Store} (hstore : store.Alike pairing store') :
    (session.withStore store).Alike pairing imports imports' (session'.withStore store') :=
  halike.withEngine (halike.engine.withStore hstore)

theorem note (halike : session.Alike pairing imports imports' session')
    (event event' : Event) :
    (session.note event).Alike pairing imports imports' (session'.note event') :=
  { halike with }

theorem store (halike : session.Alike pairing imports imports' session') :
    session.store.Alike pairing session'.store := halike.engine.store

/-- What is cached on either side is not compared. -/
theorem cached (halike : session.Alike pairing imports imports' session') {next next' : Store}
    (hnext : session.store.Cached next) (hnext' : session'.store.Cached next') :
    (session.withStore next).Alike pairing imports imports' (session'.withStore next') :=
  halike.withStore (halike.store.cached hnext hnext')

theorem keep (halike : session.Alike pairing imports imports' session')
    (save? : Option String) {value value' : Value} (hvalue : value.Alike pairing value') :
    (session.keep save? value).Alike pairing imports imports' (session'.keep save? value') := by
  cases save? with
  | none => exact halike
  | some slot => exact { halike with slots := halike.slots.insert slot hvalue }

theorem kept (halike : session.Alike pairing imports imports' session') (slot : String) :
    (session.kept slot).Alike pairing (session'.kept slot) := by
  unfold Session.kept
  rcases rel_cases (halike.slots slot) with ⟨hnone, hnone'⟩ | ⟨_, _, hsome, hsome', hvalue⟩
  · rw [hnone, hnone']
    exact .undefined
  · rw [hsome, hsome']
    exact hvalue

theorem access (halike : session.Alike pairing imports imports' session')
    {α β : Type} {R : α → β → Prop} {action : Access α} {action' : Access β}
    (haction : Access.Alike pairing R action action') :
    Matches R (session.access action).1 (session'.access action').1 ∧
      (session.access action).2.Alike pairing imports imports' (session'.access action').2 :=
  ⟨(haction _ _ halike.store).1, halike.withStore (haction _ _ halike.store).2⟩

theorem attempt (halike : session.Alike pairing imports imports' session')
    {α β : Type} {R : α → β → Prop} {action : Attempt α} {action' : Attempt β}
    (haction : Attempt.Alike pairing imports imports' R action action') :
    Matches R (session.attempt action).1 (session'.attempt action').1 ∧
      (session.attempt action).2.Alike pairing imports imports' (session'.attempt action').2 :=
  ⟨(haction _ _ halike.engine).1, halike.withEngine (haction _ _ halike.engine).2⟩

theorem evaluateLiteral (halike : session.Alike pairing imports imports' session')
    (literal : Literal) :
    (session.evaluateLiteral literal).1.Alike pairing (session'.evaluateLiteral literal).1 ∧
      (session.evaluateLiteral literal).2.Alike pairing imports imports'
        (session'.evaluateLiteral literal).2 := by
  cases literal with
  | undefined => exact ⟨.undefined, halike⟩
  | number value => exact ⟨.number value, halike⟩
  | kept slot => exact ⟨halike.kept slot, halike⟩
  | json value =>
      obtain ⟨hvalue, hheap⟩ := Value.alike_ofJson value halike.store.heap
      exact ⟨hvalue, halike.withStore (halike.store.withHeap hheap)⟩

theorem answerValue (halike : session.Alike pairing imports imports' session')
    (save? : Option String) {result result' : Except ModuleError Value}
    (hresult : Matches (Value.Alike pairing) result result') :
    (session.answerValue save? result).2.Alike pairing imports imports'
      (session'.answerValue save? result').2 := by
  cases hresult with
  | error error => exact halike
  | ok hvalue => exact halike.keep save? hvalue

end Session.Alike

theorem Store.cached_showEntries (store : Store) (found : Namespace) :
    store.Cached (store.showEntries found).2 := by
  have hentries := store.cached_entriesOf found
  unfold Store.showEntries
  generalize store.entriesOf found = shown at hentries
  obtain ⟨result, next⟩ := shown
  cases result <;> exact hentries

theorem Store.cached_spaceText (store : Store) (found : Namespace) :
    store.Cached (Console.spaceText store found).2 := by
  have hentries := store.cached_entriesOf found
  unfold Console.spaceText
  generalize store.entriesOf found = shown at hentries
  obtain ⟨result, next⟩ := shown
  cases result with
  | error error => exact hentries
  | ok entries => cases entries <;> exact hentries

namespace Session.Alike

theorem answerReply (halike : session.Alike pairing imports imports' session')
    (save? : Option String) {result result' : Except ModuleError Value}
    (hresult : Matches (Value.Alike pairing) result result') :
    (session.answerReply save? result).2.Alike pairing imports imports'
      (session'.answerReply save? result').2 := by
  have hvalue := halike.answerValue save? hresult
  cases hresult with
  | error error => exact hvalue
  | ok hsame =>
      cases hsame with
      | space hfound =>
          exact (halike.cached (session.store.cached_showEntries _)
            (session'.store.cached_showEntries _)).keep save? (.space hfound)
      | undefined | null | boolean | number | text | object => exact hvalue

theorem viewSpace (halike : session.Alike pairing imports imports' session')
    (found found' : Namespace) (listed : List String) :
    (session.viewSpace found listed).2.Alike pairing imports imports'
      (session'.viewSpace found' listed).2 := by
  have hcached : ∀ (store : Store) (found : Namespace),
      store.Cached (Console.spaceText ((store.showEntries found).2.spaceToJson found).2 found).2 :=
    fun store found => ((store.cached_showEntries found).trans
      (Store.cached_spaceToJson _ found)).trans (Store.cached_spaceText _ found)
  exact halike.cached (hcached _ found) (hcached _ found')

theorem inspectObject (halike : session.Alike pairing imports imports' session')
    {ref ref' : ObjectRef} (href : pairing.object ref ref') (key : String)
    (value? : Option Literal) :
    (session.inspectObject ref key value?).2.Alike pairing imports imports'
      (session'.inspectObject ref' key value?).2 := by
  cases value? with
  | none => exact halike
  | some literal =>
      obtain ⟨hvalue, halike'⟩ := halike.evaluateLiteral literal
      exact halike'.withStore (halike'.store.withHeap (halike'.store.heap.set href key hvalue))

theorem withPlace (halike : session.Alike pairing imports imports' session') (place : Place) :
    (session.withPlace place).Alike pairing imports imports' (session'.withPlace place) :=
  { halike with
    engine := halike.engine.withHost place.toHost
    place := rfl }

/-- Every command that is answered at once does the same to both sessions. -/
theorem answer (hall : ∀ id, pairing.covers id)
    (halike : session.Alike pairing imports imports' session') (command : Command)
    (save? : Option String) :
    (session.answer command save?).2.Alike pairing imports imports'
      (session'.answer command save?).2 := by
  cases command with
  | resolve specifier referrer? => exact (halike.attempt (Attempt.alike_resolve _ _)).2
  | graph specifier queries => exact (halike.attempt (Attempt.alike_graphOf hall _)).2
  | space id requester? =>
      exact (halike.withStore (halike.store.namespace_ (hall id) requester?).2).answerReply save?
        (halike.store.space (hall id) requester?)
  | readExport slot name =>
      have hkept := halike.kept slot
      unfold Session.answer
      dsimp only
      generalize session.kept slot = value at hkept
      generalize session'.kept slot = value' at hkept
      cases hkept with
      | space hfound =>
          obtain ⟨hresult, hstore⟩ := halike.store.readName hfound name
          exact (halike.withStore hstore).answerValue save? hresult
      | undefined | null | boolean | number | text | object => exact halike
  | viewSpace slot listed =>
      have hkept := halike.kept slot
      unfold Session.answer
      dsimp only
      generalize session.kept slot = value at hkept
      generalize session'.kept slot = value' at hkept
      cases hkept with
      | space hfound => exact halike.viewSpace _ _ listed
      | undefined | null | boolean | number | text | object => exact halike
  | put literal =>
      obtain ⟨hvalue, halike'⟩ := halike.evaluateLiteral literal
      exact halike'.answerValue save? (.ok hvalue)
  | inspectObject slot key value? =>
      have hkept := halike.kept slot
      unfold Session.answer
      dsimp only
      generalize session.kept slot = value at hkept
      generalize session'.kept slot = value' at hkept
      cases hkept with
      | object href => exact halike.inspectObject href key value?
      | undefined | null | boolean | number | text | space => exact halike
  | readLive live =>
      unfold Session.answer
      dsimp only
      rcases rel_cases (halike.lives live) with ⟨hnone, hnone'⟩ | ⟨_, _, hsome, hsome', hlive⟩
      · rw [hnone, hnone']
        exact halike
      · rw [hsome, hsome']
        obtain ⟨hresult, halike'⟩ := halike.access (LiveBinding.alike_read hlive)
        exact halike'.answerValue save? hresult
  | writeLive live literal =>
      unfold Session.answer
      dsimp only
      rcases rel_cases (halike.lives live) with ⟨hnone, hnone'⟩ | ⟨_, _, hsome, hsome', hlive⟩
      · rw [hnone, hnone']
        exact halike
      · rw [hsome, hsome']
        obtain ⟨hvalue, halike'⟩ := halike.evaluateLiteral literal
        exact (halike'.access (LiveBinding.alike_write hlive hvalue)).2
  | insert path source =>
      unfold Session.answer
      dsimp only
      rw [← halike.place]
      cases session.place with
      | shelf found => exact halike.withPlace _
      | files found => exact halike
  | «alias» specifier path =>
      unfold Session.answer
      dsimp only
      rw [← halike.place]
      cases session.place with
      | shelf found => exact halike.withPlace _
      | files found => exact halike
  | write written =>
      unfold Session.answer
      dsimp only
      rw [← halike.place]
      cases session.place with
      | shelf found => exact halike
      | files found => exact halike.withPlace _
  | remove path =>
      unfold Session.answer
      dsimp only
      rw [← halike.place]
      cases session.place with
      | shelf found => exact halike
      | files found => exact halike.withPlace _
  | inspectHost id bare? referrer? fetch =>
      exact halike.withEngine (halike.engine.withLoads _ _)
  | reset =>
      exact halike.withEngine { halike.engine with
        remembered := fun _ _ => rfl
        memory := rfl
        store := halike.store.clear }
  | evaluate | require | importNow | importAll | startImport | drive | await | pending | status |
      record | listing | describe | compare | loadCount | assist => exact halike

end Session.Alike

end Linkage
