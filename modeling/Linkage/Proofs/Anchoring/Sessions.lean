import Linkage.Proofs.Alike.Sessions
import Linkage.Proofs.Anchoring.Accesses
import Linkage.Proofs.Engine.Enriching
import Linkage.Proofs.Engine.Pipelines

/-!
# Nothing dangles in a session

What a session keeps refers to what has been made, and so does all that is given on the way: whatever
a command does, the kept values, the kept live bindings and the results of dynamic imports refer to
records, cells and objects that are there.

* `Session.Anchored` : all that a session refers to has been made.
* `Attempt.Anchors` : an attempt that leaves nothing dangling.
* `Session.Anchored.answer` : commands that are answered at once.
* `Session.Anchored.beginImports`, `Engine.anchored_forWaiters` : dynamic imports.
-/

namespace Linkage

/-! ## Attempts -/

/-- To learn something of modules leaves nothing dangling. -/
theorem Store.Learn.anchored {least : Extent} {store store' : Store} (hlearn : store.Learn store')
    (hanchored : store.Anchored least) : store'.Anchored least := by
  cases hlearn with
  | register id format => exact hanchored.getOrCreate id format
  | source _ _ source =>
      exact hanchored.modify_of_same _ (fun _ => rfl) (fun _ => rfl) (fun _ => .inl rfl)
  | analysis _ _ analysis =>
      exact hanchored.modify_of_same _ (fun _ => rfl) (fun _ => rfl) (fun _ => .inl rfl)

theorem Store.Learns.anchored {least : Extent} {store store' : Store}
    (hlearns : store.Learns store') (hanchored : store.Anchored least) : store'.Anchored least := by
  induction hlearns with
  | refl => exact hanchored
  | tail _ hlearn ih => exact hlearn.anchored ih

namespace Attempt

open Engine

/-- However much has been made before, an attempt leaves nothing dangling. -/
def Anchors {α : Type} (action : Attempt α) : Prop :=
  ∀ least, Keeps (fun engine => engine.store.Anchored least) action

variable (least : Extent)

theorem taughtAhead_anchored : TaughtAhead (fun engine => engine.store.Anchored least) := by
  have hlearns {store store' : Store} (hlearns : store.Learns store') :
      store.Anchored least → store'.Anchored least := hlearns.anchored
  exact taughtAhead_of_learns hlearns (fun ref _ hanchored =>
    hanchored.modify_of_same ref (fun _ => rfl) (fun _ => rfl) (fun _ => .inl rfl))

theorem anchors_resolve (specifier : String) (referrer? : Option ModuleId) :
    (resolve specifier referrer?).Anchors := by
  intro least
  refine .of_after (fun engine hanchored => ?_)
  rw [attempt_resolve]
  exact hanchored

theorem anchors_resolveAndRegister (specifier : String) (referrer? : Option ModuleId) :
    (resolveAndRegister specifier referrer?).Anchors :=
  fun least => (taughtAhead_anchored least).register specifier referrer?

theorem anchors_graphOf (specifier : String) : (graphOf specifier).Anchors :=
  fun least => (taughtAhead_anchored least).keeps_graphOf specifier

theorem anchors_prefetch (root : ModuleId) : (prefetch root).Anchors :=
  fun least => (taughtAhead_anchored least).keeps_prefetch root

/-- A change of the store that leaves nothing dangling. -/
theorem anchors_tryStore {α : Type} {f : Store → Except ModuleError α × Store}
    (hkept : ∀ least (store : Store), store.Anchored least → (f store).2.Anchored least) :
    (tryStore f).Anchors :=
  fun least => .of_after (fun engine hanchored => by
    rw [attempt_tryStore]
    exact hkept least engine.store hanchored)

theorem anchors_prepare (root : ModuleId) : (prepare root).Anchors :=
  fun least => (taughtAhead_anchored least).keeps_prepare
    (fun order => anchors_tryStore (fun _ _ hanchored => hanchored.link order) least) root

theorem anchors_startLegacy (ref : RecordRef) : (startLegacy ref).Anchors := by
  intro least
  refine (taughtAhead_anchored least).keeps_startLegacy (fun record => ?_) ?_
  · exact triple_sourceOf_of_learns (fun hlearns => Store.Learns.anchored hlearns) ref record
  · refine .onStore (fun engine hanchored => ?_)
    refine hanchored.modify_of_same ref (fun _ => rfl) (fun record => ?_) (fun _ => .inl rfl)
    rw [Option.map_map]
    rfl

theorem anchors_concludeImport (target : ModuleId) (requester? : Option ModuleId) :
    (concludeImport target requester?).Anchors :=
  fun least => keeps_concludeImport (anchors_tryStore (fun _ store hanchored =>
    hanchored.cached (store.cached_namespace_ target requester?)) least)

end Attempt

/-! ## Sessions -/

/-- The namespace that a dynamic import has given shows a record that has been made. -/
def Wait.Anchored (extent : Extent) : Wait → Prop
  | .over (.ok found) => found.record.Anchored extent
  | _ => True

theorem Wait.Anchored.mono {extent extent' : Extent} {wait : Wait} (hwait : wait.Anchored extent)
    (hle : extent.Le extent') : wait.Anchored extent' := by
  cases wait with
  | turn | pipeline => trivial
  | «over» result =>
      cases result with
      | error error => trivial
      | ok found => exact RecordRef.Anchored.mono hle hwait

/-- All that a session refers to has been made, and at least so much has. -/
structure Session.Anchored (least : Extent) (session : Session) : Prop where
  store : session.store.Anchored least
  slots : ∀ slot value, session.slots.find? slot = some value →
    value.Anchored session.store.extent
  lives : ∀ name live, session.lives.find? name = some live → live.Anchored session.store.extent
  waiters : ∀ waiter ∈ session.waiters, waiter.wait.Anchored session.store.extent

/-- What is given, if anything, refers to what has been made. -/
def Reply.Anchored (extent : Extent) (reply : Reply) : Prop :=
  ∀ value, reply = .ok value → value.Anchored extent

theorem Reply.Anchored.mono {extent extent' : Extent} {reply : Reply} (hreply : reply.Anchored extent)
    (hle : extent.Le extent') : reply.Anchored extent' :=
  fun value hvalue => (hreply value hvalue).mono hle

theorem Reply.anchored_error (extent : Extent) (error : ModuleError) :
    Reply.Anchored extent (.error error) := nofun

theorem Reply.anchored_done (extent : Extent) : Reply.Anchored extent .done := by
  intro value hvalue
  obtain rfl := Except.ok.inj hvalue
  trivial

namespace Session

theorem anchored_new (place : Place) (config : Config) : (new place config).Anchored ⟨0, 0, 0⟩ where
  store := Store.anchored_empty
  slots _ _ hvalue := by cases hvalue
  lives _ _ hlive := by cases hlive
  waiters _ hwaiter := by cases hwaiter

namespace Anchored

variable {least : Extent} {session session' : Session}

theorem weaken {lower : Extent} (hanchored : session.Anchored least) (hle : lower.Le least) :
    session.Anchored lower :=
  { hanchored with store := hanchored.store.weaken hle }

variable (hanchored : session.Anchored least)
include hanchored

/-- All that has been made is there. -/
theorem self : session.Anchored session.store.extent :=
  { hanchored with store := hanchored.store.self }

/-- More has been made, and what is kept is the same. -/
theorem of_grown (hstore : session'.store.Anchored session.store.extent)
    (hslots : session'.slots = session.slots) (hlives : session'.lives = session.lives)
    (hwaiters : session'.waiters = session.waiters) : session'.Anchored least where
  store := hstore.weaken hanchored.store.grown
  slots slot value hvalue := (hanchored.slots slot value (hslots ▸ hvalue)).mono hstore.grown
  lives name live hlive := (hanchored.lives name live (hlives ▸ hlive)).mono hstore.grown
  waiters waiter hwaiter := (hanchored.waiters waiter (hwaiters ▸ hwaiter)).mono hstore.grown

theorem withStore {store : Store} (hstore : store.Anchored session.store.extent) :
    (session.withStore store).Anchored least :=
  hanchored.of_grown hstore rfl rfl rfl

/-- What is cached makes nothing. -/
theorem cached {next : Store} (hcached : session.store.Cached next) :
    (session.withStore next).Anchored least :=
  hanchored.withStore (hanchored.store.self.cached hcached)

theorem attempt {α : Type} {action : Attempt α} (hanchors : action.Anchors) :
    (session.attempt action).2.Anchored least :=
  hanchored.of_grown ((hanchors session.store.extent).after hanchored.store.self) rfl rfl rfl

/-- What a session keeps after an access, and what the access gives. -/
theorem access {α : Type} {action : Access α} {pre : Store → Prop} {R : Extent → α → Prop}
    (haction : Access.Triple pre action
      (fun value store => store.Anchored session.store.extent ∧ R store.extent value)
      (Store.Anchored session.store.extent)) (hpre : pre session.store) :
    (session.access action).2.Anchored least ∧
      ∀ value, (session.access action).1 = .ok value →
        R (session.access action).2.store.extent value := by
  obtain ⟨hgives, hfails⟩ := haction session.store hpre
  unfold Session.access
  generalize session.store.access action = ended at hgives hfails ⊢
  obtain ⟨result, store⟩ := ended
  cases result with
  | error error => exact ⟨hanchored.withStore (hfails error rfl), nofun⟩
  | ok value =>
      obtain ⟨hstore, hvalue⟩ := hgives value rfl
      refine ⟨hanchored.withStore hstore, fun found hfound => ?_⟩
      obtain rfl := Except.ok.inj hfound
      exact hvalue

theorem kept (slot : String) : (session.kept slot).Anchored session.store.extent := by
  unfold Session.kept
  cases hvalue : session.slots.find? slot with
  | none => trivial
  | some value => exact hanchored.slots slot value hvalue

theorem keep (save? : Option String) {value : Value} (hvalue : value.Anchored session.store.extent) :
    (session.keep save? value).Anchored least := by
  cases save? with
  | none => exact hanchored
  | some slot =>
      refine { hanchored with slots := fun other found hfound => ?_ }
      change (session.slots.insert slot value).find? other = some found at hfound
      rw [Table.find?_insert] at hfound
      split at hfound
      · exact Option.some.inj hfound ▸ hvalue
      · exact hanchored.slots other found hfound

theorem evaluateLiteral (literal : Literal) :
    (session.evaluateLiteral literal).2.Anchored least ∧
      (session.evaluateLiteral literal).1.Anchored (session.evaluateLiteral literal).2.store.extent := by
  cases literal with
  | json value =>
      obtain ⟨hkept, hgiven⟩ := hanchored.access (R := Value.Anchored)
        (Scope.anchored_literal value) hanchored.store.self
      exact ⟨hkept, hgiven _ rfl⟩
  | undefined => exact ⟨hanchored, trivial⟩
  | number value => exact ⟨hanchored, trivial⟩
  | kept slot => exact ⟨hanchored, hanchored.kept slot⟩

theorem answerValue (save? : Option String) {result : Except ModuleError Value}
    (hresult : Reply.Anchored session.store.extent result) :
    (session.answerValue save? result).2.Anchored least := by
  cases result with
  | error error => exact hanchored
  | ok value => exact hanchored.keep save? (hresult value rfl)

theorem answerReply (save? : Option String) {result : Except ModuleError Value}
    (hresult : Reply.Anchored session.store.extent result) :
    (session.answerReply save? result).2.Anchored least := by
  have hvalue := hanchored.answerValue save? hresult
  cases result with
  | error error => exact hvalue
  | ok value =>
      cases value with
      | space found =>
          have hcached := session.store.cached_showEntries found
          refine (hanchored.cached hcached).keep save? ?_
          show Value.Anchored (session.store.showEntries found).2.extent (.space found)
          rw [Store.Anchored.extent_of_cached hcached]
          exact hresult _ rfl
      | undefined | null | boolean | number | text | object => exact hvalue

/-- A result that has been found without anything being made. -/
theorem answerReply_cached {next : Store} (hcached : session.store.Cached next)
    (save? : Option String) {result : Except ModuleError Value}
    (hresult : Reply.Anchored session.store.extent result) :
    ((session.withStore next).answerReply save? result).2.Anchored least := by
  refine (hanchored.cached hcached).answerReply save? ?_
  show Reply.Anchored next.extent result
  rw [Store.Anchored.extent_of_cached hcached]
  exact hresult

theorem space (id : ModuleId) (requester? : Option ModuleId) :
    Reply.Anchored session.store.extent ((session.store.namespace_ id requester?).1.map .space) := by
  intro value hvalue
  cases hfound : (session.store.namespace_ id requester?).1 with
  | error error =>
      rw [hfound] at hvalue
      cases hvalue
  | ok found =>
      rw [hfound] at hvalue
      exact Except.ok.inj hvalue ▸ hanchored.store.namespace_ hfound

/-- Modules may come from another place. -/
theorem withPlace (place : Place) : (session.withPlace place).Anchored least :=
  hanchored.of_grown hanchored.store.self rfl rfl rfl

/-- **Commands that are answered at once** leave nothing dangling. -/
theorem answer (command : Command) (save? : Option String) :
    (session.answer command save?).2.Anchored least := by
  cases command with
  | resolve specifier referrer? => exact hanchored.attempt (Attempt.anchors_resolve _ _)
  | graph specifier queries => exact hanchored.attempt (Attempt.anchors_graphOf _)
  | space id requester? =>
      exact hanchored.answerReply_cached (session.store.cached_namespace_ id requester?) save?
        (hanchored.space id requester?)
  | readExport slot name =>
      unfold Session.answer
      dsimp only
      split
      · rename_i found _
        have hcached := session.store.cached_readName found name
        refine (hanchored.cached hcached).answerValue save? ?_
        show Reply.Anchored (session.store.readName found name).2.extent _
        rw [Store.Anchored.extent_of_cached hcached]
        exact fun value hvalue => hanchored.store.readName hvalue
      · exact hanchored
  | viewSpace slot listed =>
      unfold Session.answer
      dsimp only
      split
      · rename_i found _
        exact hanchored.cached (((session.store.cached_showEntries found).trans
          (Store.cached_spaceToJson _ found)).trans (Store.cached_spaceText _ found))
      · exact hanchored
  | put literal =>
      obtain ⟨hkept, hvalue⟩ := hanchored.evaluateLiteral literal
      refine hkept.answerValue save? (fun value hgiven => ?_)
      exact Except.ok.inj hgiven ▸ hvalue
  | inspectObject slot key value? =>
      unfold Session.answer
      dsimp only
      split
      · rename_i ref _
        cases value? with
        | none => exact hanchored
        | some literal =>
            obtain ⟨hkept, hvalue⟩ := hanchored.evaluateLiteral literal
            exact hkept.withStore (hkept.store.self.set ref key hvalue)
      · exact hanchored
  | readLive name =>
      unfold Session.answer
      dsimp only
      cases session.lives.find? name with
      | none => exact hanchored
      | some live =>
          obtain ⟨hkept, hgiven⟩ := hanchored.access (R := Value.Anchored) live.anchored_read
            hanchored.store.self
          exact hkept.answerValue save? hgiven
  | writeLive name literal =>
      unfold Session.answer
      dsimp only
      cases session.lives.find? name with
      | none => exact hanchored
      | some live =>
          obtain ⟨hkept, hvalue⟩ := hanchored.evaluateLiteral literal
          exact (hkept.access (R := fun _ _ => True)
            ((live.anchored_write _).imp (fun _ hpre => hpre) (fun _ _ hstore => ⟨hstore, trivial⟩)
              (fun _ hstore => hstore)) ⟨hkept.store.self, hvalue⟩).1
  | insert path source =>
      unfold Session.answer
      dsimp only
      split
      · exact hanchored.withPlace _
      · exact hanchored
  | «alias» specifier path =>
      unfold Session.answer
      dsimp only
      split
      · exact hanchored.withPlace _
      · exact hanchored
  | write written =>
      unfold Session.answer
      dsimp only
      split
      · exact hanchored.withPlace _
      · exact hanchored
  | remove path =>
      unfold Session.answer
      dsimp only
      split
      · exact hanchored.withPlace _
      · exact hanchored
  | inspectHost id bare? referrer? fetch =>
      exact hanchored.of_grown hanchored.store.self rfl rfl rfl
  | reset => exact hanchored.of_grown hanchored.store.self.clear rfl rfl rfl
  | evaluate | require | importNow | importAll | startImport | drive | await | pending | status |
      record | listing | describe | compare | loadCount | assist => exact hanchored

end Anchored

end Session

/-! ## Dynamic imports -/

namespace Engine

variable {least : Extent} {engine : Engine} {waiter : Waiter}

/-- Something is done for somebody who waits, and nothing dangles. -/
def Serves (f : Engine → Waiter → Waiter × Engine) : Prop :=
  ∀ least engine waiter, engine.store.Anchored least →
    waiter.wait.Anchored engine.store.extent →
    (f engine waiter).2.store.Anchored least ∧
      (f engine waiter).1.wait.Anchored (f engine waiter).2.store.extent

/-- The result of a dynamic import shows a record that is there. -/
theorem triple_anchored_concludeImport (target : ModuleId) (requester? : Option ModuleId) :
    Attempt.Triple (fun engine => engine.store.Anchored least)
      (Attempt.concludeImport target requester?)
      (fun found engine => found.record.Anchored engine.store.extent)
      (fun engine => engine.store.Anchored least) := by
  unfold Attempt.concludeImport
  refine (Attempt.triple_registered target).bind (fun found => ?_)
  dsimp only
  split
  · exact .throw (fun _ hpre => hpre.1)
  · intro engine hpre
    have hcached := engine.store.cached_namespace_ target requester?
    rw [attempt_tryStore]
    refine ⟨fun space hspace => ?_, fun _ _ => hpre.1.cached hcached⟩
    show space.record.Anchored (engine.store.namespace_ target requester?).2.extent
    rw [Store.Anchored.extent_of_cached hcached]
    exact hpre.1.namespace_ hspace

theorem anchored_conclude (hanchored : engine.store.Anchored least) (waiter : Waiter) :
    (engine.conclude waiter).2.store.Anchored least ∧
      (engine.conclude waiter).1.wait.Anchored (engine.conclude waiter).2.store.extent := by
  have hstore := (Attempt.anchors_concludeImport waiter.target waiter.requester? least).after
    hanchored
  obtain ⟨hgives, -⟩ :=
    triple_anchored_concludeImport waiter.target waiter.requester? engine hanchored
  unfold conclude
  generalize engine.attempt (Attempt.concludeImport waiter.target waiter.requester?) = ended
    at hstore hgives
  obtain ⟨result, engine'⟩ := ended
  refine ⟨hstore, ?_⟩
  cases result with
  | error error => trivial
  | ok found => exact hgives found rfl

theorem serves_passTurn : Serves passTurn := by
  intro least engine waiter hanchored hwait
  unfold passTurn
  split
  · exact anchored_conclude hanchored waiter
  · exact ⟨hanchored, hwait⟩

theorem serves_notice : Serves notice := by
  intro least engine waiter hanchored hwait
  unfold notice
  split
  · split
    · exact ⟨hanchored, hwait⟩
    · exact ⟨hanchored, trivial⟩
    · exact anchored_conclude hanchored waiter
  · exact ⟨hanchored, hwait⟩

/-- All who wait are served. -/
theorem anchored_forWaiters {f : Engine → Waiter → Waiter × Engine} (hserves : Serves f)
    (hanchored : engine.store.Anchored least) {waiters : List Waiter}
    (hwaiters : ∀ waiter ∈ waiters, waiter.wait.Anchored engine.store.extent) :
    (engine.forWaiters f waiters).2.store.Anchored least ∧
      ∀ waiter ∈ (engine.forWaiters f waiters).1,
        waiter.wait.Anchored (engine.forWaiters f waiters).2.store.extent := by
  rw [forWaiters_eq]
  -- those who have been served stay so while more is made
  suffices hserved : ∀ done, (∀ waiter ∈ done, waiter.wait.Anchored engine.store.extent) →
      (waiters.foldl (serveOne f) (done, engine)).2.store.Anchored least ∧
        ∀ waiter ∈ (waiters.foldl (serveOne f) (done, engine)).1,
          waiter.wait.Anchored (waiters.foldl (serveOne f) (done, engine)).2.store.extent from
    hserved [] nofun
  induction waiters generalizing engine with
  | nil => exact fun done hdone => ⟨hanchored, hdone⟩
  | cons first rest ih =>
      intro done hdone
      obtain ⟨hstore, hwait⟩ := hserves _ engine first hanchored.self
        (hwaiters first List.mem_cons_self)
      refine ih (hstore.weaken hanchored.grown)
        (fun waiter hwaiter => (hwaiters waiter (List.mem_cons_of_mem _ hwaiter)).mono hstore.grown)
        (done ++ [(f engine first).1]) (fun waiter hwaiter => ?_)
      rcases List.mem_append.mp hwaiter with hbefore | hlast
      · exact (hdone waiter hbefore).mono hstore.grown
      · exact List.mem_singleton.mp hlast ▸ hwait

theorem anchored_prefetchQueue (hanchored : engine.store.Anchored least) :
    engine.prefetchQueue.2.store.Anchored least := by
  rw [prefetchQueue_eq]
  refine List.foldlRecOn
    (motive := fun (found : List Pipeline × Engine) => found.2.store.Anchored least)
    engine.imports.queue _ hanchored (fun found hfound pipeline _ => ?_)
  have hfetched := (Attempt.anchors_prefetch pipeline.target least).after hfound
  unfold prefetchOne
  generalize found.2.attempt (Attempt.prefetch pipeline.target) = ended at hfetched
  obtain ⟨result, engine'⟩ := ended
  cases result <;> exact hfetched

/-- A dynamic import that begins has given no namespace. -/
theorem anchored_beginImport (hanchored : engine.store.Anchored least) (specifier : String)
    (requester? : Option ModuleId) (extent : Extent) :
    (engine.beginImport specifier requester?).2.store.Anchored least ∧
      (engine.beginImport specifier requester?).1.wait.Anchored extent := by
  have hresolved := (Attempt.anchors_resolve specifier requester? least).after hanchored
  rw [beginImport_eq]
  generalize engine.attempt (Attempt.resolve specifier requester?) = ended at hresolved
  obtain ⟨error | resolved, asked⟩ := ended
  · exact ⟨hresolved, trivial⟩
  · have hcreated : (asked.store.getOrCreate resolved.id resolved.format).2.Anchored least :=
      Store.Anchored.getOrCreate hresolved resolved.id resolved.format
    dsimp only
    split
    · exact ⟨hresolved, trivial⟩
    · split
      · exact ⟨hcreated, trivial⟩
      · exact ⟨hcreated, trivial⟩

end Engine

namespace Session.Anchored

variable {least : Extent} {session : Session} (hanchored : session.Anchored least)
include hanchored

theorem beginImports (requests : List (String × Option ModuleId)) :
    (session.beginImports requests).Anchored least := by
  unfold Session.beginImports
  refine List.foldlRecOn (motive := fun (session : Session) => session.Anchored least)
    requests _ hanchored
    (fun session hsession request _ => ?_)
  obtain ⟨hstore, hwait⟩ := Engine.anchored_beginImport hsession.store.self request.1 request.2
    (session.engine.beginImport request.1 request.2).2.store.extent
  refine ⟨hstore.weaken hsession.store.grown, ?_, ?_, fun waiter hwaiter => ?_⟩
  · exact fun slot value hvalue => (hsession.slots slot value hvalue).mono hstore.grown
  · exact fun name live hlive => (hsession.lives name live hlive).mono hstore.grown
  · rcases List.mem_append.mp hwaiter with hbefore | hlast
    · exact (hsession.waiters waiter hbefore).mono hstore.grown
    · exact List.mem_singleton.mp hlast ▸ hwait

end Session.Anchored

end Linkage
