import Linkage.Proofs.Runs.Rebuilding
import Linkage.Proofs.Runs.Spoiling
import Linkage.Proofs.Session.Returning

/-!
# Whoever asks for a module that has failed is given its error

The graph of a module whose body has failed is built and linked again without doing anything.  The
pass over it may still begin bodies that are due, but the run ends with the error of its root.
While there is no other work nothing is due, so the run ends after one step for each module.

* `Store.Denies` : a registered module has failed, among modules in order.
* `Machine.Course.yields` : the pass of a run whose root has failed.
* `Machine.yields_enterEvaluate`, `Machine.yields_enterRequire` : what is given if the run ends.
* `Machine.Delivers`, `Machine.delivers_enterEvaluate`, `Machine.delivers_enterRequire` : the run
  ends if there is no other work.
-/

namespace Linkage

namespace Store

/-- A module has been evaluated or has failed. -/
def HasSettled (store : Store) (id : ModuleId) : Prop :=
  ∃ ref record, store.Registered id ref record ∧ record.status.isSettled = true

/-- Nothing is half way: what has begun has settled, and what is linked has begun, with all it asks
for. -/
structure Rests (store : Store) : Prop where
  served : store.Served []
  settled : ∀ id, store.HasBegun id → store.HasSettled id

variable {store : Store} {root id : ModuleId}

theorem HasSettled.hasBegun (hsettled : store.HasSettled id) : store.HasBegun id := by
  obtain ⟨ref, record, hregistered, hstatus⟩ := hsettled
  exact ⟨ref, record, hregistered, Status.hasBegun_of_isSettled hstatus⟩

/-- Whatever a module leads to has settled if the module has. -/
theorem Rests.settled_of_reached (hrests : store.Rests) (hroot : store.HasSettled root)
    (hreached : Relation.ReflTransGen (store.Edge root) root id) : store.HasSettled id := by
  induction hreached with
  | refl => exact hroot
  | tail _ hedge ih =>
      obtain ⟨ref, record, hregistered, hsettled⟩ := ih
      obtain ⟨_, ⟨_, _, hfound, -, -, rfl⟩, hmem⟩ := hedge
      obtain ⟨rfl, rfl⟩ := hregistered.unique hfound
      unfold Record.dependencies at hmem
      split at hmem
      · rename_i hmodern
        obtain ⟨-, hbegun⟩ := hrests.served _ _ _ hregistered hmodern
          (Status.hasLinked_of_isSettled hsettled)
        exact hrests.settled _ ((hbegun _ hmem).resolve_right List.not_mem_nil)
      · cases hmem

end Store

/-- A specifier that names a registered module registers nothing. -/
theorem Engine.attempt_resolveAndRegister_of_registered {engine : Engine} {specifier : String}
    {referrer? : Option ModuleId} {resolved : Resolved} {ref : RecordRef}
    (hresolved : (engine.attempt (Attempt.resolve specifier referrer?)).1 = .ok resolved)
    (hlookup : engine.store.lookup? resolved.id = some ref) :
    ∃ resolver, engine.attempt (Attempt.resolveAndRegister specifier referrer?) =
      (.ok (resolved, ref), { engine with resolver }) := by
  rw [attempt_resolve] at hresolved
  rw [attempt_resolveAndRegister, attempt_resolve]
  dsimp only at hresolved ⊢
  rw [hresolved]
  dsimp only
  rw [Store.getOrCreate_of_lookup _ hlookup]
  exact ⟨_, rfl⟩

/-- The records are in order, and the body of a registered module has failed. -/
structure Store.Denies (store : Store) (id : ModuleId) (ref : RecordRef) (error : ModuleError) :
    Prop where
  living : Stage.Living ⟨[], [], store⟩
  closed : store.Closed
  lookup : store.lookup? id = some ref
  failed : store.HasFailed ref error

variable {store : Store} {id : ModuleId} {ref : RecordRef} {error : ModuleError}

/-- The record of a module that has failed. -/
theorem Store.Denies.registered (hdenies : store.Denies id ref error) :
    ∃ record, store.Registered id ref record ∧ record.id = id ∧ record.status = .errored ∧
      record.error? = some error := by
  obtain ⟨record, hrecord, herrored, herror, -⟩ := hdenies.failed
  obtain ⟨found, hfound, hid⟩ := hdenies.living.named id ref hdenies.lookup
  obtain rfl := Option.some.inj (hfound.symm.trans hrecord)
  exact ⟨found, ⟨hdenies.lookup, hrecord⟩, hid, herrored, herror⟩

/-- A module that has failed is ready: it was linked before. -/
theorem Store.Denies.ready (hdenies : store.Denies id ref error) : store.Ready id := by
  obtain ⟨record, hregistered, -, herrored, -⟩ := hdenies.registered
  have hlinked : record.status.hasLinked = true := by rw [herrored]; rfl
  exact ⟨ref, record, hregistered,
    ((hdenies.closed.coherent ref record hregistered.record).linked hlinked).analyzed,
    fun _ => hlinked⟩

namespace Machine

variable {machine : Machine} {graph : Graph} {below : List Frame} {session : Session}

/-- If a run comes back, its pass has come back before, and all modules of its graph have begun. -/
theorem Course.settles (hcourse : Course graph below machine) (hliving : machine.stage.Living)
    (hclosed : machine.session.store.Closed)
    (hready : ∀ id ∈ graph.order, machine.session.store.Ready id) {count : Nat}
    (hback : machine.ComesBack below count) (hremembers : machine.Remembers count) :
    ∃ taken ended, machine.Returns (.settle graph.root :: below) taken ended .done ∧
      ∀ id ∈ graph.order, ended.store.HasBegun id := by
  induction count generalizing machine with
  | zero =>
      have hlength := hcourse.suffix.length_le.trans hback.lower
      exact absurd hlength (by simp)
  | succ count ih =>
      cases hcourse with
      | ended hstack hsignal hbegun =>
          refine ⟨0, machine.session, ?_, hbegun⟩
          obtain ⟨session, stack, signal⟩ := machine
          dsimp only at hstack hsignal
          subst hstack hsignal
          exact returns_giving _ _ _
      | among above visited rest hstack horder hbegun =>
          have hhigher : (Frame.settle graph.root :: below).length < machine.stack.length := by
            rw [hstack]
            simp only [List.length_append, List.length_cons]
            omega
          obtain ⟨hreset, hremembers'⟩ := remembers_succ.mp hremembers
          have hchain := machine.chain_step
          have hmarks : .reset ∉ machine.marks .step := hreset
          have hnext := (Course.among above visited rest hstack horder hbegun).act hliving hclosed
            hready hmarks nofun
          -- the pass is not over, so it is not the run that ends with this step
          have hcourse' := hnext.resolve_right (fun hends => by
            rw [hends.1] at hhigher
            exact Nat.lt_irrefl _ hhigher)
          obtain ⟨taken, ended, hreturns, hdone⟩ := ih hcourse' (hchain.living hliving)
            (hchain.closed hliving hclosed) (fun id hid => (hready id hid).advances
              (hchain.advances hliving) (fun ref => hchain.lookup hreset)) hback.step hremembers'
          exact ⟨taken + 1, ended, hreturns.head hhigher hreset rfl, hdone⟩

/-- The pass of a run whose root has failed ends with the error of the root. -/
theorem Course.yields (hcourse : Course graph below machine) (hliving : machine.stage.Living)
    (hclosed : machine.session.store.Closed)
    (hready : ∀ id ∈ graph.order, machine.session.store.Ready id)
    (hlookup : machine.session.store.lookup? graph.root = some ref)
    (hfailed : machine.session.store.HasFailed ref error) :
    machine.Yields below (.error error) := by
  intro count hback hremembers
  obtain ⟨taken, ended, hreturns, -⟩ := hcourse.settles hliving hclosed hready hback hremembers
  have hchain : Chain machine.stage _ (machine.after taken).stage :=
    machine.chain_perform (List.replicate taken .step)
  have hpaused : (machine.after taken).stack = .settle graph.root :: below := by
    rw [hreturns.gives]
    rfl
  obtain ⟨reply, hstep, hreply⟩ := step_settle hpaused (by rw [hreturns.gives]; rfl)
  obtain ⟨record, hrecord, -, herror, -⟩ := hchain.hasFailed hliving hfailed
  have hfound : (machine.after taken).session.store.lookup? graph.root = some ref :=
    hchain.lookup hreturns.remembers hlookup
  have hshown := (hreply error).mpr (by
    rw [Store.find?, hfound, Option.bind_some, show (machine.after taken).session.store.record? ref
      = some record from hrecord, Option.bind_some, herror])
  -- the step after the pass takes the last frame of the run
  have hended : machine.ComesBack below (taken + 1) := by
    refine ⟨?_, fun earlier hearlier => ?_⟩
    · rw [after_succ', hstep]
      exact Nat.le_refl _
    · rcases Nat.lt_succ_iff_lt_or_eq.mp hearlier with hless | rfl
      · exact Nat.lt_of_succ_lt (hreturns.back.higher earlier hless)
      · rw [hpaused]
        exact Nat.lt_succ_self _
  obtain rfl := hended.unique hback
  exact ⟨_, by rw [after_succ', hstep, hshown]⟩

/-- A run of a module that has failed gives its error if it ends. -/
theorem yields_enterRun (hdenies : session.store.Denies id ref error) (stack : List Frame) :
    (enterRun session stack id).Yields stack (.error error) := by
  obtain ⟨graph, rfl, horder, -, hruns⟩ := enterRun_of_ready hdenies.closed hdenies.ready
  have hcourse : Course graph [] ⟨session, [.pass graph.order, .settle graph.root], .go⟩ :=
    .among [] [] graph.order rfl rfl (fun id hid => absurd hid List.not_mem_nil)
  have hyields := hcourse.yields hdenies.living hdenies.closed horder hdenies.lookup hdenies.failed
  rw [hruns stack]
  exact hyields.onto stack

/-- Once the module is found, `evaluate` runs it. -/
theorem enterEvaluate_of_registered {specifier : String} {referrer? : Option ModuleId}
    {resolved : Resolved}
    (hresolved : (session.attempt (Attempt.resolve specifier referrer?)).1 = .ok resolved)
    (hlookup : session.store.lookup? resolved.id = some ref) :
    ∃ session' : Session, session'.store = session.store ∧
      ∀ stack, enterEvaluate session stack specifier referrer? =
        enterRun session' (.present resolved.id referrer? :: stack) resolved.id := by
  obtain ⟨resolver, hfound⟩ :=
    Engine.attempt_resolveAndRegister_of_registered hresolved hlookup
  refine ⟨{ session with engine := { session.engine with resolver } }, rfl, fun stack => ?_⟩
  unfold enterEvaluate Session.attempt
  rw [hfound]

/-- `require` gives the error of a legacy module at once, and runs a modern one. -/
theorem enterRequire_of_denied {specifier : String} {referrer? : Option ModuleId}
    {resolved : Resolved}
    (hresolved : (session.attempt (Attempt.resolve specifier referrer?)).1 = .ok resolved)
    (hdenies : session.store.Denies resolved.id ref error) :
    ∃ session' : Session, session'.store = session.store ∧
      ((∀ stack, enterRequire session stack specifier referrer? =
          giving session' stack (.error error)) ∨
        ∀ stack, enterRequire session stack specifier referrer? =
          enterRun session' (.present resolved.id referrer? :: stack) resolved.id) := by
  obtain ⟨resolver, hfound⟩ :=
    Engine.attempt_resolveAndRegister_of_registered hresolved hdenies.lookup
  obtain ⟨record, hregistered, hid, herrored, herror⟩ := hdenies.registered
  refine ⟨{ session with engine := { session.engine with resolver } }, rfl, ?_⟩
  have hrecord : ({ session with engine := { session.engine with resolver } } :
      Session).store.record? ref = some record := hregistered.record
  unfold enterRequire Session.attempt
  rw [hfound]
  dsimp only
  rw [hrecord]
  dsimp only
  rw [herrored, herror, hid]
  cases record.exports? with
  | none => exact .inr (fun stack => rfl)
  | some exports => exact .inl (fun stack => rfl)

/-- A frame that waits to present the module of a run passes its error on. -/
theorem Yields.presented {requester? : Option ModuleId}
    (hyields : machine.Yields (.present id requester? :: below) (.error error)) :
    machine.Yields below (.error error) :=
  hyields.passed (fun session => ⟨session, rfl⟩)

/-- **Whoever evaluates a module that has failed is given its error.** -/
theorem yields_enterEvaluate {specifier : String} {referrer? : Option ModuleId}
    {resolved : Resolved}
    (hresolved : (session.attempt (Attempt.resolve specifier referrer?)).1 = .ok resolved)
    (hdenies : session.store.Denies resolved.id ref error) (stack : List Frame) :
    (enterEvaluate session stack specifier referrer?).Yields stack (.error error) := by
  obtain ⟨session', hstore, henters⟩ := enterEvaluate_of_registered hresolved hdenies.lookup
  rw [henters stack]
  rw [← hstore] at hdenies
  exact (yields_enterRun hdenies _).presented

/-- **Whoever requires a module that has failed is given its error.** -/
theorem yields_enterRequire {specifier : String} {referrer? : Option ModuleId}
    {resolved : Resolved}
    (hresolved : (session.attempt (Attempt.resolve specifier referrer?)).1 = .ok resolved)
    (hdenies : session.store.Denies resolved.id ref error) (stack : List Frame) :
    (enterRequire session stack specifier referrer?).Yields stack (.error error) := by
  obtain ⟨session', hstore, hgives | henters⟩ := enterRequire_of_denied hresolved hdenies
  · rw [hgives stack]
    exact yields_giving session' stack (.error error)
  · rw [henters stack]
    rw [← hstore] at hdenies
    exact (yields_enterRun hdenies _).presented

/-! ## While there is no other work -/

/-- The machine comes to give this reply to the frames below. -/
def Delivers (machine : Machine) (base : List Frame) (reply : Reply) : Prop :=
  ∃ count session, machine.after count = giving session base reply

/-- A frame that passes a reply on. -/
theorem Delivers.passed {frame : Frame} {base : List Frame} {reply reply' : Reply}
    (hdelivers : machine.Delivers (frame :: base) reply)
    (hpassed : ∀ session, ∃ session',
      (giving session (frame :: base) reply).step = giving session' base reply') :
    machine.Delivers base reply' := by
  obtain ⟨count, session, hgives⟩ := hdelivers
  obtain ⟨session', hstep⟩ := hpassed session
  exact ⟨count + 1, session', by rw [after_succ', hgives, hstep]⟩

/-- A pass goes on after a module whose body has begun. -/
theorem step_pass_of_begun (hbegun : session.store.HasBegun id) (rest : List ModuleId)
    (below : List Frame) :
    step ⟨session, .pass (id :: rest) :: below, .go⟩ = ⟨session, .pass rest :: below, .go⟩ :=
  enterModule_of_begun hbegun (.pass rest :: below)

/-- A pass over modules whose bodies have begun takes one step for each, and changes nothing. -/
theorem returns_pass_of_begun {order : List ModuleId}
    (hbegun : ∀ id ∈ order, session.store.HasBegun id) (below : List Frame) :
    Returns ⟨session, .pass order :: below, .go⟩ below (order.length + 1) session .done := by
  induction order with
  | nil =>
      exact .head (Nat.lt_succ_self _) List.not_mem_nil rfl (returns_giving session below .done)
  | cons id rest ih =>
      have hskips := step_pass_of_begun (hbegun id List.mem_cons_self) rest below
      refine .head (Nat.lt_succ_self _) (session.reset_not_mem_moduleMarks id) hskips ?_
      exact ih (fun other hother => hbegun other (List.mem_cons_of_mem _ hother))

/-- If nothing is half way, a run of a module that has failed ends with its error, and changes
nothing. -/
theorem after_enterRun_of_rests (hdenies : session.store.Denies id ref error)
    (hrests : session.store.Rests) (stack : List Frame) :
    ∃ count, (enterRun session stack id).after count = giving session stack (.error error) := by
  obtain ⟨graph, rfl, -, hbuilt, hruns⟩ := enterRun_of_ready hdenies.closed hdenies.ready
  obtain ⟨record, hregistered, -, herrored, herror⟩ := hdenies.registered
  have hsettled : ∀ id ∈ graph.order, session.store.HasSettled id := by
    obtain ⟨hexplored, -⟩ := Engine.explored_of_buildGraph hbuilt
    intro id hid
    refine hrests.settled_of_reached ⟨ref, record, hregistered, ?_⟩ (hexplored.reached id hid)
    rw [herrored]
    rfl
  rw [hruns stack]
  refine ⟨graph.order.length + 1 + 1, ?_⟩
  rw [after_succ', (returns_pass_of_begun (fun id hid => (hsettled id hid).hasBegun) _).gives]
  have hpaused : (giving session (.settle graph.root :: stack) .done).stack =
      .settle graph.root :: stack := rfl
  obtain ⟨reply, hstep, hreply⟩ := step_settle hpaused rfl
  have hshown : (session.store.find? graph.root).bind (·.error?) = some error := by
    rw [hregistered.find]
    exact herror
  rw [hstep, (hreply error).mpr hshown]
  rfl

theorem delivers_enterRun (hdenies : session.store.Denies id ref error)
    (hrests : session.store.Rests) (stack : List Frame) :
    (enterRun session stack id).Delivers stack (.error error) := by
  obtain ⟨count, hended⟩ := after_enterRun_of_rests hdenies hrests stack
  exact ⟨count, session, hended⟩

/-- If nothing is half way, whoever evaluates a module that has failed is given its error. -/
theorem delivers_enterEvaluate {specifier : String} {referrer? : Option ModuleId}
    {resolved : Resolved}
    (hresolved : (session.attempt (Attempt.resolve specifier referrer?)).1 = .ok resolved)
    (hdenies : session.store.Denies resolved.id ref error) (hrests : session.store.Rests)
    (stack : List Frame) :
    (enterEvaluate session stack specifier referrer?).Delivers stack (.error error) := by
  obtain ⟨session', hstore, henters⟩ := enterEvaluate_of_registered hresolved hdenies.lookup
  rw [henters stack]
  rw [← hstore] at hdenies hrests
  exact (delivers_enterRun hdenies hrests _).passed (fun session => ⟨session, rfl⟩)

/-- If nothing is half way, whoever requires a module that has failed is given its error. -/
theorem delivers_enterRequire {specifier : String} {referrer? : Option ModuleId}
    {resolved : Resolved}
    (hresolved : (session.attempt (Attempt.resolve specifier referrer?)).1 = .ok resolved)
    (hdenies : session.store.Denies resolved.id ref error) (hrests : session.store.Rests)
    (stack : List Frame) :
    (enterRequire session stack specifier referrer?).Delivers stack (.error error) := by
  obtain ⟨session', hstore, hgives | henters⟩ := enterRequire_of_denied hresolved hdenies
  · exact ⟨0, session', hgives stack⟩
  · rw [henters stack]
    rw [← hstore] at hdenies hrests
    exact (delivers_enterRun hdenies hrests _).passed (fun session => ⟨session, rfl⟩)

end Machine

end Linkage
