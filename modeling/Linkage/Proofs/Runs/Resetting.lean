import Linkage.Proofs.Renaming.Runs
import Linkage.Proofs.Runs.Namespaces
import Linkage.Proofs.Runs.Pipelines

/-!
# Forgetting all modules

An engine that has forgotten its modules and in which no dynamic import is in flight does what a new
one does: it only gives other numbers to what it makes.  A dynamic import that is in flight is not
forgotten, and whoever joins it afterwards finds its module gone.

* `Call`, `Session.calls` : what may be asked of an engine, one after the other.
* `Renaming.behind` : the numbers that an engine gives from now on.
* `Machine.reset_is_new` : no later result tells the engine from a new one.
* `Machine.reset_keeps_imports` : unless a dynamic import is in flight.
-/

namespace Linkage

/-- What may be asked of an engine. -/
inductive Call where
  /-- Resolve a specifier. -/
  | resolve (specifier : String) (referrer? : Option ModuleId)
  /-- Build the graph of an entry. -/
  | graph (specifier : String)
  /-- Load, link and evaluate a module. -/
  | evaluate (specifier : String) (referrer? : Option ModuleId)
  /-- Load a module the way `require` does. -/
  | require (specifier : String) (referrer? : Option ModuleId)
  /-- Import modules dynamically, and wait for all. -/
  | importTogether (requests : List (String × Option ModuleId))
  /-- Start a dynamic import, and do not wait. -/
  | startImport (specifier : String) (referrer? : Option ModuleId)

/-- What it answers. -/
inductive CallResult where
  /-- The module that a specifier names. -/
  | resolved (answer : Except ModuleError Resolved)
  /-- The graph of an entry. -/
  | graph (answer : Except ModuleError Graph)
  /-- Namespaces, exports values or errors. -/
  | replies (given : List Reply)
  /-- How a dynamic import has begun. -/
  | begun (answer : Answer)

/-- The same result under new names. -/
def CallResult.rename (names : Renaming) : CallResult → CallResult
  | resolved answer => resolved answer
  | graph answer => graph answer
  | replies given => replies (given.map (Reply.rename names))
  | begun answer => begun answer

namespace Session

/-- Ask one thing. -/
def call (session : Session) : Call → CallResult × Session
  | .resolve specifier referrer? =>
      let (answer, session) := session.attempt (Attempt.resolve specifier referrer?)
      (.resolved answer, session)
  | .graph specifier =>
      let (answer, session) := session.attempt (Attempt.graphOf specifier)
      (.graph answer, session)
  | .evaluate specifier referrer? =>
      let (reply, session) := session.evaluate specifier referrer?
      (.replies [reply], session)
  | .require specifier referrer? =>
      let (reply, session) := session.require specifier referrer?
      (.replies [reply], session)
  | .importTogether requests =>
      let (given, session) := session.importTogether requests
      (.replies given, session)
  | .startImport specifier referrer? =>
      let (answer, session) := session.startImport specifier referrer?
      (.begun answer, session)

/-- Ask one thing after the other. -/
def calls (session : Session) : List Call → List CallResult × Session
  | [] => ([], session)
  | first :: rest =>
      let (result, session) := session.call first
      let (results, session) := session.calls rest
      (result :: results, session)

/-- A session around an engine in which nothing is kept. -/
def around (engine : Engine) (place : Place) : Session := ⟨engine, place, {}, {}, {}, [], #[]⟩

variable {names : Renaming} {session session' : Session}

theorem Parallels.call (hparallel : session.Parallels names session') (call : Call) :
    (session'.call call).1 = (session.call call).1.rename names ∧
      (session.call call).2.Parallels names (session'.call call).2 := by
  cases call with
  | resolve specifier referrer? =>
      obtain ⟨hresult, hnext⟩ := hparallel.attempt (Attempt.resolve_mirrors specifier referrer?)
      exact ⟨congrArg CallResult.resolved hresult.eq, hnext⟩
  | graph specifier =>
      obtain ⟨hresult, hnext⟩ := hparallel.attempt (Attempt.graphOf_mirrors specifier)
      exact ⟨congrArg CallResult.graph hresult.eq, hnext⟩
  | evaluate specifier referrer? =>
      obtain ⟨hreply, hnext⟩ := hparallel.evaluate specifier referrer?
      exact ⟨congrArg (fun reply => CallResult.replies [reply]) hreply, hnext⟩
  | require specifier referrer? =>
      obtain ⟨hreply, hnext⟩ := hparallel.require specifier referrer?
      exact ⟨congrArg (fun reply => CallResult.replies [reply]) hreply, hnext⟩
  | importTogether requests =>
      obtain ⟨hgiven, hnext⟩ := hparallel.importTogether requests
      exact ⟨congrArg CallResult.replies hgiven, hnext⟩
  | startImport specifier referrer? =>
      obtain ⟨hanswer, hnext⟩ := hparallel.startImport specifier referrer?
      exact ⟨congrArg CallResult.begun hanswer, hnext⟩

theorem Parallels.calls (hparallel : session.Parallels names session') (calls : List Call) :
    (session'.calls calls).1 = (session.calls calls).1.map (CallResult.rename names) ∧
      (session.calls calls).2.Parallels names (session'.calls calls).2 := by
  induction calls generalizing session session' with
  | nil => exact ⟨rfl, hparallel⟩
  | cons first rest ih =>
      obtain ⟨hresult, hnext⟩ := hparallel.call first
      obtain ⟨hresults, hlast⟩ := ih hnext
      refine ⟨?_, hlast⟩
      show (session'.call first).1 :: ((session'.call first).2.calls rest).1 = _
      rw [hresult, hresults]
      rfl

end Session

/-- The numbers that an engine gives from now on, beside those that a new one gives. -/
def Renaming.behind (engine : Engine) : Renaming where
  record ref := ⟨engine.store.records.size + ref.index⟩
  cell ref := ⟨engine.store.cells.size + ref.index⟩
  object ref := ⟨engine.store.heap.size + ref.index⟩
  serial number := engine.store.issued + number
  ticket number := engine.imports.issued + number
  record_injective ref ref' hsame := by
    cases ref
    cases ref'
    simpa using hsame
  cell_injective ref ref' hsame := by
    cases ref
    cases ref'
    simpa using hsame
  object_injective ref ref' hsame := by
    cases ref
    cases ref'
    simpa using hsame
  serial_injective _ _ hsame := Nat.add_left_cancel hsame
  ticket_injective _ _ hsame := Nat.add_left_cancel hsame

/-- A store that has forgotten all modules is a new one but for the numbers it gives. -/
theorem Store.mirrors_clear (engine : Engine) (hopen : engine.store.closed = false) :
    Store.empty.Mirrors (.behind engine) engine.store.clear where
  heap := by
    refine ⟨fun ref => ?_, fun more => ?_⟩
    · show engine.store.heap.objects[engine.store.heap.size + ref.index]? = none
      exact Array.getElem?_eq_none (Nat.le_add_right _ _)
    · show (⟨engine.store.heap.size + (0 + more)⟩ : ObjectRef) = ⟨engine.store.heap.size + more⟩
      rw [Nat.zero_add]
  record ref := by
    show engine.store.records[engine.store.records.size + ref.index]? = none
    exact Array.getElem?_eq_none (Nat.le_add_right _ _)
  cell ref := by
    show engine.store.cells[engine.store.cells.size + ref.index]? = none
    exact Array.getElem?_eq_none (Nat.le_add_right _ _)
  registry := rfl
  namespaces := rfl
  closed := hopen
  freshRecord more := by
    show (⟨engine.store.records.size + (0 + more)⟩ : RecordRef) = ⟨engine.store.records.size + more⟩
    rw [Nat.zero_add]
  freshCell more := by
    show (⟨engine.store.cells.size + (0 + more)⟩ : CellRef) = ⟨engine.store.cells.size + more⟩
    rw [Nat.zero_add]
  freshSerial more := by
    show engine.store.issued + (0 + more) = engine.store.issued + more
    rw [Nat.zero_add]

/-- Dynamic imports that have all ended are as good as none. -/
theorem Imports.Tracks.mirrors {engine : Engine} {unfinished : List Pipeline}
    (htracks : engine.imports.Tracks unfinished) (hnone : engine.imports.pending = 0)
    (hqueue : engine.imports.queue = []) :
    Imports.empty.Mirrors (.behind engine) engine.imports where
  inFlight := by
    have hentries : engine.imports.inFlight.entries = [] := List.length_eq_zero_iff.mp hnone
    exact Table.ext_entries hentries
  queue := hqueue
  outcome ticket := by
    refine List.find?_eq_none.mpr (fun outcome houtcome => ?_)
    have hless := (htracks.ended outcome houtcome).1
    have hmore : engine.imports.issued ≤ (Renaming.behind engine).ticket ticket :=
      Nat.le_add_right _ _
    simp only [decide_eq_true_eq]
    omega
  fresh more := by
    show engine.imports.issued + (0 + more) = engine.imports.issued + more
    rw [Nat.zero_add]

namespace Machine

/-- **An engine that has forgotten its modules answers like a new one if no dynamic import is in
flight.**  Whatever is asked of both, one thing after the other, the results are the same but for
the numbers of records, cells, objects, namespaces and pipelines, and so are the modules
afterwards. -/
theorem reset_is_new (place : Place) (config : Config) {acts : List Act} (hkeeps : .abandon ∉ acts)
    (hnone : ((new place config).perform acts).session.engine.imports.pending = 0) :
    let engine := ((new place config).perform acts).session.engine
    ∃ names : Renaming, ∀ (world : Place) (calls : List Call),
      let reset := (Session.around engine.reset world).calls calls
      let fresh := (Session.around (.new engine.host engine.config) world).calls calls
      reset.1 = fresh.1.map (CallResult.rename names) ∧
        fresh.2.store.Mirrors names reset.2.store := by
  intro engine
  refine ⟨.behind engine, fun world calls => ?_⟩
  obtain ⟨⟨_, _, batched, -, -, -, htracks⟩, -⟩ := tracked_perform place config hkeeps
  have hqueue : engine.imports.queue = [] := (List.append_eq_nil_iff.mp (htracks.eq_nil hnone)).2
  have himports : Imports.empty.Mirrors (.behind engine) engine.imports :=
    htracks.mirrors hnone hqueue
  have hcurrent : engine.store.Current :=
    ((new place config).chain_perform acts).current (living_new place config) ⟨rfl, nofun⟩
  have hparallel : (Session.around (.new engine.host engine.config) world).Parallels
      (.behind engine) (Session.around engine.reset world) :=
    { inner :=
        { engine := ⟨rfl, rfl, fun _ _ => rfl, rfl, Store.mirrors_clear engine hcurrent.used, rfl, rfl⟩
          place := rfl
          slots := rfl
          lives := rfl
          futures := rfl
          waiters_left := rfl
          waiters_right := rfl }
      imports := himports
      waiters := rfl }
  obtain ⟨hresults, hlast⟩ := hparallel.calls calls
  exact ⟨hresults, hlast.inner.store⟩

/-- A module that exports `x`. -/
def lone : Shelf := Shelf.empty.insert "/m.mjs" ((Source.ofBody []).exportLocal "x")

/-- It is imported. -/
def loneImported : List Act :=
  .call (.importNow "/m.mjs" none) none :: List.replicate 12 .step

/-- The module has been imported before; importing it again gives the same as for the first time. -/
theorem reset_is_new_lone :
    let machine := (new (.shelf lone) .standard).perform loneImported
    machine.isDone = true ∧ ∃ names : Renaming,
      ((Session.around machine.session.engine.reset (.shelf lone)).calls
          [.importTogether [("/m.mjs", none)]]).1 =
        ((Session.around (.new machine.session.engine.host machine.session.engine.config)
          (.shelf lone)).calls [.importTogether [("/m.mjs", none)]]).1.map
            (CallResult.rename names) := by
  have hkeeps : .abandon ∉ loneImported := by simp [loneImported]
  have hnone : ((new (.shelf lone) .standard).perform loneImported).session.engine.imports.pending =
      0 := by decide +kernel
  obtain ⟨names, hsame⟩ := reset_is_new (.shelf lone) .standard hkeeps hnone
  exact ⟨by decide +kernel, names, (hsame (.shelf lone) [.importTogether [("/m.mjs", none)]]).1⟩

/-- Whether a result is a namespace or an exports value, and of what length the list is. -/
def succeeds (result : CallResult) : List Bool :=
  match result with
  | .replies given => given.map (·.toBool)
  | _ => []

/-- **A dynamic import that is in flight is not forgotten.**  It has been started and not waited
for; after the modules are forgotten whoever imports the module joins it, and finds that the module
is gone, while a new engine gives its namespace. -/
theorem reset_keeps_imports :
    let machine := (new (.shelf lone) .standard).perform [.call (.startImport "/m.mjs" none) none]
    machine.isDone = true ∧ machine.session.engine.imports.pending = 1 ∧
      ∀ names : Renaming,
        ((Session.around machine.session.engine.reset (.shelf lone)).calls
            [.importTogether [("/m.mjs", none)]]).1 ≠
          ((Session.around (.new machine.session.engine.host machine.session.engine.config)
            (.shelf lone)).calls [.importTogether [("/m.mjs", none)]]).1.map
              (CallResult.rename names) := by
  intro machine
  have hreset : ((Session.around machine.session.engine.reset (.shelf lone)).calls
      [.importTogether [("/m.mjs", none)]]).1.map succeeds = [[false]] := by decide +kernel
  have hfresh : ((Session.around (.new machine.session.engine.host machine.session.engine.config)
      (.shelf lone)).calls [.importTogether [("/m.mjs", none)]]).1.map succeeds = [[true]] := by
    decide +kernel
  refine ⟨by decide +kernel, by decide +kernel, fun names hsame => ?_⟩
  have hkinds : ∀ result : CallResult, succeeds (result.rename names) = succeeds result := by
    intro result
    cases result with
    | replies given =>
        show (given.map (Reply.rename names)).map (·.toBool) = given.map (·.toBool)
        rw [List.map_map]
        refine List.map_congr_left (fun reply _ => ?_)
        cases reply <;> rfl
    | _ => rfl
  have hboth := congrArg (List.map succeeds) hsame
  rw [List.map_map, hreset, show succeeds ∘ CallResult.rename names = succeeds from funext hkinds,
    hfresh] at hboth
  cases hboth

end Machine

end Linkage
