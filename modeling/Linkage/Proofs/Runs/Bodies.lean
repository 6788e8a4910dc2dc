import Linkage.Proofs.Alike.Accesses
import Linkage.Proofs.Runs.Changes
import Linkage.Proofs.Store.Outgrowing

/-!
# Bodies that run as one

A body of statements of which none requires another module comes to its end before anything else
happens.  So it is one access, and what it makes of a store is a function of the store.

* `Scope.runAll`, `Store.ran` : such a body, and the store in which it has ended.
* `Store.Ran`, `ran_of_grounded` : what it has changed.
* `Record.Startable`, `chain_ran` : it is a chain of changes.
* `Store.Alike.ran` : it does the same to stores that are alike.
-/

namespace Linkage

namespace Scope

/-- Run statements one after the other, up to one that fails. -/
def runAll (ref : RecordRef) : List Statement → Access Unit
  | [] => return ()
  | statement :: rest => do
      let _ ← run ref statement
      runAll ref rest

variable {ref : RecordRef}

theorem access_runAll_cons (store : Store) (statement : Statement) (rest : List Statement) :
    store.access (runAll ref (statement :: rest)) = match store.access (run ref statement) with
      | (.ok _, store) => store.access (runAll ref rest)
      | (.error error, store) => (.error error, store) := by
  rw [runAll, Store.access_bind]
  generalize store.access (run ref statement) = ended
  obtain ⟨result, last⟩ := ended
  cases result <;> rfl

theorem within_runAll (statements : List Statement) : Access.Within ref (runAll ref statements) := by
  induction statements with
  | nil => exact .pure ()
  | cons statement rest ih => exact (within_run ref statement).bind (fun _ => ih)

theorem outgrows_runAll {base : Store} (statements : List Statement) :
    Access.Triple (base.Outgrows ref) (runAll ref statements) (fun _ => base.Outgrows ref)
      (base.Outgrows ref) := by
  induction statements with
  | nil => exact .pure (fun _ houtgrows => houtgrows)
  | cons statement rest ih => exact (outgrows_run statement).bind (fun _ => ih)

theorem alike_runAll {pairing : Pairing} {ref' : RecordRef} (href : pairing.record ref ref')
    (statements : List Statement) :
    Access.Alike pairing (fun _ _ => True) (runAll ref statements) (runAll ref' statements) := by
  induction statements with
  | nil => exact .pure trivial
  | cons statement rest ih => exact (alike_run href statement).bind (fun _ _ _ => ih)

theorem stays_runAll (statements : List Statement) {store : Store} {record : Record}
    (hrecord : store.record? ref = some record) :
    store.StaysInside ref record.id (store.access (runAll ref statements)).2 := by
  induction statements generalizing store record with
  | nil => exact (Store.SameSlots.refl store).staysInside ref record.id
  | cons statement rest ih =>
      have hfirst := (bounded_run statement store record hrecord rfl).1
      rw [access_runAll_cons]
      generalize store.access (run ref statement) = ended at hfirst
      obtain ⟨result, store'⟩ := ended
      cases result with
      | error error => exact hfirst
      | ok value =>
          obtain ⟨environment, exports?, hrecord', -⟩ := hfirst.own record hrecord
          have hrest := ih hrecord'
          exact hfirst.trans hrest

end Scope

/-- A record after its body has come to an end. -/
def Record.ended (result : Except ModuleError Unit) (record : Record) : Record :=
  match result with
  | .ok _ => { record with status := .evaluated }
  | .error error => record.fail (.evaluation record.id error)

theorem Record.isSettled_ended (result : Except ModuleError Unit) (record : Record) :
    (record.ended result).status.isSettled = true := by
  cases result <;> rfl

/-- What is kept of a record when its body begins and when it ends. -/
structure Record.Retains (record record' : Record) : Prop where
  id : record'.id = record.id
  source : record'.source? = record.source?
  analysis : record'.analysis? = record.analysis?
  format : record'.format = record.format
  environment : record'.environment = record.environment
  exports : record'.exports?.map (·.value) = record.exports?.map (·.value)

theorem Record.retains_begin (record : Record) : record.Retains record.begin := by
  refine ⟨rfl, rfl, rfl, ?_, rfl, ?_⟩
  · unfold Record.format Record.begin
    rw [Option.isSome_map]
  · unfold Record.begin
    rw [Option.map_map]
    rfl

theorem Record.retains_ended (result : Except ModuleError Unit) (record : Record) :
    record.Retains (record.ended result) := by
  cases result <;> exact ⟨rfl, rfl, rfl, rfl, rfl, rfl⟩

namespace Store

/-- The store in which the body of a record has ended. -/
def ran (store : Store) (ref : RecordRef) (statements : List Statement) : Store :=
  let (result, store) := (store.modify ref Record.begin).access (Scope.runAll ref statements)
  store.modify ref (Record.ended result)

variable {store store' base : Store} {ref : RecordRef} {record : Record}
  {statements : List Statement}

/-- The body of a record has run: it has changed nothing of the other modules. -/
structure Ran (store : Store) (ref : RecordRef) (record : Record) (store' : Store) : Prop where
  other : ∀ other, other ≠ ref → store'.record? other = store.record? other
  own : ∃ record', store'.record? ref = some record' ∧ record'.id = record.id ∧
    record'.source? = record.source? ∧ record'.analysis? = record.analysis? ∧
    record'.format = record.format ∧ record'.status.isSettled = true ∧
    ∀ name binding, record.environment.find? name = some binding →
      record'.environment.find? name = some binding
  cell : ∀ cell found, store.cell? cell = some found → ∃ value?,
    store'.cell? cell = some { found with value? } ∧
      (found.owner ≠ record.id → value? = found.value?)
  registry : store'.registry = store.registry
  outgrows : store.Outgrows ref store'

/-- Changing what a body does not care for. -/
theorem Outgrows.retain (houtgrows : base.Outgrows ref store) {f : Record → Record}
    (hretains : ∀ record : Record, record.Retains (f record)) : base.Outgrows ref (store.modify ref f) := by
  obtain ⟨record, hrecord⟩ := Option.isSome_iff_exists.mp houtgrows.present
  have hrecord' := record?_modify_self f hrecord
  have hkept := hretains record
  have hbinding : ∀ name, (store.modify ref f).binding? ref name = store.binding? ref name := by
    intro name
    unfold binding?
    rw [hrecord', hrecord, Option.bind_some, Option.bind_some, hkept.environment]
  have hexposed : (store.modify ref f).exposed? ref = store.exposed? ref := by
    have hexports : ∀ exports? : Option Exports, exports?.bind (·.value.toObject?) =
        (exports?.map (·.value)).bind Value.toObject? := fun exports? => by cases exports? <;> rfl
    unfold exposed?
    rw [hrecord', hrecord, Option.bind_some, Option.bind_some, hexports, hexports, hkept.exports]
  refine ⟨?_, houtgrows.upright.modify ref (fun record => (hretains record).id), houtgrows.size,
    houtgrows.cells, houtgrows.object, ?_, ?_, ?_, ?_⟩
  · refine houtgrows.grounded.mono houtgrows.grounded.heap (Nat.le_refl _) (fun _ hshown => hshown)
      (fun _ cell _ hfound hvalue => .inr ⟨cell, hfound, hvalue⟩)
      (fun other found exports hfound hexports => .inr ?_)
    rw [record?_modify] at hfound
    split at hfound
    · obtain ⟨before, hbefore, rfl⟩ := Option.map_eq_some_iff.mp hfound
      have hvalue := (hretains before).exports
      rw [hexports] at hvalue
      obtain ⟨exports', hexports', hsame⟩ := Option.map_eq_some_iff.mp hvalue.symm
      exact ⟨before, exports', hbefore, hexports', hsame⟩
    · exact ⟨found, exports, hfound, hexports, rfl⟩
  · rw [hexposed]
    exact houtgrows.exposed
  · rw [hrecord']
    rfl
  · intro cell found hfound hsize
    obtain ⟨hfrom, howner, hbound⟩ := houtgrows.declared cell found hfound hsize
    rw [hrecord] at howner
    rw [hrecord', hbinding]
    exact ⟨hfrom, howner.trans (congrArg some hkept.id.symm), hbound⟩
  · intro name binding hbound
    exact houtgrows.bound name binding (hbinding name ▸ hbound)

theorem ran_of_grounded (hgrounded : store.Grounded) (hupright : store.Upright)
    (hrecord : store.record? ref = some record) (statements : List Statement) :
    store.Ran ref record (store.ran ref statements) := by
  have hbegun := record?_modify_self Record.begin hrecord
  have hstays := Scope.stays_runAll statements hbegun
  have houtgrows : store.Outgrows ref (store.modify ref Record.begin) :=
    Outgrows.retain (.refl hgrounded hupright (by rw [hrecord]; rfl)) Record.retains_begin
  obtain ⟨hok, herror⟩ := Scope.outgrows_runAll statements _ houtgrows
  unfold ran
  generalize (store.modify ref Record.begin).access (Scope.runAll ref statements) = ended
    at hstays hok herror
  obtain ⟨result, last⟩ := ended
  obtain ⟨environment, exports?, hlast, hstarted, hbound⟩ := hstays.own _ hbegun
  have hended := record?_modify_self (Record.ended result) hlast
  have hkept := Record.retains_ended result { record.begin with environment, exports? }
  refine ⟨fun other hother => ?_, ⟨_, hended, hkept.id, hkept.source, hkept.analysis, ?_,
    Record.isSettled_ended result _, ?_⟩, hstays.cell, hstays.registry, ?_⟩
  · rw [record?_modify_ne hother, hstays.other other hother, record?_modify_ne hother]
  · have hsome : exports?.isSome = record.begin.exports?.isSome := by
      rw [← Option.isSome_map (f := fun exports : Exports => exports.started), hstarted,
        Option.isSome_map]
    rw [hkept.format, ← record.retains_begin.format]
    unfold Record.format
    rw [hsome]
  · rw [hkept.environment]
    exact hbound
  · refine Outgrows.retain ?_ (Record.retains_ended result)
    cases result with
    | ok value => exact hok value rfl
    | error error => exact herror error rfl

/-! ### Stores that are alike -/

variable {pairing : Pairing} {ref' : RecordRef}

/-- A body does the same to stores that are alike. -/
theorem Alike.ran (halike : store.Alike pairing store') (href : pairing.record ref ref')
    (statements : List Statement) :
    (store.ran ref statements).Alike pairing (store'.ran ref' statements) := by
  have hbegun : (store.modify ref Record.begin).Alike pairing (store'.modify ref' Record.begin) := by
    refine halike.modify href (fun record record' hrecord => ?_) (fun _ => rfl) (fun _ => rfl)
    exact { hrecord with
      status := rfl
      exports := rel_map hrecord.exports (fun _ _ hexports => ⟨hexports.value, rfl⟩) }
  obtain ⟨hresult, hlast⟩ := Scope.alike_runAll href statements _ _ hbegun
  unfold Store.ran
  generalize (store.modify ref Record.begin).access (Scope.runAll ref statements) = ended
    at hresult hlast
  generalize (store'.modify ref' Record.begin).access (Scope.runAll ref' statements) = ended'
    at hresult hlast
  obtain ⟨result, last⟩ := ended
  obtain ⟨result', last'⟩ := ended'
  have hid : ∀ (result : Except ModuleError Unit) (record : Record),
      (record.ended result).id = record.id :=
    fun result record => (record.retains_ended result).id
  refine hlast.modify href (fun record record' hrecord => ?_) (hid result) (hid result')
  cases hresult with
  | ok => exact { hrecord with status := rfl }
  | error error =>
      have herror : ModuleError.evaluation record.id error = .evaluation record'.id error := by
        rw [hrecord.id]
      exact { hrecord with
        status := rfl
        error := congrArg some herror
        poison := by
          show some (record.poison?.getD _) = some (record'.poison?.getD _)
          rw [hrecord.poison, herror] }

end Store

/-! ## A body is a chain of changes -/

/-- The body of a record may begin: it is linked, or it is a legacy one that has been analyzed, and
its body consists of these statements. -/
structure Record.Startable (record : Record) (statements : List Statement) : Prop where
  analyzed : record.analysis?.isSome
  source : ∃ source, record.source? = some source ∧
    source.body = statements.map Instruction.statement
  status : record.status = match record.format with
    | .modern => .linked
    | .legacy => .unlinked

/-- A modern module has no exports value. -/
theorem Record.exports?_of_modern {record : Record} (hmodern : record.format = .modern) :
    record.exports? = none := by
  unfold Record.format at hmodern
  split at hmodern
  · cases hmodern
  · exact Option.not_isSome_iff_eq_none.mp ‹_›

/-- A modern module has no exports value to be started. -/
theorem Store.modify_begin_of_modern {store : Store} {ref : RecordRef} {record : Record}
    (hrecord : store.record? ref = some record) (hmodern : record.format = .modern) :
    store.modify ref Record.begin = store.setStatus ref .evaluating := by
  refine modify_congr (fun found hfound => ?_)
  obtain rfl := Option.some.inj (hrecord.symm.trans hfound)
  have hnone := Record.exports?_of_modern hmodern
  unfold Record.begin
  rw [hnone, Option.map_none, ← hnone]

theorem Store.chain_ran {store : Store} {ref : RecordRef} {record : Record}
    {statements : List Statement} (hrecord : store.record? ref = some record)
    (hstartable : record.Startable statements) :
    ∃ marks, .reset ∉ marks ∧
      Chain ⟨[], [], store⟩ marks ⟨[], [], store.ran ref statements⟩ := by
  obtain ⟨source, hsource, -⟩ := hstartable.source
  have hbegin : Chain ⟨[], [], store⟩ [.status ref .evaluating]
      ⟨[ref], [], store.modify ref Record.begin⟩ := by
    have hstatus := hstartable.status
    cases hformat : record.format with
    | modern =>
        rw [modify_begin_of_modern hrecord hformat]
        refine .single (.beginModern hrecord hformat ?_ (by rw [hsource]; rfl))
        rw [hstatus, hformat]
    | legacy =>
        rw [hformat] at hstatus
        exact .single (.beginLegacy hrecord hformat (by simp [hstatus])
          (by rw [hstatus]; rfl) hstartable.analyzed (by rw [hsource]; rfl))
  have hwithin : Access.Within ref (Scope.runAll ref statements) := Scope.within_runAll statements
  have hworks := hwithin (store.modify ref Record.begin)
  unfold Store.ran
  generalize (store.modify ref Record.begin).access (Scope.runAll ref statements) = ended at hworks
  obtain ⟨result, last⟩ := ended
  have hbody := hbegin.trans_quiet (.of_works (.inl List.mem_cons_self) hworks)
  cases result with
  | ok value => exact ⟨_, by simp, hbody.trans (.single .finish)⟩
  | error error => exact ⟨_, by simp, hbody.trans (.single (.fail error))⟩

end Linkage
