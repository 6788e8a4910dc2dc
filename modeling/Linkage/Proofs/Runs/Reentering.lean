import Linkage.Proofs.Runs.Ending
import Linkage.Proofs.Runs.Replacing

/-!
# Requiring a module that is running

A legacy module that is required while its body runs gives its exports value as it is then, and
nothing begins.  If the body does not replace the value afterwards, everybody who requires the module
later is given that same value, and what the module adds to its exports it adds to that object.

* `Machine.Gives` : whoever requires a module is given a value at once.
* `Machine.running_module_gives_its_exports` : every run.
-/

namespace Linkage.Machine

/-- Whoever requires a module, with whatever work below, is given this value at once: the answer of
the resolver is remembered, and nothing else happens. -/
def Gives (machine : Machine) (id : ModuleId) (value : Value) : Prop :=
  ∀ specifier referrer? resolved,
    (machine.session.attempt (Attempt.resolve specifier referrer?)).1 = .ok resolved →
    resolved.id = id →
    ∀ stack, ∃ resolver, enterRequire machine.session stack specifier referrer? =
      giving { machine.session with engine := { machine.session.engine with resolver } } stack
        (.ok value)

/-- A legacy module whose body runs or has finished gives its exports value. -/
theorem gives_of_begun {machine : Machine} {id : ModuleId} {ref : RecordRef} {record : Record}
    {exports : Exports} (hregistered : machine.session.store.Registered id ref record)
    (hexports : record.exports? = some exports) (hbegun : record.status.hasBegun = true)
    (herrored : record.status ≠ .errored) : machine.Gives id exports.value := by
  rintro specifier referrer? resolved hresolved rfl stack
  have hlookup : machine.session.engine.store.lookup? resolved.id = some ref := hregistered.lookup
  have hrecord : machine.session.engine.store.record? ref = some record := hregistered.record
  unfold Session.attempt at hresolved
  unfold enterRequire Session.attempt
  rw [Engine.attempt_resolveAndRegister]
  rw [Engine.attempt_resolve] at hresolved ⊢
  refine ⟨(machine.session.engine.resolver.resolve machine.session.engine.config
    machine.session.engine.host specifier referrer?).2, ?_⟩
  dsimp only at hresolved
  rw [hresolved]
  dsimp only
  rw [Store.getOrCreate_of_lookup resolved.format hlookup]
  dsimp only [Session.store]
  rw [hrecord]
  dsimp only
  rw [hexports]
  cases hstatus : record.status with
  | evaluating | evaluated => rfl
  | errored => exact absurd hstatus herrored
  | unlinked | linking | linked => rw [hstatus] at hbegun; cases hbegun

/-- **A legacy module that is required while its body runs gives its exports value as it is then**,
starts no body and changes no status.  Unless the body replaces the value afterwards or fails, the
very same value is given to whoever requires the module in any later state, and what the module adds
to its exports it adds to that object. -/
theorem running_module_gives_its_exports (place : Place) (config : Config) (acts : List Act)
    {id : ModuleId} {ref : RecordRef} {record : Record} {exports : Exports}
    (hregistered : ((new place config).perform acts).session.store.Registered id ref record)
    (hrunning : ref ∈ ((new place config).perform acts).running)
    (hexports : record.exports? = some exports) :
    let machine := (new place config).perform acts
    machine.Gives id exports.value ∧
    ∀ more, .reset ∉ machine.log more →
      (∀ done, done <+: more → ¬ (machine.perform done).Replaces ref) →
      let later := machine.perform more
      ∃ record' exports', later.session.store.Registered id ref record' ∧
        record'.exports? = some exports' ∧ exports'.value = exports.value ∧
        (record'.status ≠ .errored → later.Gives id exports.value) ∧
        ∀ object, exports.value.toObject? = some object → ∀ name given,
          later.session.store.access (Scope.exportProperty ref name given) =
            (.ok ⟨⟩, { later.session.store with
              heap := later.session.store.heap.set object name given }) := by
  intro machine
  have hliving : machine.stage.Living := living_perform place config acts
  obtain ⟨found, hfound, hevaluating⟩ := hliving.record_of_running hrunning
  obtain rfl := Option.some.inj (hregistered.record.symm.trans hfound)
  have hbegun : record.status.hasBegun = true := by rw [hevaluating]; rfl
  refine ⟨gives_of_begun hregistered hexports hbegun (by simp [hevaluating]), ?_⟩
  intro more hreset hspares later
  have hchain := machine.chain_perform more
  have hexposes : machine.session.store.Exposes ref exports.value :=
    ⟨record, hregistered.record, by rw [hexports]; rfl⟩
  obtain ⟨record', hrecord', hvalue⟩ := exposes_perform hexposes hspares
  obtain ⟨exports', hexports', hsame⟩ := Option.map_eq_some_iff.mp hvalue
  have hkept : later.session.store.Registered id ref record' :=
    ⟨hchain.lookup hreset hregistered.lookup, hrecord'⟩
  refine ⟨record', exports', hkept, hexports', hsame, fun herrored => ?_, fun object hobject => ?_⟩
  · obtain ⟨ref', found, hfound, hbegun'⟩ := hchain.hasBegun hliving
      (fun _ _ hlookup => hchain.lookup hreset hlookup) ⟨ref, record, hregistered, hbegun⟩
    obtain ⟨rfl, rfl⟩ := hkept.unique hfound
    exact hsame ▸ gives_of_begun hkept hexports' hbegun' herrored
  · intro name given
    unfold Scope.exportProperty
    rw [Store.access_bind, Scope.access_exports, hrecord', Option.bind_some, hexports']
    dsimp only
    rw [hsame, hobject]
    rfl

/-- Whether a body is about to replace an exports value. -/
def isReplacing (machine : Machine) : Bool :=
  match machine.stack with
  | .body _ (instruction :: _) :: _ => instruction.replacesExports
  | _ => false

/-- The outermost of three bodies is required by the innermost, and again when all have ended. -/
theorem running_module_gives_its_exports_tangle :
    let machine := (new (.shelf tangle) .standard).perform tangleBegun
    let later := machine.perform (List.replicate 12 .step)
    machine.running.length = 3 ∧ later.isDone = true ∧
      ∃ exports : Exports, machine.Gives (.ofPath "/left.cjs") exports.value ∧
        later.Gives (.ofPath "/left.cjs") exports.value := by
  intro machine later
  have hfacts : ((machine.session.store.find? (.ofPath "/left.cjs")).map
      (·.exports?.isSome)) = some true := by decide +kernel
  have hrunning : (machine.session.store.lookup? (.ofPath "/left.cjs")).all
      (· ∈ machine.running) = true := by decide +kernel
  have hended : (later.session.store.find? (.ofPath "/left.cjs")).map (·.status) =
      some .evaluated := by decide +kernel
  have hreset : .reset ∉ machine.log (List.replicate 12 .step) := by decide +kernel
  have hnever : (List.replicate 12 .step).inits.all (fun done =>
      !(machine.perform done).isReplacing) = true := by decide +kernel
  obtain ⟨record, hfind, hsome⟩ := Option.map_eq_some_iff.mp hfacts
  obtain ⟨ref, hregistered⟩ := Store.exists_registered_of_find hfind
  obtain ⟨exports, hexports⟩ := Option.isSome_iff_exists.mp hsome
  rw [hregistered.lookup, Option.all_some, decide_eq_true_eq] at hrunning
  obtain ⟨hgives, hlater⟩ := running_module_gives_its_exports (.shelf tangle) .standard tangleBegun
    hregistered hrunning hexports
  have hspares : ∀ done, done <+: List.replicate 12 .step → ¬ (machine.perform done).Replaces ref := by
    rintro done hdone ⟨_, instruction, _, _, hnext, hreplaces⟩
    have hspared := List.all_eq_true.mp hnever done ((List.mem_inits done _).mpr hdone)
    rw [isReplacing, hnext.stack] at hspared
    simp [hreplaces] at hspared
  obtain ⟨record', -, hregistered', -, -, hgives', -⟩ := hlater _ hreset hspares
  refine ⟨by decide +kernel, by decide +kernel, exports, hgives, hgives' (fun herrored => ?_)⟩
  rw [show later.session.store.find? (.ofPath "/left.cjs") = some record' from hregistered'.find,
    Option.map_some, herrored] at hended
  cases hended

end Linkage.Machine
