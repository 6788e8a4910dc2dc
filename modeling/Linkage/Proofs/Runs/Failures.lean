import Linkage.Proofs.Runs.Importing
import Linkage.Proofs.Runs.Turns

/-!
# A module that has failed stays so

Once the body of a module has failed, its error is the answer to everything that is asked of the
module: to every read of what it owns, and to everybody who evaluates, requires or imports it.

* `Machine.Refuses`, `Machine.RefusesAtRest` : whoever asks for a module is given an error.
* `Machine.failed_modules_stay_failed` : in every run.
-/

namespace Linkage.Machine

/-- Whoever evaluates or requires a module is given this error, unless modules are forgotten before
they get an answer. -/
structure Refuses (machine : Machine) (id : ModuleId) (error : ModuleError) : Prop where
  evaluate : ∀ specifier referrer? resolved,
    (machine.session.attempt (Attempt.resolve specifier referrer?)).1 = .ok resolved →
    resolved.id = id →
    ∀ stack, (enterEvaluate machine.session stack specifier referrer?).Yields stack (.error error)
  require : ∀ specifier referrer? resolved,
    (machine.session.attempt (Attempt.resolve specifier referrer?)).1 = .ok resolved →
    resolved.id = id →
    ∀ stack, (enterRequire machine.session stack specifier referrer?).Yields stack (.error error)

/-- While there is no other work, whoever evaluates or requires a module does get this error, and so
does whoever imports it, be it among others; one who imports it when no other module is in flight
does come to an end. -/
structure RefusesAtRest (machine : Machine) (id : ModuleId) (error : ModuleError) : Prop where
  evaluate : ∀ specifier referrer? resolved,
    (machine.session.attempt (Attempt.resolve specifier referrer?)).1 = .ok resolved →
    resolved.id = id →
    (enterEvaluate machine.session [] specifier referrer?).Delivers [] (.error error)
  require : ∀ specifier referrer? resolved,
    (machine.session.attempt (Attempt.resolve specifier referrer?)).1 = .ok resolved →
    resolved.id = id →
    (enterRequire machine.session [] specifier referrer?).Delivers [] (.error error)
  among : ∀ before specifier referrer? rest resolved,
    ((machine.session.beginImports before).attempt (Attempt.resolve specifier referrer?)).1 =
      .ok resolved →
    resolved.id = id →
    let begun := importing machine.session (before ++ (specifier, referrer?) :: rest)
    ∀ count, (begun.after count).isDone = true → begun.Remembers count →
      (begun.after count).session.results[machine.session.waiters.length + before.length]? =
        some (.error error)
  alone : ∀ specifier referrer? resolved,
    (machine.session.attempt (Attempt.resolve specifier referrer?)).1 = .ok resolved →
    resolved.id = id →
    (∀ text pipeline, machine.session.engine.imports.inFlight.find? text = some pipeline →
      pipeline.target = id) →
    let begun := importing machine.session [(specifier, referrer?)]
    ∃ count, (begun.after count).isDone = true ∧
      (begun.after count).session.results[machine.session.waiters.length]? = some (.error error)

variable {machine : Machine} {id : ModuleId} {ref : RecordRef} {error : ModuleError}

/-- In the middle of a run the modules are in order too. -/
theorem Denies.of_running (hdenies : machine.Denies id ref error) :
    machine.session.store.Denies id ref error where
  living := ⟨hdenies.living.named, hdenies.living.possible, List.nodup_nil, nofun, nofun⟩
  closed := hdenies.closed
  lookup := hdenies.lookup
  failed := hdenies.failed

theorem Denies.refuses (hdenies : machine.Denies id ref error) : machine.Refuses id error where
  evaluate _ _ _ hresolved hid stack :=
    yields_enterEvaluate hresolved (hid ▸ hdenies.of_running) stack
  require _ _ _ hresolved hid stack :=
    yields_enterRequire hresolved (hid ▸ hdenies.of_running) stack

theorem Denies.refusesAtRest (hdenies : machine.Denies id ref error) (hattends : machine.Attends)
    (htracked : machine.Tracked)
    (himporting : ∀ specifier referrer?,
      (importing machine.session [(specifier, referrer?)]).Attends)
    (hdone : machine.isDone = true) : machine.RefusesAtRest id error := by
  have hstack : machine.stack = [] := List.isEmpty_iff.mp hdone
  have hrests : machine.session.store.Rests :=
    hattends.rests (by simp [running, stage, Session.stage, hstack]) (by simp [due, hstack])
  have hidle : (idle machine.session).Denies id ref error :=
    hdenies.of_touches .refl (by simp [stage, Session.stage, idle, hstack])
  have htracks := htracked.of_isDone hdone
  refine ⟨?_, ?_, ?_, ?_⟩
  · rintro specifier referrer? resolved hresolved rfl
    exact delivers_enterEvaluate hresolved hdenies.of_running hrests []
  · rintro specifier referrer? resolved hresolved rfl
    exact delivers_enterRequire hresolved hdenies.of_running hrests []
  · rintro before specifier referrer? rest resolved hresolved rfl begun count hended hremembers
    exact over_of_import before rest count hidle htracks hresolved (List.isEmpty_iff.mp hended)
      hremembers
  · rintro specifier referrer? resolved hresolved rfl hown begun
    obtain ⟨count, hended, hresult⟩ := ends_import hidle htracks (himporting specifier referrer?)
      hresolved (fun pipeline hmem =>
        hown pipeline.target.text pipeline ((htracks.inFlight _ _).mpr ⟨hmem, rfl⟩))
    exact ⟨count, List.isEmpty_iff.mpr hended, hresult⟩

end Linkage.Machine
