import Linkage.Proofs.Scheduling.Dropping
import Linkage.Proofs.Scheduling.Sharing

/-!
# What dynamic imports guarantee

Whatever is started, polled, dropped and called, and in whatever order, the dynamic imports keep
their promises as long as the modules are not reset.

* `Runtime.Promises` : what holds of a runtime at any time.
* `Runtime.imports_run_side_by_side` : it does, and the turns of callers do not matter.
-/

namespace Linkage

namespace Runtime

/-- What holds of the dynamic imports at any time. -/
structure Promises (runtime : Runtime) : Prop where
  /-- In flight are the pipelines that have been spawned and are not finished. -/
  inFlight : ∀ text pipeline, runtime.imports.inFlight.find? text = some pipeline ↔
    pipeline ∈ runtime.unfinished ∧ pipeline.target.text = text
  /-- Each is counted once. -/
  pending : runtime.imports.pending = runtime.unfinished.length
  /-- No two are of one module. -/
  single : (runtime.unfinished.map (·.target)).Nodup
  /-- A dynamic import whose specifier resolves is pending after its first poll. -/
  pends : ∀ specifier requester? resolved,
    (runtime.machine.session.engine.attempt (Attempt.resolve specifier requester?)).1 =
      .ok resolved → ∃ caller,
        (runtime.start specifier requester?).callers = runtime.callers ++ [caller] ∧
        caller.waiter.target = resolved.id ∧ ∀ result, caller.waiter.wait ≠ .over result
  /-- A pipeline is spawned only for a module that has not settled. -/
  spawns : ∀ turn, ∀ pipeline ∈ (runtime.take turn).spawned, pipeline ∉ runtime.spawned →
    ∃ ref record, (runtime.take turn).store.Registered pipeline.target ref record ∧
      record.status ≠ .evaluated ∧ record.status ≠ .errored
  /-- Whoever has joined a pipeline is given its outcome. -/
  shares : ∀ caller ∈ runtime.callers, ∀ ticket result, caller.joined? = some ticket →
    caller.waiter.wait = .over result → ∃ outcome, runtime.imports.outcome? ticket = some outcome ∧
      ∀ error, result = .error error ↔ outcome.error? = some error
  /-- It is given when the caller is polled, unless nobody is interested any more. -/
  tells : ∀ place caller ticket outcome, runtime.callers[place]? = some caller →
    caller.dropped = false → caller.joined? = some ticket →
    runtime.imports.outcome? ticket = some outcome → ∃ caller' result,
      (runtime.poll place).callers[place]? = some caller' ∧ caller'.waiter.wait = .over result ∧
        ∀ error, result = .error error ↔ outcome.error? = some error
  /-- Once all pipelines are finished none is in flight, and their targets have settled, or are
  unlinked again, which happens only if fetching, building or linking has failed. -/
  settles : runtime.unfinished = [] → runtime.imports.pending = 0 ∧ ∀ job ∈ runtime.jobs,
    ∃ ref record, runtime.store.Registered job.pipeline.target ref record ∧
      (record.status = .evaluated ∨ record.status = .errored ∨ job.isBroken = true) ∧
      (runtime.machine.isDone = true →
        record.status = .evaluated ∨ record.status = .errored ∨ record.status = .unlinked)

variable {runtime : Runtime}

theorem Sound.pends (hsound : runtime.Sound) {specifier : String} {requester? : Option ModuleId}
    {resolved : Resolved} (hresolved : (runtime.machine.session.engine.attempt
      (Attempt.resolve specifier requester?)).1 = .ok resolved) : ∃ caller,
        (runtime.start specifier requester?).callers = runtime.callers ++ [caller] ∧
        caller.waiter.target = resolved.id ∧ ∀ result, caller.waiter.wait ≠ .over result := by
  have hbegins := hsound.tracked.begins specifier requester?
  rw [hresolved] at hbegins
  generalize runtime.start specifier requester? = runtime' at hbegins
  cases hbegins with
  | joins | waits | spawns => exact ⟨_, rfl, rfl, nofun⟩

theorem Sound.spawns (hsound : runtime.Sound) {turn : Turn} {pipeline : Pipeline}
    (hmem : pipeline ∈ (runtime.take turn).spawned) (hnew : pipeline ∉ runtime.spawned) :
    ∃ ref record, (runtime.take turn).store.Registered pipeline.target ref record ∧
      record.status ≠ .evaluated ∧ record.status ≠ .errored := by
  rcases spawned_take hsound.tracked hmem with hold | ⟨ref, hlookup, hopen⟩
  · exact absurd hold hnew
  · have hliving := (runtime.proceeds_take turn).chain.living hsound.machine.living
    obtain ⟨record, hrecord, -⟩ := hliving.named _ _ hlookup
    have hstatus := hopen record hrecord
    refine ⟨ref, record, ⟨hlookup, hrecord⟩, fun heq => ?_, fun heq => ?_⟩
    · rw [heq] at hstatus
      cases hstatus
    · rw [heq] at hstatus
      cases hstatus

theorem Sound.shares (hsound : runtime.Sound) {caller : Caller} (hcaller : caller ∈ runtime.callers)
    {ticket : Nat} {result : Except ModuleError Namespace} (hjoined : caller.joined? = some ticket)
    (hover : caller.waiter.wait = .over result) :
    ∃ outcome, runtime.imports.outcome? ticket = some outcome ∧
      ∀ error, result = .error error ↔ outcome.error? = some error := by
  obtain ⟨job, hjob, rfl, -, hwait | ⟨ending, told, hphase, htold, hsame⟩⟩ :=
    hsound.serves caller hcaller ticket hjoined
  · rw [hover] at hwait
    cases hwait
  · obtain rfl : result = told := Wait.over.inj (hover.symm.trans htold)
    exact ⟨_, hsound.tracked.outcomes job hjob ending hphase, hsame⟩

theorem Sound.tells (hsound : runtime.Sound) {place ticket : Nat} {caller : Caller}
    {outcome : Outcome} (hcaller : runtime.callers[place]? = some caller)
    (hdropped : caller.dropped = false) (hjoined : caller.joined? = some ticket)
    (houtcome : runtime.imports.outcome? ticket = some outcome) : ∃ caller' result,
      (runtime.poll place).callers[place]? = some caller' ∧ caller'.waiter.wait = .over result ∧
        ∀ error, result = .error error ↔ outcome.error? = some error := by
  have hpolled : (runtime.take (.poll place)).callers[place]? = some { caller with
      waiter := (runtime.machine.session.engine.poll caller.waiter).1 } := by
    unfold Runtime.take Runtime.poll
    dsimp only
    rw [hcaller]
    dsimp only
    rw [hdropped, if_neg Bool.false_ne_true]
    exact List.getElem?_set_self (List.getElem?_eq_some_iff.mp hcaller).1
  obtain ⟨job, hjob, rfl, htarget, hwait | ⟨ending, result, hphase, hover, hsame⟩⟩ :=
    hsound.serves caller (List.mem_of_getElem? hcaller) ticket hjoined
  · obtain ⟨ending, hphase⟩ := hsound.tracked.exists_ending hjob houtcome
    have hknown := hsound.tracked.outcomes job hjob ending hphase
    obtain rfl := Option.some.inj (houtcome.symm.trans hknown)
    obtain ⟨result, hover, hsame⟩ := hsound.told hjob hphase htarget hwait
    refine ⟨_, result, hpolled, ?_, hsame⟩
    rw [Engine.poll_of_pipeline _ hwait]
    exact hover
  · have hknown := hsound.tracked.outcomes job hjob ending hphase
    obtain rfl := Option.some.inj (houtcome.symm.trans hknown)
    refine ⟨_, result, hpolled, ?_, hsame⟩
    rw [Engine.poll_of_over _ hover]
    exact hover

theorem Sound.settles (hsound : runtime.Sound) (hnone : runtime.unfinished = []) {job : Job}
    (hjob : job ∈ runtime.jobs) :
    ∃ ref record, runtime.store.Registered job.pipeline.target ref record ∧
      (record.status = .evaluated ∨ record.status = .errored ∨ job.isBroken = true) ∧
      (runtime.machine.isDone = true →
        record.status = .evaluated ∨ record.status = .errored ∨ record.status = .unlinked) := by
  obtain ⟨pipeline, phase⟩ := job
  obtain ⟨ref, record, hregistered⟩ := hsound.targets pipeline (List.mem_map_of_mem hjob)
  have hsettled : record.status.isSettled = true →
      record.status = .evaluated ∨ record.status = .errored := by
    cases record.status <;> simp [Status.isSettled]
  have hholds := hsound.holds _ hjob
  refine ⟨ref, record, hregistered, ?_, fun hdone => ?_⟩
  · cases phase with
    | finished ending =>
        cases ending with
        | broken error => exact .inr (.inr rfl)
        | ran error? =>
            obtain ⟨_, _, hfound, hstatus, -⟩ := hholds
            obtain ⟨rfl, rfl⟩ := hregistered.unique hfound
            exact (hsettled hstatus).imp_right .inl
    | spawned | opening | fetching | fetched | running | ended =>
        have hmem : pipeline ∈ runtime.unfinished :=
          List.mem_map_of_mem (List.mem_filter.mpr ⟨hjob, rfl⟩)
        rw [hnone] at hmem
        cases hmem
  · rcases hsound.machine.attends.ended hsound.machine.living (List.isEmpty_iff.mp hdone)
      hregistered with hunlinked | hstatus
    · exact .inr (.inr hunlinked)
    · exact (hsettled hstatus).imp_right .inl

theorem Sound.promises (hsound : runtime.Sound) : runtime.Promises where
  inFlight := hsound.tracked.tracks.inFlight
  pending := hsound.tracked.tracks.pending
  single := by
    refine List.Nodup.of_map (·.text) ?_
    rw [List.map_map]
    exact hsound.tracked.tracks.nodup_texts
  pends _ _ _ hresolved := hsound.pends hresolved
  spawns _ _ hmem hnew := hsound.spawns hmem hnew
  shares _ hcaller _ _ hjoined hover := hsound.shares hcaller hjoined hover
  tells _ _ _ _ hcaller hdropped hjoined houtcome :=
    hsound.tells hcaller hdropped hjoined houtcome
  settles hnone :=
    ⟨by rw [hsound.tracked.tracks.pending, hnone]; rfl, fun _ hjob => hsound.settles hnone hjob⟩

/-- **Dynamic imports run side by side.**  Whatever happens in whatever order, they keep their
promises, and polling or dropping callers changes no outcome, status or error. -/
theorem imports_run_side_by_side (place : Place) (config : Config) {turns : List Turn}
    (hreset : .reset ∉ (new place config).log turns) :
    ((new place config).play turns).Promises ∧ ∀ turns' : List Turn,
      turns.filter (!·.isCallers) = turns'.filter (!·.isCallers) →
      ((new place config).play turns).imports = ((new place config).play turns').imports ∧
      ((new place config).play turns).spawned = ((new place config).play turns').spawned ∧
      ∀ id, ((new place config).play turns).verdict? id =
        ((new place config).play turns').verdict? id :=
  ⟨((sound_new place config).play hreset).promises,
    fun _ hsame => same_without_callers place config hsame⟩

/-- A module that fails is imported twice while a module that needs it is evaluated; the second
caller is dropped. -/
def stairsTurns : List Turn :=
  [.start "/lower.mjs" none, .start "/lower.mjs" none, .advance 0, .advance 0, .drop 1, .arrive 0 0,
    .advance 0, .advance 0, .call (.evaluate "/upper.mjs" none) none, .advance 0] ++
    List.replicate 9 .step ++ [.advance 0] ++ List.replicate 4 .step ++ [.advance 0, .poll 0]

/-- Whether a caller has been given an error. -/
def hasFailed (caller : Caller) : Bool :=
  match caller.waiter.wait with
  | .over (.error _) => true
  | _ => false

/-- Both have joined one pipeline.  It fails with the error of the module, which is given to the
first caller, and nobody needs to be polled or dropped for that. -/
theorem imports_run_side_by_side_stairs :
    let runtime := (new (.shelf Machine.stairs) .standard).play stairsTurns
    (∃ ref record, runtime.store.Registered (.ofPath "/lower.mjs") ref record ∧
      (record.status = .evaluated ∨ record.status = .errored)) ∧
    (∃ caller error, runtime.callers[0]? = some caller ∧
      caller.waiter.wait = .over (.error error) ∧
      (runtime.imports.outcome? 0).bind (·.error?) = some error) ∧
    ((new (.shelf Machine.stairs) .standard).play
      (stairsTurns.filter (!·.isCallers))).imports = runtime.imports := by
  intro runtime
  have hreset : .reset ∉ (new (.shelf Machine.stairs) .standard).log stairsTurns := by
    decide +kernel
  have hnone : runtime.unfinished = [] := List.length_eq_zero_iff.mp (by decide +kernel)
  have hjobs : runtime.jobs.map (fun job => (job.pipeline.target, job.isBroken)) =
      [(.ofPath "/lower.mjs", false)] := by decide +kernel
  have hcallers : runtime.callers[0]?.map (fun caller => (caller.joined?, hasFailed caller)) =
      some (some 0, true) := by decide +kernel
  obtain ⟨hpromises, hothers⟩ :=
    imports_run_side_by_side (.shelf Machine.stairs) .standard hreset
  obtain ⟨-, htargets⟩ := hpromises.settles hnone
  refine ⟨?_, ?_, ?_⟩
  · obtain ⟨job, hjob, hfields⟩ : ∃ job ∈ runtime.jobs,
        (job.pipeline.target, job.isBroken) = (.ofPath "/lower.mjs", false) :=
      List.mem_map.mp (hjobs ▸ List.mem_singleton_self _)
    obtain ⟨htarget, hbroken⟩ := Prod.mk.inj hfields
    obtain ⟨ref, record, hregistered, hstatus, -⟩ := htargets job hjob
    rw [htarget] at hregistered
    rw [hbroken] at hstatus
    exact ⟨ref, record, hregistered, hstatus.imp_right (·.resolve_right Bool.false_ne_true)⟩
  · obtain ⟨caller, hcaller, hfields⟩ := Option.map_eq_some_iff.mp hcallers
    obtain ⟨hjoined, hfailed⟩ := Prod.mk.inj hfields
    unfold hasFailed at hfailed
    split at hfailed
    · rename_i error hover
      obtain ⟨outcome, houtcome, hsame⟩ := hpromises.shares caller (List.mem_of_getElem? hcaller) 0
        (.error error) hjoined hover
      refine ⟨caller, error, hcaller, hover, ?_⟩
      have hshown : runtime.imports.outcome? 0 = some outcome := houtcome
      rw [hshown]
      exact (hsame error).mp rfl
    · cases hfailed
  · obtain ⟨himports, -⟩ := hothers (stairsTurns.filter (!·.isCallers)) (by
      rw [List.filter_filter]
      simp)
    exact himports.symm

end Runtime

end Linkage
