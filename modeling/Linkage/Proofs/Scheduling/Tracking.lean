import Linkage.Proofs.Runs.Pipelines
import Linkage.Proofs.Scheduling.Turns

/-!
# Tasks and pipelines in flight

Every task is known to the engine as a pipeline in flight until it is finished, and from then on by
its outcome.  No other work touches the dynamic imports.

* `Machine.Minding` : what a turn leaves alone, the end of a task apart.
* `Runtime.Tracked`, `Runtime.tracked_play` : the invariant, after any turns.
* `Imports.Tracks.pending` : the number of pipelines in flight.
-/

namespace Linkage

namespace Imports.Tracks

variable {imports : Imports} {unfinished : List Pipeline}

/-- Pipelines in flight are of different modules. -/
theorem nodup_texts (htracks : imports.Tracks unfinished) :
    (unfinished.map (·.target.text)).Nodup := by
  refine (List.nodup_map_iff_inj_on htracks.nodup.of_map).mpr (fun pipeline hmem other hother => ?_)
  exact htracks.eq_of_target hmem hother

/-- As many pipelines are in flight as are unfinished. -/
theorem pending (htracks : imports.Tracks unfinished) : imports.pending = unfinished.length := by
  have hkeys : imports.inFlight.keys.Perm (unfinished.map (·.target.text)) := by
    refine (List.perm_ext_iff_of_nodup (imports.inFlight.pairwise_keys.imp (fun hless => ?_))
      htracks.nodup_texts).mpr (fun text => ?_)
    · exact fun hsame => String.lt_irrefl _ (hsame ▸ hless)
    · rw [Table.mem_keys_iff, Option.isSome_iff_exists, List.mem_map]
      exact exists_congr (fun pipeline => htracks.inFlight text pipeline)
  have hlength := hkeys.length_eq
  rwa [List.length_map, Table.keys, List.length_map] at hlength

end Imports.Tracks

namespace Machine

variable {machine : Machine}

/-- The machine goes on with work that leaves the dynamic imports as they are. -/
structure Minding (machine machine' : Machine) : Prop where
  imports : machine'.imports = machine.imports
  inner : Inner machine.stack → Inner machine'.stack

theorem Minding.refl (machine : Machine) : machine.Minding machine := ⟨rfl, id⟩

theorem Minds.minding {machine' : Machine} {waiters : List Waiter}
    (hminds : machine'.Minds [] machine.imports waiters) : machine.Minding machine' := by
  obtain ⟨himports, -, above, habove, hstack, -⟩ := hminds
  refine ⟨himports, fun _ => ?_⟩
  rw [hstack, List.append_nil]
  exact habove

theorem minding_aside {α : Type} (machine : Machine) {action : Attempt α}
    (hkeeps : (machine.session.engine.attempt action).2.imports = machine.imports) :
    machine.Minding (machine.aside action).2 := ⟨hkeeps, id⟩

theorem minding_step (hinner : Inner machine.stack) : machine.Minding machine.step := by
  obtain ⟨session, stack, signal⟩ := machine
  cases stack with
  | nil => exact .refl _
  | cons frame stack =>
      have hminds : Minds ⟨session, frame :: stack, signal⟩ [] session.engine.imports
          session.waiters := ⟨rfl, rfl, _, hinner, (List.append_nil _).symm, nofun⟩
      exact (hminds.step (Nat.succ_pos _)).minding

theorem minds_enterCommand (session : Session) (base : List Frame) (command : Command)
    (save? : Option String) :
    (enterCommand session base command save?).Minds base session.engine.imports session.waiters :=
  (mirrors_enterCommand (.refl session) (nofun : Inner []) command save?).minds
    (answers_enterCommand session base command save?)

theorem minding_ask (machine : Machine) (command : Command) (save? : Option String) :
    machine.Minding (machine.ask command save?) := by
  unfold ask
  split
  · exact (minds_enterCommand machine.session [] command save?).minding
  · have hanswer : machine.Minding
        { machine with session := (machine.session.answer command save?).2 } :=
      ⟨((Session.Mirrors.refl machine.session).answer command save?).engine.imports_left, id⟩
    cases command with
    | evaluate specifier referrer? =>
        exact minding_aside machine (Attempt.resolveAndRegister_mirrors specifier referrer?).keeps
    | graph specifier queries =>
        exact minding_aside machine (Attempt.resolveAndRegister_mirrors specifier none).keeps
    | require specifier referrer? =>
        exact minding_aside machine (Engine.imports_resolve _ specifier referrer?)
    | reset => exact .refl machine
    | _ => exact hanswer

end Machine

namespace Phase

variable {machine : Machine} {phase : Phase}

/-- What is found on a level leaves the dynamic imports as they are. -/
theorem keeps_level (engine : Engine) (level : List (RecordRef × Record))
    (known : List ModuleId × List ModuleId) :
    (engine.attempt (level.foldlM (fun (found, seen) (ref, record) =>
      Attempt.nextLevel ref record found seen) known)).2.imports = engine.imports := by
  have hmirrors : Attempt.Mirrors .same engine.imports engine.imports Eq
      (level.foldlM (fun (found, seen) (ref, record) => Attempt.nextLevel ref record found seen) known)
      ((level.map (fun entry => (Renaming.same.record entry.1, entry.2.rename .same))).foldlM
        (fun known entry => Attempt.nextLevel entry.1 entry.2 known.1 known.2) known) := by
    refine Attempt.Relates.foldlM level rfl (fun entry _ known _ hknown => ?_)
    subst hknown
    exact Attempt.nextLevel_mirrors entry.1 entry.2 known.1 known.2
  exact hmirrors.keeps

/-- A task that does not come to its end leaves the dynamic imports as they are. -/
theorem minding_advance (pipeline : Pipeline) (hgoes : ∀ ending, phase ≠ .ended ending) :
    machine.Minding (phase.advance machine pipeline).2 := by
  cases phase with
  | spawned | running | finished => exact .refl machine
  | ended ending => exact absurd rfl (hgoes ending)
  | opening level seen =>
      cases level with
      | nil => exact .refl machine
      | cons first rest =>
          exact Machine.minding_aside machine (Attempt.unsettled_mirrors (first :: rest)).keeps
  | fetching level awaited seen =>
      cases awaited with
      | nil => exact Machine.minding_aside machine (keeps_level machine.session.engine level _)
      | cons first rest => exact .refl machine
  | fetched =>
      unfold advance
      dsimp only
      split
      · exact (Machine.minds_enterRun machine.session [] pipeline.target).minding
      · exact .refl machine

theorem minding_arrive (machine : Machine) (phase : Phase) (request : Nat) :
    machine.Minding (phase.arrive machine request).2 := by
  cases phase with
  | fetching level awaited seen =>
      unfold arrive
      dsimp only
      cases awaited[request]? with
      | none => exact .refl machine
      | some entry =>
          exact Machine.minding_aside machine (Attempt.fetchSource_mirrors entry.1 entry.2).keeps
  | spawned | opening | fetched | running | ended | finished => exact .refl machine

end Phase

/-! ## What the engine knows of the tasks -/

/-- What the engine knows of a task: the pipeline, and how it has ended if it is finished. -/
def Job.known (job : Job) : Pipeline × Option Ending :=
  (job.pipeline, match job.phase with
    | .finished ending => some ending
    | _ => none)

theorem Job.known_told (machine : Machine) (job : Job) : (job.told machine).known = job.known := by
  obtain ⟨pipeline, phase⟩ := job
  cases phase with
  | running => rcases hreply : machine.reply? with _ | ⟨error | value⟩ <;> simp [told, known, hreply]
  | spawned | opening | fetching | fetched | ended | finished => rfl

theorem Job.isFinished_eq (job : Job) : job.isFinished = job.known.2.isSome := by
  obtain ⟨pipeline, phase⟩ := job
  cases phase <;> rfl

namespace Phase

variable {machine : Machine} {phase : Phase} {pipeline : Pipeline}

theorem known_trying {α : Type} {action : Attempt α} {next : α → Phase}
    (hnext : ∀ value, (Job.mk pipeline (next value)).known = (pipeline, none)) :
    (Job.mk pipeline (trying machine action next).1).known = (pipeline, none) := by
  unfold trying
  dsimp only
  cases (machine.aside action).1 with
  | ok value => exact hnext value
  | error error => rfl

theorem known_advance (hgoes : ∀ ending, phase ≠ .ended ending) :
    (Job.mk pipeline (phase.advance machine pipeline).1).known = (Job.mk pipeline phase).known := by
  cases phase with
  | spawned | running | finished => rfl
  | ended ending => exact absurd rfl (hgoes ending)
  | opening level seen =>
      cases level with
      | nil => rfl
      | cons first rest => exact known_trying (fun _ => rfl)
  | fetching level awaited seen =>
      cases awaited with
      | nil => exact known_trying (fun _ => rfl)
      | cons first rest => rfl
  | fetched =>
      unfold advance launch
      dsimp only
      split
      · rcases hreply : (Machine.enterRun machine.session [] pipeline.target).reply? with
          _ | ⟨error | value⟩ <;> rfl
      · rfl

theorem known_arrive (request : Nat) :
    (Job.mk pipeline (phase.arrive machine request).1).known = (Job.mk pipeline phase).known := by
  cases phase with
  | fetching level awaited seen =>
      unfold arrive
      dsimp only
      cases awaited[request]? with
      | none => rfl
      | some entry => exact known_trying (fun _ => rfl)
  | spawned | opening | fetched | running | ended | finished => rfl

end Phase

namespace Runtime

variable {runtime : Runtime}

/-- The dynamic imports of a runtime are its tasks: pipelines in flight and outcomes. -/
structure Tracked (runtime : Runtime) : Prop where
  inner : Inner runtime.machine.stack
  queue : runtime.imports.queue = []
  tracks : runtime.imports.Tracks runtime.unfinished
  tickets : runtime.spawned.map (·.ticket) = List.range runtime.imports.issued
  outcomes : ∀ job ∈ runtime.jobs, ∀ ending, job.phase = .finished ending →
    runtime.imports.outcome? job.pipeline.ticket = some ⟨job.pipeline.ticket, ending.error?⟩

theorem unfinished_eq (runtime : Runtime) : runtime.unfinished =
    ((runtime.jobs.map Job.known).filter (·.2.isNone)).map (·.1) := by
  unfold unfinished
  rw [List.filter_map, List.map_map]
  refine congrArg (List.map _) (List.filter_congr (fun job _ => ?_))
  rw [Job.isFinished_eq]
  simp

theorem spawned_eq (runtime : Runtime) :
    runtime.spawned = (runtime.jobs.map Job.known).map (·.1) := by
  unfold spawned
  rw [List.map_map]
  rfl

/-- Work beside the tasks keeps track of them. -/
theorem Tracked.beside (htracked : runtime.Tracked) {runtime' : Runtime}
    (hminding : runtime.machine.Minding runtime'.machine)
    (hknown : runtime'.jobs.map Job.known = runtime.jobs.map Job.known) : runtime'.Tracked := by
  have himports : runtime'.imports = runtime.imports := hminding.imports
  refine ⟨hminding.inner htracked.inner, by rw [himports, htracked.queue], ?_, ?_, ?_⟩
  · rw [himports, unfinished_eq, hknown, ← unfinished_eq]
    exact htracked.tracks
  · rw [himports, spawned_eq, hknown, ← spawned_eq]
    exact htracked.tickets
  · intro job' hjob' ending hphase
    have hmem : job'.known ∈ runtime.jobs.map Job.known := hknown ▸ List.mem_map_of_mem hjob'
    obtain ⟨job, hjob, hsame⟩ := List.mem_map.mp hmem
    obtain ⟨hpipeline, hended⟩ := Prod.mk.inj hsame
    have hfinished : job.phase = .finished ending := by
      rw [hphase] at hended
      dsimp only at hended
      split at hended
      · rename_i found hfound
        rw [hfound, Option.some.inj hended]
      · cases hended
    rw [himports, ← hpipeline]
    exact htracked.outcomes job hjob ending hfinished

/-! ## How an import begins -/

/-- What the first poll of a dynamic import does, once its specifier has been resolved or not. -/
inductive Begins (runtime : Runtime) (requester? : Option ModuleId) :
    Except ModuleError Resolved → Runtime → Prop
  | refused (error : ModuleError) {engine : Engine} (himports : engine.imports = runtime.imports) :
      Begins runtime requester? (.error error)
        { runtime with
          machine := runtime.machine.withEngine engine
          callers := runtime.callers ++
            [⟨⟨default, requester?, .over (.error error)⟩, none, false⟩] }
  | joins (resolved : Resolved) {engine : Engine} (himports : engine.imports = runtime.imports)
      {pipeline : Pipeline} (hmem : pipeline ∈ runtime.unfinished)
      (htarget : pipeline.target = resolved.id) :
      Begins runtime requester? (.ok resolved)
        { runtime with
          machine := runtime.machine.withEngine engine
          callers := runtime.callers ++
            [⟨⟨resolved.id, requester?, .pipeline pipeline.ticket⟩, some pipeline.ticket, false⟩] }
  | waits (resolved : Resolved) {engine : Engine} (himports : engine.imports = runtime.imports) :
      Begins runtime requester? (.ok resolved)
        { runtime with
          machine := runtime.machine.withEngine engine
          callers := runtime.callers ++ [⟨⟨resolved.id, requester?, .turn⟩, none, false⟩] }
  | spawns (resolved : Resolved) {engine : Engine} {ref : RecordRef}
      (hnone : runtime.imports.inFlight.find? resolved.id.text = none)
      (himports : engine.imports = { (runtime.imports.start resolved.id).2 with queue := [] })
      (hlookup : engine.store.lookup? resolved.id = some ref)
      (hopen : ∀ record, engine.store.record? ref = some record → record.status.isSettled = false) :
      Begins runtime requester? (.ok resolved)
        { machine := runtime.machine.withEngine engine
          jobs := runtime.jobs ++ [⟨(runtime.imports.start resolved.id).1, .spawned⟩]
          callers := runtime.callers ++ [⟨⟨resolved.id, requester?,
            .pipeline runtime.imports.issued⟩, some runtime.imports.issued, false⟩] }

theorem Tracked.begins (htracked : runtime.Tracked) (specifier : String)
    (requester? : Option ModuleId) :
    runtime.Begins requester?
      (runtime.machine.session.engine.attempt (Attempt.resolve specifier requester?)).1
      (runtime.start specifier requester?) := by
  have hqueue : runtime.machine.session.engine.imports.queue = [] := htracked.queue
  have hsame := Engine.imports_resolve runtime.machine.session.engine specifier requester?
  have himports : { runtime.machine.session.engine.imports with queue := [] } = runtime.imports := by
    rw [← hqueue]
    rfl
  unfold start
  rw [Engine.beginImport_eq]
  generalize runtime.machine.session.engine.attempt (Attempt.resolve specifier requester?) = ended
    at hsame
  obtain ⟨result, asked⟩ := ended
  dsimp only at hsame
  cases result with
  | error error =>
      dsimp only
      rw [hsame, hqueue, List.map_nil, List.append_nil]
      exact .refused error himports
  | ok resolved =>
      dsimp only
      split
      · rename_i pipeline hfound
        dsimp only
        rw [hsame, hqueue, List.map_nil, List.append_nil]
        rw [hsame] at hfound
        obtain ⟨hmem, htext⟩ := (htracked.tracks.inFlight _ _).mp hfound
        exact .joins resolved himports hmem (congrArg ModuleId.mk htext)
      · rename_i hnone
        rw [hsame] at hnone
        have hlookup := asked.store.lookup?_getOrCreate resolved.id resolved.format
        split
        · dsimp only
          rw [hsame, hqueue, List.map_nil, List.append_nil]
          exact .waits resolved himports
        · rename_i hopen
          dsimp only
          rw [hsame]
          unfold Imports.start
          dsimp only
          rw [hqueue]
          refine .spawns resolved hnone rfl hlookup (fun record hrecord => ?_)
          rw [hrecord] at hopen
          simpa using hopen

theorem Tracked.start (htracked : runtime.Tracked) (specifier : String)
    (requester? : Option ModuleId) : (runtime.start specifier requester?).Tracked := by
  have hbegins := htracked.begins specifier requester?
  generalize (runtime.machine.session.engine.attempt (Attempt.resolve specifier requester?)).1 =
    result at hbegins
  generalize runtime.start specifier requester? = runtime' at hbegins
  cases hbegins with
  | refused error himports | joins resolved himports | waits resolved himports =>
      exact htracked.beside ⟨himports, id⟩ rfl
  | spawns resolved hnone himports hlookup hopen =>
      rename_i engine ref
      have hunfinished : ∀ job, ({ runtime with jobs := runtime.jobs ++ [job] } : Runtime).unfinished =
          runtime.unfinished ++ (if job.isFinished then [] else [job.pipeline]) := by
        intro job
        unfold unfinished
        rw [List.filter_append, List.map_append]
        cases hfinished : job.isFinished <;> simp [hfinished]
      refine ⟨htracked.inner, congrArg Imports.queue himports, ?_, ?_, ?_⟩
      · refine Eq.mpr (congrArg₂ Imports.Tracks himports (hunfinished _)) ?_
        exact (htracked.tracks.start hnone).queue []
      · show List.map (·.ticket) (List.map (·.pipeline) (runtime.jobs ++ _)) =
          List.range engine.imports.issued
        rw [himports, List.map_append, List.map_append]
        exact (congrArg (· ++ _) htracked.tickets).trans List.range_succ.symm
      · intro job hjob ending hphase
        show engine.imports.outcome? _ = _
        rw [himports]
        rcases List.mem_append.mp hjob with hold | hnew
        · exact htracked.outcomes job hold ending hphase
        · rw [List.mem_singleton.mp hnew] at hphase
          cases hphase

/-! ## Turns -/

/-- A task is finished and is in flight no longer. -/
theorem Tracked.finish (htracked : runtime.Tracked) {front back : List Job} {pipeline : Pipeline}
    {ending : Ending} (hjobs : runtime.jobs = front ++ ⟨pipeline, .ended ending⟩ :: back) :
    Tracked { runtime with
      machine := (Phase.advance runtime.machine pipeline (.ended ending)).2
      jobs := front ++ ⟨pipeline, .finished ending⟩ :: back } := by
  have hspawned : runtime.spawned = (front ++ ⟨pipeline, .finished ending⟩ :: back).map
      (·.pipeline) := by
    unfold spawned
    rw [hjobs, List.map_append, List.map_append]
    rfl
  have hbefore : runtime.unfinished.Perm (pipeline ::
      ((front ++ ⟨pipeline, .finished ending⟩ :: back).filter (!·.isFinished)).map (·.pipeline)) := by
    unfold unfinished
    rw [hjobs]
    simp only [List.filter_append, List.filter_cons, List.map_append, Job.isFinished, Bool.not_false,
      Bool.not_true, if_true, List.map_cons]
    exact List.perm_middle
  have htracks := htracked.tracks.perm hbefore
  refine ⟨htracked.inner, htracked.queue, htracks.finish ending.error?, ?_, ?_⟩
  · exact (congrArg _ hspawned.symm).trans htracked.tickets
  · intro job hjob ended hphase
    show (runtime.imports.finish pipeline ending.error?).outcome? _ = _
    rw [Imports.outcome?_finish]
    have hmem : job ∈ runtime.jobs ∨ job = ⟨pipeline, .finished ending⟩ := by
      rw [hjobs]
      simp only [List.mem_append, List.mem_cons] at hjob ⊢
      tauto
    rcases hmem with hold | rfl
    · rw [htracked.outcomes job hold ended hphase]
      rfl
    · obtain rfl := Phase.finished.inj hphase
      rw [htracks.outcome_eq_none List.mem_cons_self, if_pos rfl]
      rfl

/-- A task that is polled, or is told by the host, and does not come to its end. -/
theorem Tracked.goesOn (htracked : runtime.Tracked) {front back : List Job} {job : Job}
    {phase : Phase} {machine : Machine} (hjobs : runtime.jobs = front ++ job :: back)
    (hminding : runtime.machine.Minding machine)
    (hknown : (Job.mk job.pipeline phase).known = job.known) :
    Tracked { runtime with machine, jobs := front ++ { job with phase } :: back } := by
  refine htracked.beside hminding ?_
  rw [hjobs, List.map_append, List.map_append, List.map_cons, List.map_cons]
  exact congrArg (fun known => _ ++ known :: _) hknown

theorem Tracked.take (htracked : runtime.Tracked) (turn : Turn) : (runtime.take turn).Tracked := by
  cases turn with
  | step =>
      refine htracked.beside (Machine.minding_step htracked.inner) ?_
      show List.map _ (List.map _ _) = _
      rw [List.map_map]
      exact List.map_congr_left (fun job _ => job.known_told _)
  | call command save? => exact htracked.beside (runtime.machine.minding_ask command save?) rfl
  | rehost host => exact htracked.beside ⟨rfl, id⟩ rfl
  | start specifier requester? => exact htracked.start specifier requester?
  | drop place => exact htracked.beside (.refl _) rfl
  | poll place =>
      unfold Runtime.take poll
      dsimp only
      split
      · exact htracked
      · split
        · exact htracked
        · exact htracked.beside ⟨Engine.imports_poll _ _, id⟩ rfl
  | advance place =>
      unfold Runtime.take
      dsimp only
      rcases runtime.work_cases place (Phase.advance runtime.machine) with
        hnothing | ⟨front, ⟨pipeline, phase⟩, back, hjobs, hwork⟩
      · rwa [hnothing]
      · rw [hwork]
        by_cases hends : ∃ ending, phase = .ended ending
        · obtain ⟨ending, rfl⟩ := hends
          exact htracked.finish hjobs
        · have hgoes : ∀ ending, phase ≠ .ended ending := fun ending heq => hends ⟨ending, heq⟩
          exact htracked.goesOn hjobs (Phase.minding_advance pipeline hgoes)
            (Phase.known_advance hgoes)
  | arrive place request =>
      unfold Runtime.take
      dsimp only
      rcases runtime.work_cases place (fun _ => Phase.arrive runtime.machine request) with
        hnothing | ⟨front, job, back, hjobs, hwork⟩
      · rwa [hnothing]
      · rw [hwork]
        exact htracked.goesOn hjobs (Phase.minding_arrive runtime.machine job.phase request)
          (Phase.known_arrive request)

/-- **After any turns the pipelines in flight are the unfinished tasks.** -/
theorem tracked_play (place : Place) (config : Config) (turns : List Turn) :
    ((new place config).play turns).Tracked := by
  suffices hall : ∀ runtime : Runtime, runtime.Tracked → (runtime.play turns).Tracked from
    hall _ ⟨nofun, rfl, .empty, rfl, nofun⟩
  induction turns with
  | nil => exact fun _ htracked => htracked
  | cons first rest ih => exact fun _ htracked => ih _ (htracked.take first)

end Runtime

end Linkage
