import Linkage.Proofs.Runs.Importing
import Linkage.Proofs.Runs.Namespaces
import Linkage.Proofs.Scheduling.Tracking
import Linkage.Proofs.Scheduling.Verdicts

/-!
# Callers that share a pipeline

Whoever joins a pipeline is told how it has ended, and nothing else: if it has failed the error is
theirs as well, and if it has not they get the namespace of the module.

* `Runtime.Serves` : what is known of a caller who has joined a pipeline.
* `Runtime.Sound`, `Runtime.Sound.play` : all that is known of a runtime, after any turns.
-/

namespace Linkage

/-- A registered module that has not failed can be imported. -/
theorem Engine.conclude_of_evaluated {engine : Engine} {waiter : Waiter} {ref : RecordRef}
    {record : Record} (hcurrent : engine.store.Current) (hnamed : engine.store.Named)
    (hregistered : engine.store.Registered waiter.target ref record)
    (herror : record.error? = none) :
    ∃ found, (engine.conclude waiter).1.wait = .over (.ok found) := by
  obtain ⟨found, hfound, -⟩ :=
    Store.namespace_of_registered hcurrent hnamed hregistered waiter.requester?
  refine ⟨found, ?_⟩
  have hresult : (engine.attempt (Attempt.concludeImport waiter.target waiter.requester?)).1 =
      .ok found := by
    unfold Attempt.concludeImport Attempt.registered
    rw [Engine.attempt_bind, Engine.attempt_bind, Engine.attempt_get]
    dsimp only
    rw [hregistered.lookup, hregistered.find]
    dsimp only
    rw [Engine.attempt_pure]
    dsimp only
    rw [herror]
    dsimp only
    rw [Engine.attempt_tryStore]
    exact hfound
  unfold Engine.conclude
  dsimp only
  rw [hresult]

/-- Nothing but the end of the pipeline is waited for. -/
theorem Engine.poll_of_pipeline (engine : Engine) {waiter : Waiter} {ticket : Nat}
    (hwait : waiter.wait = .pipeline ticket) : engine.poll waiter = engine.notice waiter := by
  unfold poll passTurn
  rw [hwait]

/-- A result that has been given stays. -/
theorem Engine.poll_of_over (engine : Engine) {waiter : Waiter}
    {result : Except ModuleError Namespace} (hover : waiter.wait = .over result) :
    engine.poll waiter = (waiter, engine) := by
  unfold poll passTurn
  rw [hover]
  dsimp only
  unfold notice
  rw [hover]

theorem Engine.target_notice (engine : Engine) (waiter : Waiter) :
    (engine.notice waiter).1.target = waiter.target := by
  unfold notice conclude
  repeat' split
  all_goals rfl

namespace Runtime

variable {runtime : Runtime}

/-- A task that is in flight or finished stays known to the engine. -/
theorem known_take (turn : Turn) {job : Job}
    (hjob : job ∈ runtime.jobs) : ∃ job' ∈ (runtime.take turn).jobs,
      job'.pipeline = job.pipeline ∧
        ∀ ending, job.phase = .finished ending → job'.phase = .finished ending := by
  have hwork : ∀ place (f : Pipeline → Phase → Phase × Machine),
      (∀ pipeline ending, (f pipeline (.finished ending)).1 = .finished ending) →
      ∃ job' ∈ (runtime.work place f).jobs, job'.pipeline = job.pipeline ∧
        ∀ ending, job.phase = .finished ending → job'.phase = .finished ending := by
    intro place f hfinished
    rcases runtime.work_cases place f with hnothing | ⟨front, polled, back, hjobs, hwork⟩
    · exact ⟨job, by rwa [hnothing], rfl, fun _ hphase => hphase⟩
    · rw [hwork]
      rw [hjobs, List.mem_append, List.mem_cons] at hjob
      by_cases hsame : job = polled
      · subst hsame
        refine ⟨_, List.mem_append_right _ List.mem_cons_self, rfl, fun ending hphase => ?_⟩
        show (f job.pipeline job.phase).1 = _
        rw [hphase, hfinished]
      · refine ⟨job, ?_, rfl, fun _ hphase => hphase⟩
        rw [List.mem_append, List.mem_cons]
        tauto
  cases turn with
  | step =>
      refine ⟨job.told runtime.machine.step, List.mem_map_of_mem hjob, ?_, fun ending hphase => ?_⟩
      · exact congrArg Prod.fst (job.known_told runtime.machine.step)
      · unfold Job.told
        rw [hphase]
        exact hphase
  | start specifier requester? =>
      refine ⟨job, ?_, rfl, fun _ hphase => hphase⟩
      exact List.mem_append_left _ hjob
  | poll place =>
      refine ⟨job, ?_, rfl, fun _ hphase => hphase⟩
      unfold Runtime.take poll
      dsimp only
      split
      · exact hjob
      · split <;> exact hjob
  | call | rehost | drop => exact ⟨job, hjob, rfl, fun _ hphase => hphase⟩
  | advance place => exact hwork place _ (fun _ _ => rfl)
  | arrive place request => exact hwork place _ (fun _ _ => rfl)

/-- A pipeline is spawned only for a module that has not settled. -/
theorem spawned_take (htracked : runtime.Tracked) {turn : Turn} {pipeline : Pipeline}
    (hmem : pipeline ∈ (runtime.take turn).spawned) : pipeline ∈ runtime.spawned ∨
      ∃ ref, (runtime.take turn).store.lookup? pipeline.target = some ref ∧
        ∀ record, (runtime.take turn).store.record? ref = some record →
          record.status.isSettled = false := by
  have hwork : ∀ place (f : Pipeline → Phase → Phase × Machine),
      (runtime.work place f).spawned = runtime.spawned := by
    intro place f
    rcases runtime.work_cases place f with hnothing | ⟨front, polled, back, hjobs, hwork⟩
    · rw [hnothing]
    · unfold spawned
      rw [hwork, hjobs, List.map_append, List.map_append]
      rfl
  cases turn with
  | step =>
      have hsame : ∀ job : Job, (job.told runtime.machine.step).pipeline = job.pipeline :=
        fun job => congrArg Prod.fst (job.known_told _)
      obtain ⟨job', hjob', rfl⟩ := List.mem_map.mp hmem
      obtain ⟨job, hjob, rfl⟩ := List.mem_map.mp hjob'
      exact .inl (List.mem_map.mpr ⟨job, hjob, (hsame job).symm⟩)
  | call | rehost | drop => exact .inl hmem
  | poll place =>
      refine .inl ?_
      unfold Runtime.take poll at hmem
      dsimp only at hmem
      split at hmem
      · exact hmem
      · split at hmem <;> exact hmem
  | advance place => exact .inl (hwork place _ ▸ hmem)
  | arrive place request => exact .inl (hwork place _ ▸ hmem)
  | start specifier requester? =>
      have hbegins := htracked.begins specifier requester?
      unfold Runtime.take at hmem ⊢
      dsimp only at hmem ⊢
      generalize (runtime.machine.session.engine.attempt
        (Attempt.resolve specifier requester?)).1 = result at hbegins
      generalize runtime.start specifier requester? = runtime' at hbegins hmem
      cases hbegins with
      | refused | joins | waits => exact .inl hmem
      | spawns resolved hnone himports hlookup hopen =>
          obtain ⟨job, hjob, rfl⟩ := List.mem_map.mp hmem
          rcases List.mem_append.mp hjob with hold | hnew
          · exact .inl (List.mem_map_of_mem hold)
          · rw [List.mem_singleton.mp hnew]
            exact .inr ⟨_, hlookup, hopen⟩

/-! ## What callers are told -/

/-- A caller who has joined a pipeline waits for its end, or has been told how it has ended. -/
def Serves (runtime : Runtime) (ticket : Nat) (waiter : Waiter) : Prop :=
  ∃ job ∈ runtime.jobs, job.pipeline.ticket = ticket ∧ job.pipeline.target = waiter.target ∧
    (waiter.wait = .pipeline ticket ∨ ∃ ending result, job.phase = .finished ending ∧
      waiter.wait = .over result ∧ ∀ error, result = .error error ↔ ending.error? = some error)

/-- What is known of a runtime. -/
structure Sound (runtime : Runtime) : Prop where
  machine : runtime.machine.Sound
  tracked : runtime.Tracked
  holds : ∀ job ∈ runtime.jobs, job.phase.Holds runtime.machine job.pipeline.target
  targets : ∀ pipeline ∈ runtime.spawned, ∃ ref record,
    runtime.store.Registered pipeline.target ref record
  serves : ∀ caller ∈ runtime.callers, ∀ ticket, caller.joined? = some ticket →
    runtime.Serves ticket caller.waiter

theorem Serves.take {ticket : Nat} {waiter : Waiter} (hserves : runtime.Serves ticket waiter)
    (turn : Turn) : (runtime.take turn).Serves ticket waiter := by
  obtain ⟨job, hjob, hticket, htarget, hwait⟩ := hserves
  obtain ⟨job', hjob', hpipeline, hfinished⟩ := known_take turn hjob
  refine ⟨job', hjob', hpipeline ▸ hticket, hpipeline ▸ htarget, hwait.imp_right ?_⟩
  rintro ⟨ending, result, hphase, htold⟩
  exact ⟨ending, result, hfinished ending hphase, htold⟩

/-- Whoever waits for a pipeline that is finished is told how it has ended. -/
theorem Sound.told (hsound : runtime.Sound) {job : Job} (hjob : job ∈ runtime.jobs)
    {ending : Ending} (hphase : job.phase = .finished ending) {waiter : Waiter}
    (htarget : job.pipeline.target = waiter.target)
    (hwait : waiter.wait = .pipeline job.pipeline.ticket) :
    ∃ result, (runtime.machine.session.engine.notice waiter).1.wait = .over result ∧
      ∀ error, result = .error error ↔ ending.error? = some error := by
  have houtcome : runtime.machine.session.engine.imports.outcome? job.pipeline.ticket =
      some ⟨job.pipeline.ticket, ending.error?⟩ := hsound.tracked.outcomes job hjob ending hphase
  unfold Engine.notice
  rw [hwait]
  dsimp only
  rw [houtcome]
  cases herror : ending.error? with
  | some error => exact ⟨.error error, rfl, fun other => by simp⟩
  | none =>
      have hbears : runtime.machine.session.store.Bears job.pipeline.target ending := by
        have hholds := hsound.holds job hjob
        rw [hphase] at hholds
        exact hholds
      cases ending with
      | broken error => cases herror
      | ran error? =>
          obtain ⟨ref, record, hregistered, -, hsame⟩ := hbears
          rw [htarget] at hregistered
          obtain ⟨found, hfound⟩ := Engine.conclude_of_evaluated hsound.machine.current
            hsound.machine.living.named hregistered (hsame.trans herror)
          exact ⟨.ok found, hfound, fun error => ⟨nofun, nofun⟩⟩

/-- A pipeline whose outcome is known is finished. -/
theorem Tracked.exists_ending (htracked : runtime.Tracked) {job : Job} (hjob : job ∈ runtime.jobs)
    {outcome : Outcome} (houtcome : runtime.imports.outcome? job.pipeline.ticket = some outcome) :
    ∃ ending, job.phase = .finished ending := by
  by_contra hnone
  have hmem : job.pipeline ∈ runtime.unfinished := by
    refine List.mem_map_of_mem (List.mem_filter.mpr ⟨hjob, ?_⟩)
    unfold Job.isFinished
    split
    · rename_i ending hphase
      exact absurd ⟨ending, hphase⟩ hnone
    · rfl
  rw [htracked.tracks.outcome_eq_none hmem] at houtcome
  cases houtcome

theorem Sound.poll (hsound : runtime.Sound) {ticket : Nat} {waiter : Waiter}
    (hserves : runtime.Serves ticket waiter) :
    runtime.Serves ticket (runtime.machine.session.engine.poll waiter).1 := by
  obtain ⟨job, hjob, rfl, htarget, hwait | htold⟩ := id hserves
  · rw [Engine.poll_of_pipeline _ hwait]
    cases houtcome : runtime.imports.outcome? job.pipeline.ticket with
    | none =>
        have hnone : runtime.machine.session.engine.imports.outcome? job.pipeline.ticket = none :=
          houtcome
        unfold Engine.notice
        rw [hwait]
        dsimp only
        rw [hnone]
        exact hserves
    | some outcome =>
        obtain ⟨ending, hphase⟩ := hsound.tracked.exists_ending hjob houtcome
        obtain ⟨result, hover, hsame⟩ := hsound.told hjob hphase htarget hwait
        exact ⟨job, hjob, rfl, htarget.trans (Engine.target_notice _ _).symm,
          .inr ⟨ending, result, hphase, hover, hsame⟩⟩
  · obtain ⟨ending, result, hphase, hover, hsame⟩ := htold
    rw [Engine.poll_of_over _ hover]
    exact hserves

/-! ## After any turns -/

/-- What is known of every task after a turn. -/
theorem Sound.holds_take (hsound : runtime.Sound) {turn : Turn}
    (hreset : .reset ∉ runtime.marks turn) : ∀ job ∈ (runtime.take turn).jobs,
      job.phase.Holds (runtime.take turn).machine job.pipeline.target := by
  have hproceeds := runtime.proceeds_take turn
  have hbeside : turn ≠ .step → ∀ job ∈ runtime.jobs,
      job.phase.Holds (runtime.take turn).machine job.pipeline.target :=
    fun hturn job hjob => (hsound.holds job hjob).beside hsound.machine hproceeds hreset
      (fun hwork => runtime.stack_take hwork hturn)
  -- a task that is polled changes, and the others are left alone
  have hwork : turn ≠ .step → ∀ place (f : Pipeline → Phase → Phase × Machine),
      runtime.take turn = runtime.work place f →
      (∀ job ∈ runtime.jobs, (f job.pipeline job.phase).1.Holds (f job.pipeline job.phase).2
        job.pipeline.target) → ∀ job ∈ (runtime.take turn).jobs,
      job.phase.Holds (runtime.take turn).machine job.pipeline.target := by
    intro hturn place f htake hpolled job hjob
    have hothers := hbeside hturn
    rcases runtime.work_cases place f with hnothing | ⟨front, polled, back, hjobs, hwork⟩
    · refine hothers job ?_
      rwa [htake, hnothing] at hjob
    · rw [htake, hwork] at hjob hothers ⊢
      rw [List.mem_append, List.mem_cons] at hjob
      rw [hjobs] at hothers hpolled
      rcases hjob with hfront | rfl | hback
      · exact hothers job (List.mem_append_left _ hfront)
      · exact hpolled polled (List.mem_append_right _ List.mem_cons_self)
      · exact hothers job (List.mem_append_right _ (List.mem_cons_of_mem _ hback))
  cases turn with
  | step =>
      intro job' hjob'
      obtain ⟨job, hjob, rfl⟩ := List.mem_map.mp hjob'
      rw [show (job.told runtime.machine.step).pipeline = job.pipeline from
        congrArg Prod.fst (job.known_told _)]
      exact Job.holds_told (hsound.holds job hjob) hsound.machine hreset
  | call | rehost | drop => exact hbeside nofun
  | poll place =>
      have hjobs : (runtime.take (.poll place)).jobs = runtime.jobs := by
        unfold Runtime.take Runtime.poll
        dsimp only
        split
        · rfl
        · split <;> rfl
      rw [hjobs]
      exact hbeside nofun
  | advance place =>
      exact hwork nofun place _ rfl (fun job hjob =>
        (hsound.holds job hjob).advance job.pipeline hsound.machine)
  | arrive place request =>
      exact hwork nofun place (fun _ => Phase.arrive runtime.machine request) rfl
        (fun job hjob => (hsound.holds job hjob).arrive request)
  | start specifier requester? =>
      have hothers := hbeside nofun
      have hbegins := hsound.tracked.begins specifier requester?
      unfold Runtime.take at hothers ⊢
      dsimp only at hothers ⊢
      generalize (runtime.machine.session.engine.attempt
        (Attempt.resolve specifier requester?)).1 = result at hbegins
      generalize runtime.start specifier requester? = runtime' at hbegins hothers
      cases hbegins with
      | refused | joins | waits => exact hothers
      | spawns =>
          intro job hjob
          rcases List.mem_append.mp hjob with hold | hnew
          · exact hothers job hold
          · rw [List.mem_singleton.mp hnew]
            trivial

/-- What is known of every target after a turn. -/
theorem Sound.targets_take (hsound : runtime.Sound) {turn : Turn}
    (hreset : .reset ∉ runtime.marks turn) : ∀ pipeline ∈ (runtime.take turn).spawned,
      ∃ ref record, (runtime.take turn).store.Registered pipeline.target ref record := by
  intro pipeline hmem
  have hchain := (runtime.proceeds_take turn).chain
  rcases spawned_take hsound.tracked hmem with hold | ⟨ref, hlookup, -⟩
  · obtain ⟨ref, record, hregistered⟩ := hsound.targets pipeline hold
    obtain ⟨record', hrecord', -⟩ := hchain.keepsRecords ref record hregistered.record
    exact ⟨ref, record', hchain.lookup hreset hregistered.lookup, hrecord'⟩
  · obtain ⟨record, hrecord, -⟩ := (hchain.living hsound.machine.living).named _ _ hlookup
    exact ⟨ref, record, hlookup, hrecord⟩

/-- What is known of every caller after a turn. -/
theorem Sound.serves_take (hsound : runtime.Sound) (turn : Turn) :
    ∀ caller ∈ (runtime.take turn).callers, ∀ ticket, caller.joined? = some ticket →
      (runtime.take turn).Serves ticket caller.waiter := by
  have hkeeps : ∀ caller ∈ runtime.callers, ∀ ticket, caller.joined? = some ticket →
      (runtime.take turn).Serves ticket caller.waiter :=
    fun caller hcaller ticket hjoined => (hsound.serves caller hcaller ticket hjoined).take turn
  have hwork : ∀ place (f : Pipeline → Phase → Phase × Machine),
      (runtime.work place f).callers = runtime.callers := by
    intro place f
    rcases runtime.work_cases place f with hnothing | ⟨front, polled, back, -, hwork⟩
    · rw [hnothing]
    · rw [hwork]
  cases turn with
  | step | call | rehost => exact hkeeps
  | advance place => exact (hwork place (Phase.advance runtime.machine)).symm ▸ hkeeps
  | arrive place request =>
      exact (hwork place (fun _ => Phase.arrive runtime.machine request)).symm ▸ hkeeps
  | poll place =>
      intro caller hcaller ticket hjoined
      unfold Runtime.take Runtime.poll at hcaller
      dsimp only at hcaller
      split at hcaller
      · exact hkeeps caller hcaller ticket hjoined
      · rename_i polled hpolled
        split at hcaller
        · exact hkeeps caller hcaller ticket hjoined
        · rcases List.mem_or_eq_of_mem_set hcaller with hold | rfl
          · exact hkeeps caller hold ticket hjoined
          · have hserves := hsound.serves polled (List.mem_of_getElem? hpolled) ticket hjoined
            exact (hsound.poll hserves).take (.poll place)
  | drop place =>
      intro caller hcaller ticket hjoined
      obtain ⟨index, hindex⟩ := List.mem_iff_getElem?.mp hcaller
      unfold Runtime.take at hindex
      dsimp only at hindex
      rw [List.getElem?_modify] at hindex
      obtain ⟨before, hbefore, rfl⟩ := Option.map_eq_some_iff.mp hindex
      have hserves := hkeeps before (List.mem_of_getElem? hbefore) ticket
      split at hjoined
      · rename_i hplace
        rw [if_pos hplace]
        exact hserves hjoined
      · rename_i hplace
        rw [if_neg hplace]
        exact hserves hjoined
  | start specifier requester? =>
      have hbegins := hsound.tracked.begins specifier requester?
      unfold Runtime.take at hkeeps ⊢
      dsimp only at hkeeps ⊢
      generalize (runtime.machine.session.engine.attempt
        (Attempt.resolve specifier requester?)).1 = result at hbegins
      generalize runtime.start specifier requester? = runtime' at hbegins hkeeps
      intro caller hcaller ticket hjoined
      cases hbegins with
      | refused | waits =>
          rcases List.mem_append.mp hcaller with hold | hnew
          · exact hkeeps caller hold ticket hjoined
          · rw [List.mem_singleton.mp hnew] at hjoined
            cases hjoined
      | joins resolved himports hmem htarget =>
          rcases List.mem_append.mp hcaller with hold | hnew
          · exact hkeeps caller hold ticket hjoined
          · rw [List.mem_singleton.mp hnew] at hjoined ⊢
            obtain rfl := Option.some.inj hjoined
            obtain ⟨job, hjob, rfl⟩ := List.mem_map.mp hmem
            exact ⟨job, (List.mem_filter.mp hjob).1, rfl, htarget, .inl rfl⟩
      | spawns resolved =>
          rcases List.mem_append.mp hcaller with hold | hnew
          · exact hkeeps caller hold ticket hjoined
          · rw [List.mem_singleton.mp hnew] at hjoined ⊢
            obtain rfl := Option.some.inj hjoined
            exact ⟨_, List.mem_append_right _ List.mem_cons_self, rfl, rfl, .inl rfl⟩

theorem Sound.take (hsound : runtime.Sound) {turn : Turn}
    (hreset : .reset ∉ runtime.marks turn) : (runtime.take turn).Sound where
  machine := hsound.machine.proceeds (runtime.proceeds_take turn)
  tracked := hsound.tracked.take turn
  holds := hsound.holds_take hreset
  targets := hsound.targets_take hreset
  serves := hsound.serves_take turn

theorem Sound.play (hsound : runtime.Sound) {turns : List Turn}
    (hreset : .reset ∉ runtime.log turns) : (runtime.play turns).Sound := by
  induction turns generalizing runtime with
  | nil => exact hsound
  | cons first rest ih =>
      obtain ⟨hfirst, hrest⟩ := not_or.mp (mt List.mem_append.mpr hreset)
      exact ih (hsound.take hfirst) hrest

theorem sound_new (place : Place) (config : Config) : (new place config).Sound where
  machine := Machine.sound_new place config
  tracked := tracked_play place config []
  holds := nofun
  targets := nofun
  serves := nofun

end Runtime

end Linkage
