import Linkage.Proofs.Alike.Machines
import Linkage.Proofs.Scheduling.Turns

/-!
# Callers do not matter

Polling a caller changes nothing but which namespaces are cached, and dropping one changes nothing at
all.  So two runtimes in which everything else happens in the same way go on alike.

* `Runtime.Alike` : two runtimes that do not differ but in their callers and in what is cached.
* `Runtime.Alike.take`, `Runtime.Alike.aside` : the same turn in both, and a turn of a caller in one.
* `Runtime.Alike.play` : turns that do not differ but in those of the callers.
-/

namespace Linkage

section Lists

variable {α β : Type} {R : α → β → Prop} {items : List α} {items' : List β}

theorem rel_getElem? (hitems : List.Forall₂ R items items') (place : Nat) :
    Option.Rel R items[place]? items'[place]? := by
  induction hitems generalizing place with
  | nil => exact .none
  | cons hfirst _ ih =>
      cases place with
      | zero => exact .some hfirst
      | succ place => exact ih place

theorem forall₂_set (hitems : List.Forall₂ R items items') {item : α} {item' : β}
    (hitem : R item item') (place : Nat) :
    List.Forall₂ R (items.set place item) (items'.set place item') := by
  induction hitems generalizing place with
  | nil => exact .nil
  | cons hfirst hrest ih =>
      cases place with
      | zero => exact .cons hitem hrest
      | succ place => exact .cons hfirst (ih place)

theorem forall₂_eraseIdx (hitems : List.Forall₂ R items items') (place : Nat) :
    List.Forall₂ R (items.eraseIdx place) (items'.eraseIdx place) := by
  induction hitems generalizing place with
  | nil => exact .nil
  | cons hfirst hrest ih =>
      cases place with
      | zero => exact hrest
      | succ place => exact .cons hfirst (ih place)

end Lists

/-- Tasks that have come equally far. -/
inductive Phase.Alike : Phase → Phase → Prop
  | spawned : Phase.Alike .spawned .spawned
  | opening (level seen : List ModuleId) : Phase.Alike (.opening level seen) (.opening level seen)
  | fetching {level level' awaited awaited' : List (RecordRef × Record)} (seen : List ModuleId)
      (hlevel : List.Forall₂ (Attempt.RecordAlike .same) level level')
      (hawaited : List.Forall₂ (Attempt.RecordAlike .same) awaited awaited') :
      Phase.Alike (.fetching level awaited seen) (.fetching level' awaited' seen)
  | fetched : Phase.Alike .fetched .fetched
  | running : Phase.Alike .running .running
  | ended (ending : Ending) : Phase.Alike (.ended ending) (.ended ending)
  | finished (ending : Ending) : Phase.Alike (.finished ending) (.finished ending)

/-- The same pipeline in two runtimes. -/
structure Job.Alike (job job' : Job) : Prop where
  pipeline : job.pipeline = job'.pipeline
  phase : job.phase.Alike job'.phase

/-- Two runtimes that do not differ but in their callers and in what is cached. -/
structure Runtime.Alike (imports : Imports) (runtime runtime' : Runtime) : Prop where
  machine : runtime.machine.Alike .same imports imports runtime'.machine
  jobs : List.Forall₂ Job.Alike runtime.jobs runtime'.jobs

/-- Every module is compared. -/
theorem Pairing.covers_same (id : ModuleId) : Pairing.same.covers id := trivial

namespace Machine.Alike

variable {imports : Imports} {machine machine' : Machine}
  (halike : machine.Alike .same imports imports machine')
include halike

theorem isDone : machine.isDone = machine'.isDone := by
  obtain ⟨session, stack, signal⟩ := machine
  obtain ⟨session', stack', signal'⟩ := machine'
  obtain ⟨-, hstack, -⟩ := halike
  cases hstack <;> rfl

theorem reply : Option.Rel (Matches (Value.Alike .same)) machine.reply? machine'.reply? := by
  obtain ⟨session, stack, signal⟩ := machine
  obtain ⟨session', stack', signal'⟩ := machine'
  obtain ⟨-, hstack, hsignal⟩ := halike
  cases hstack with
  | cons => exact .none
  | nil =>
      cases hsignal with
      | go => exact .none
      | reply hreply => exact .some hreply

theorem withSession {imports imports' : Imports} {session session' : Session}
    (hsession : session.Alike .same imports imports' session') :
    Machine.Alike .same imports imports' { machine with session }
      { machine' with session := session' } := ⟨hsession, halike.stack, halike.signal⟩

theorem withEngine {imports imports' : Imports} {engine engine' : Engine}
    (hengine : engine.Alike .same imports imports' engine') :
    (machine.withEngine engine).Alike .same imports imports' (machine'.withEngine engine') :=
  halike.withSession (halike.session.withEngine hengine)

theorem aside {α β : Type} {R : α → β → Prop} {action : Attempt α} {action' : Attempt β}
    (haction : Attempt.Alike .same imports imports R action action') :
    Matches R (machine.aside action).1 (machine'.aside action').1 ∧
      (machine.aside action).2.Alike .same imports imports (machine'.aside action').2 := by
  obtain ⟨hresult, hsession⟩ := halike.session.attempt haction
  exact ⟨hresult, halike.withSession hsession⟩

theorem ask (command : Command) (save? : Option String) :
    (machine.ask command save?).Alike .same imports imports (machine'.ask command save?) := by
  unfold Machine.ask
  rw [halike.isDone]
  split
  · exact alike_enterCommand halike.session .nil Pairing.covers_same command save?
  · have hanswer := halike.withSession (halike.session.answer Pairing.covers_same command save?)
    cases command with
    | evaluate specifier referrer? =>
        exact (halike.aside (Attempt.alike_resolveAndRegister Pairing.covers_same specifier
          referrer?)).2
    | graph specifier queries =>
        exact (halike.aside (Attempt.alike_resolveAndRegister Pairing.covers_same specifier
          none)).2
    | require specifier referrer? =>
        exact (halike.aside (Attempt.alike_resolve specifier referrer?)).2
    | reset => exact halike
    | _ => exact hanswer

end Machine.Alike

/-- A dynamic import begins alike. -/
theorem Engine.Alike.beginImport {imports : Imports} {engine engine' : Engine}
    (halike : engine.Alike .same imports imports engine') (specifier : String)
    (requester? : Option ModuleId) :
    (engine.beginImport specifier requester?).1 = (engine'.beginImport specifier requester?).1 ∧
      ∃ imports, (engine.beginImport specifier requester?).2.Alike .same imports imports
        (engine'.beginImport specifier requester?).2 := by
  obtain ⟨hresult, hasked⟩ := Attempt.alike_resolve specifier requester? engine engine' halike
  rw [beginImport_eq, beginImport_eq]
  generalize engine.attempt (Attempt.resolve specifier requester?) = ended at hresult hasked
  generalize engine'.attempt (Attempt.resolve specifier requester?) = ended' at hresult hasked
  obtain ⟨result, asked⟩ := ended
  obtain ⟨result', asked'⟩ := ended'
  obtain rfl : result' = result := hresult.eq
  cases result' with
  | error error => exact ⟨rfl, imports, hasked⟩
  | ok resolved =>
      dsimp only at hasked ⊢
      rw [hasked.imports_left, hasked.imports_right]
      split
      · exact ⟨rfl, imports, hasked⟩
      · obtain ⟨href, hstore⟩ :=
          hasked.store.getOrCreate (Pairing.covers_same resolved.id) resolved.format
        have hstatus := rel_map_eq (hstore.record href) (fun _ _ hrecord =>
          congrArg Status.isSettled hrecord.status)
        rw [hstatus]
        split
        · exact ⟨rfl, imports, (hasked.withStore hstore).withImports imports imports⟩
        · exact ⟨rfl, _, (hasked.withStore hstore).withImports _ _⟩

/-- Polling a caller changes nothing but what is cached. -/
theorem Engine.conclude_cached (engine : Engine) (waiter : Waiter) :
    ∃ store, engine.store.Cached store ∧ (engine.conclude waiter).2 = { engine with store } := by
  have hnothing : ∃ store, engine.store.Cached store ∧ engine = { engine with store } :=
    ⟨engine.store, .refl _, rfl⟩
  unfold conclude Attempt.concludeImport Attempt.registered
  rw [attempt_bind, attempt_bind, attempt_get]
  dsimp only
  cases engine.store.lookup? waiter.target with
  | none => exact hnothing
  | some ref =>
      cases engine.store.find? waiter.target with
      | none => exact hnothing
      | some record =>
          dsimp only
          rw [attempt_pure]
          dsimp only
          cases record.error? with
          | some error => exact hnothing
          | none =>
              dsimp only
              rw [attempt_tryStore]
              exact ⟨_, engine.store.cached_namespace_ waiter.target waiter.requester?, rfl⟩

theorem Engine.poll_cached (engine : Engine) (waiter : Waiter) :
    ∃ store, engine.store.Cached store ∧ (engine.poll waiter).2 = { engine with store } := by
  have hnothing : ∃ store, engine.store.Cached store ∧ engine = { engine with store } :=
    ⟨engine.store, .refl _, rfl⟩
  unfold poll passTurn
  dsimp only
  rcases hwait : waiter.wait with _ | ticket | result
  · dsimp only
    have hover : ∀ engine' : Engine, (engine'.notice (engine.conclude waiter).1).2 = engine' :=
      fun _ => rfl
    rw [hover]
    exact engine.conclude_cached waiter
  · dsimp only
    unfold notice
    rw [hwait]
    dsimp only
    split
    · exact hnothing
    · exact hnothing
    · exact engine.conclude_cached waiter
  · dsimp only
    unfold notice
    rw [hwait]
    exact hnothing

/-! ## Tasks -/

namespace Phase.Alike

variable {imports : Imports} {machine machine' : Machine} {phase phase' : Phase}

theorem trying (halike : machine.Alike .same imports imports machine') {α β : Type}
    {R : α → β → Prop} {action : Attempt α} {action' : Attempt β}
    (haction : Attempt.Alike .same imports imports R action action') {next : α → Phase}
    {next' : β → Phase} (hnext : ∀ value value', R value value' → (next value).Alike (next' value')) :
    (Phase.trying machine action next).1.Alike (Phase.trying machine' action' next').1 ∧
      (Phase.trying machine action next).2.Alike .same imports imports
        (Phase.trying machine' action' next').2 := by
  obtain ⟨hresult, hmachine⟩ := halike.aside haction
  refine ⟨?_, hmachine⟩
  unfold Phase.trying
  dsimp only
  rcases hresult.elim with ⟨error, herror, herror'⟩ | ⟨value, value', hvalue, hvalue', hsame⟩
  · rw [herror, herror']
    exact .ended _
  · rw [hvalue, hvalue']
    exact hnext value value' hsame

/-- A run begins alike. -/
theorem launch (halike : machine.Alike .same imports imports machine') (target : ModuleId) :
    (Phase.launch machine target).1.Alike (Phase.launch machine' target).1 ∧
      (Phase.launch machine target).2.Alike .same imports imports
        (Phase.launch machine' target).2 := by
  have hrun := Machine.alike_enterRun halike.session .nil Pairing.covers_same target
  refine ⟨?_, hrun⟩
  unfold Phase.launch
  dsimp only
  rcases rel_cases hrun.reply with ⟨hnone, hnone'⟩ | ⟨reply, reply', hreply, hreply', hsame⟩
  · rw [hnone, hnone']
    exact .running
  · rw [hreply, hreply']
    cases hsame with
    | ok => exact .running
    | error error => exact .ended _

/-- A task is polled in both. -/
theorem advance (hphase : phase.Alike phase')
    (halike : machine.Alike .same imports imports machine') (pipeline : Pipeline) :
    (phase.advance machine pipeline).1.Alike (phase'.advance machine' pipeline).1 ∧
      ∃ imports, (phase.advance machine pipeline).2.Alike .same imports imports
        (phase'.advance machine' pipeline).2 := by
  cases hphase with
  | spawned => exact ⟨.opening _ _, imports, halike⟩
  | running => exact ⟨.running, imports, halike⟩
  | finished ending => exact ⟨.finished ending, imports, halike⟩
  | opening level seen =>
      cases level with
      | nil => exact ⟨.fetched, imports, halike⟩
      | cons first rest =>
          have hnext : ∀ records records' : List (RecordRef × Record),
              List.Forall₂ (Attempt.RecordAlike .same) records records' →
              (Phase.fetching records (records.filter (·.2.source?.isNone)) seen).Alike
                (.fetching records' (records'.filter (·.2.source?.isNone)) seen) := by
            intro records records' hrecords
            refine .fetching seen hrecords (List.rel_filter (fun entry entry' hentry => ?_) hrecords)
            dsimp only
            rw [hentry.2.source]
          obtain ⟨hphase, hmachine⟩ := trying halike
            (Attempt.alike_unsettled Pairing.covers_same (first :: rest)) hnext
          exact ⟨hphase, imports, hmachine⟩
  | fetching seen hlevel hawaited =>
      cases hawaited with
      | cons hfirst hrest =>
          exact ⟨.fetching seen hlevel (.cons hfirst hrest), imports, halike⟩
      | nil =>
          rename_i level level'
          have hnext : ∀ known known' : List ModuleId × List ModuleId, known = known' →
              (Phase.opening known.1 known.2).Alike (.opening known'.1 known'.2) := by
            rintro known _ rfl
            exact .opening known.1 known.2
          refine And.imp_right (fun hmachine => ⟨imports, hmachine⟩) (trying halike ?_ hnext)
          refine Attempt.Relates.foldlM_pairs hlevel rfl (fun entry entry' hentry known _ hknown => ?_)
          subst hknown
          exact Attempt.alike_nextLevel Pairing.covers_same hentry.1 hentry.2 known.1 known.2
  | fetched =>
      unfold Phase.advance
      dsimp only
      rw [halike.isDone]
      split
      · obtain ⟨hnext, hmachine⟩ := launch halike pipeline.target
        exact ⟨hnext, imports, hmachine⟩
      · exact ⟨.fetched, imports, halike⟩
  | ended ending =>
      have hsame : machine.imports = machine'.imports :=
        halike.session.engine.imports_left.trans halike.session.engine.imports_right.symm
      refine ⟨.finished ending, machine.imports.finish pipeline ending.error?, ?_⟩
      unfold Phase.advance
      dsimp only
      rw [← hsame]
      exact halike.withEngine (halike.session.engine.withImports _ _)

/-- The host answers a request in both. -/
theorem arrive (hphase : phase.Alike phase')
    (halike : machine.Alike .same imports imports machine') (request : Nat) :
    (phase.arrive machine request).1.Alike (phase'.arrive machine' request).1 ∧
      (phase.arrive machine request).2.Alike .same imports imports
        (phase'.arrive machine' request).2 := by
  cases hphase with
  | fetching seen hlevel hawaited =>
      have hsame : ∀ place, _ := rel_getElem? hawaited
      unfold Phase.arrive
      dsimp only
      rcases rel_cases (hsame request) with
        ⟨hnone, hnone'⟩ | ⟨entry, entry', hsome, hsome', hentry⟩
      · rw [hnone, hnone']
        exact ⟨.fetching seen hlevel hawaited, halike⟩
      · rw [hsome, hsome']
        exact trying halike (Attempt.alike_fetchSource hentry.1 hentry.2)
          (fun _ _ _ => .fetching seen hlevel (forall₂_eraseIdx hawaited request))
  | spawned => exact ⟨.spawned, halike⟩
  | opening level seen => exact ⟨.opening level seen, halike⟩
  | fetched => exact ⟨.fetched, halike⟩
  | running => exact ⟨.running, halike⟩
  | ended ending => exact ⟨.ended ending, halike⟩
  | finished ending => exact ⟨.finished ending, halike⟩

end Phase.Alike

/-- A task is told the same in both. -/
theorem Job.Alike.told {imports : Imports} {machine machine' : Machine} {job job' : Job}
    (hjob : job.Alike job') (halike : machine.Alike .same imports imports machine') :
    (job.told machine).Alike (job'.told machine') := by
  obtain ⟨pipeline, phase⟩ := job
  obtain ⟨pipeline', phase'⟩ := job'
  obtain ⟨hpipeline, hphase⟩ := id hjob
  cases hphase with
  | running =>
      unfold Job.told
      dsimp only
      rcases rel_cases halike.reply with ⟨hnone, hnone'⟩ | ⟨reply, reply', hreply, hreply', hsame⟩
      · rw [hnone, hnone']
        exact hjob
      · rw [hreply, hreply']
        cases hsame with
        | ok => exact ⟨hpipeline, .ended _⟩
        | error error => exact ⟨hpipeline, .ended _⟩
  | spawned | opening | fetching | fetched | ended | finished => exact hjob

namespace Runtime

variable {runtime runtime' : Runtime} {imports : Imports}

theorem Alike.work (halike : runtime.Alike imports runtime')
    {f f' : Pipeline → Phase → Phase × Machine} (place : Nat)
    (hsame : ∀ pipeline phase phase', phase.Alike phase' →
      (f pipeline phase).1.Alike (f' pipeline phase').1 ∧ ∃ imports,
        (f pipeline phase).2.Alike .same imports imports (f' pipeline phase').2) :
    ∃ imports, (runtime.work place f).Alike imports (runtime'.work place f') := by
  unfold Runtime.work
  rcases rel_cases (rel_getElem? halike.jobs place) with
    ⟨hnone, hnone'⟩ | ⟨job, job', hsome, hsome', hjob⟩
  · rw [hnone, hnone']
    exact ⟨imports, halike⟩
  · rw [hsome, hsome']
    dsimp only
    obtain ⟨hphase, imports, hmachine⟩ := hsame job.pipeline job.phase job'.phase hjob.phase
    rw [← hjob.pipeline]
    refine ⟨imports, hmachine, forall₂_set halike.jobs ?_ place⟩
    exact ⟨rfl, hphase⟩

/-- The same turn in both. -/
theorem Alike.take (halike : runtime.Alike imports runtime') {turn : Turn}
    (hturn : turn.isCallers = false) :
    ∃ imports, (runtime.take turn).Alike imports (runtime'.take turn) := by
  cases turn with
  | step =>
      have hmachine := halike.machine.step Pairing.covers_same
      refine ⟨imports, hmachine, ?_⟩
      refine List.rel_map ?_ halike.jobs
      exact fun job job' hjob => hjob.told hmachine
  | call command save? => exact ⟨imports, halike.machine.ask command save?, halike.jobs⟩
  | rehost host =>
      exact ⟨imports, halike.machine.withEngine (halike.machine.session.engine.withHost host),
        halike.jobs⟩
  | poll | drop => cases hturn
  | advance place => exact halike.work place (fun pipeline _ _ hphase =>
      hphase.advance halike.machine pipeline)
  | arrive place request => exact halike.work place (fun _ _ _ hphase =>
      ⟨(hphase.arrive halike.machine request).1, imports,
        (hphase.arrive halike.machine request).2⟩)
  | start specifier requester? =>
      obtain ⟨-, imports, hengine⟩ := halike.machine.session.engine.beginImport specifier requester?
      have hqueue : (runtime.machine.session.engine.beginImport specifier requester?).2.imports =
          (runtime'.machine.session.engine.beginImport specifier requester?).2.imports :=
        hengine.imports_left.trans hengine.imports_right.symm
      unfold Runtime.take start
      dsimp only
      rw [hqueue]
      refine ⟨_, halike.machine.withEngine (hengine.withImports _ _), ?_⟩
      refine List.rel_append halike.jobs (List.forall₂_same.mpr ?_)
      intro job hjob
      obtain ⟨pipeline, -, rfl⟩ := List.mem_map.mp hjob
      exact ⟨rfl, .spawned⟩

/-- A turn of a caller in one of them. -/
theorem Alike.aside (halike : runtime.Alike imports runtime') {turn : Turn}
    (hturn : turn.isCallers = true) : (runtime.take turn).Alike imports runtime' := by
  cases turn with
  | drop place => exact ⟨halike.machine, halike.jobs⟩
  | poll place =>
      unfold Runtime.take poll
      dsimp only
      split
      · exact halike
      · rename_i caller _
        split
        · exact halike
        · obtain ⟨store, hcached, heq⟩ :=
            runtime.machine.session.engine.poll_cached caller.waiter
          rw [heq]
          refine ⟨?_, halike.jobs⟩
          exact ⟨halike.machine.session.withStore
            (halike.machine.session.store.cached hcached (.refl _)), halike.machine.stack,
            halike.machine.signal⟩
  | step | call | rehost | start | advance | arrive => cases hturn

theorem alike_new (place : Place) (config : Config) :
    (new place config).Alike .empty (new place config) := by
  have hupright : (Store.empty).Upright :=
    ⟨(Machine.living_new place config).named, (Machine.sound_new place config).current⟩
  have hengine : (Engine.new place.toHost config).Alike .same .empty .empty
      (Engine.new place.toHost config) :=
    ⟨rfl, rfl, fun _ _ => rfl, rfl, Store.alike_same hupright, rfl, rfl⟩
  exact ⟨⟨⟨hengine, rfl, Table.alike_empty, Table.alike_empty, rfl⟩, .nil, .go⟩, .nil⟩

/-- Turns of callers may be left out. -/
theorem Alike.play (halike : runtime.Alike imports runtime') (turns : List Turn) :
    ∃ imports, (runtime.play turns).Alike imports
      (runtime'.play (turns.filter (!·.isCallers))) := by
  induction turns generalizing runtime runtime' imports with
  | nil => exact ⟨imports, halike⟩
  | cons first rest ih =>
      rw [List.filter_cons]
      cases hturn : first.isCallers with
      | true => exact ih (halike.aside hturn)
      | false =>
          obtain ⟨imports, hfirst⟩ := halike.take hturn
          exact ih hfirst

/-- The status of a module and the error it has failed with, if it is registered. -/
def verdict? (runtime : Runtime) (id : ModuleId) : Option (Status × Option ModuleError) :=
  (runtime.store.find? id).map (fun record => (record.status, record.error?))

theorem Alike.imports_eq (halike : runtime.Alike imports runtime') :
    runtime.imports = runtime'.imports :=
  halike.machine.session.engine.imports_left.trans halike.machine.session.engine.imports_right.symm

theorem Alike.spawned (halike : runtime.Alike imports runtime') :
    runtime.spawned = runtime'.spawned := by
  have hsame : List.Forall₂ Eq runtime.spawned runtime'.spawned :=
    List.rel_map (fun _ _ hjob => hjob.pipeline) halike.jobs
  rwa [List.forall₂_eq_eq_eq] at hsame

theorem Alike.verdict (halike : runtime.Alike imports runtime') (id : ModuleId) :
    runtime.verdict? id = runtime'.verdict? id :=
  rel_map_eq (halike.machine.session.store.find (Pairing.covers_same id))
    (fun _ _ hrecord => by rw [hrecord.status, hrecord.error])

/-- **Turns that do not differ but in those of the callers have the same outcomes.** -/
theorem same_without_callers (place : Place) (config : Config) {turns turns' : List Turn}
    (hsame : turns.filter (!·.isCallers) = turns'.filter (!·.isCallers)) :
    ((new place config).play turns).imports = ((new place config).play turns').imports ∧
      ((new place config).play turns).spawned = ((new place config).play turns').spawned ∧
      ∀ id, ((new place config).play turns).verdict? id =
        ((new place config).play turns').verdict? id := by
  obtain ⟨_, halike⟩ := (alike_new place config).play turns
  obtain ⟨_, halike'⟩ := (alike_new place config).play turns'
  rw [← hsame] at halike'
  exact ⟨halike.imports_eq.trans halike'.imports_eq.symm, halike.spawned.trans halike'.spawned.symm,
    fun id => (halike.verdict id).trans (halike'.verdict id).symm⟩

end Runtime

end Linkage
