import Linkage.Proofs.Scheduling.Turns

/-!
# How pipelines end

The run of a pipeline has the machine for itself.  When its pass is over the target has settled, and
the pipeline ends with the error of the target, if there is one.  From then on the target stays as it
is.

* `Store.Bears` : what is known of the target of a pipeline that has come to its end.
* `Machine.Runs` : the run of a module that has the machine for itself.
* `Phase.Holds`, `Phase.Holds.advance`, `Phase.Holds.arrive` : what holds of a task, phase by phase.
-/

namespace Linkage

/-- The store bears out how a pipeline came to its end: if its run is over, its target has settled
and shows the error of the run. -/
def Store.Bears (store : Store) (target : ModuleId) : Ending → Prop
  | .broken _ => True
  | .ran error? => ∃ ref record, store.Registered target ref record ∧
      record.status.isSettled = true ∧ record.error? = error?

namespace Machine

variable {machine machine' : Machine} {marks : List Mark} {target : ModuleId} {graph : Graph}

/-- A settled record stays as it is. -/
theorem Sound.settled (hsound : machine.Sound) (hproceeds : machine.Proceeds marks machine')
    {ref : RecordRef} {record : Record} (hrecord : machine.session.store.record? ref = some record)
    (hsettled : record.status.isSettled = true) :
    ∃ record', machine'.session.store.record? ref = some record' ∧
      record'.status = record.status ∧ record'.error? = record.error? := by
  have hchain := hproceeds.chain
  obtain ⟨record', hrecord', -, -⟩ := hchain.keepsRecords ref record hrecord
  have hbefore := Store.statuses_of_record hrecord
  have hstatus : record'.status = record.status := by
    have hreplay := (hchain.orderly hsound.living).settled
      (by rw [show machine.stage.store.statuses ref = _ from hbefore, hsettled])
    rw [← Store.statuses_of_record hrecord', ← hbefore]
    exact (congrFun (hchain.statuses hsound.living) ref).trans hreplay
  refine ⟨record', hrecord', hstatus, ?_⟩
  have htells := hsound.tells ref record hrecord
  have htells' := (hsound.proceeds hproceeds).tells ref record' hrecord'
  cases herror : record.error? with
  | some error =>
      have hfailed : machine.session.store.HasFailed ref error :=
        ⟨record, hrecord, htells.mp (by rw [herror]; rfl), herror,
          (hsound.agrees ref record hrecord).trans herror⟩
      obtain ⟨found, hfound, -, herror', -⟩ := hchain.hasFailed hsound.living hfailed
      obtain rfl := Option.some.inj (hfound.symm.trans hrecord')
      exact herror'
  | none =>
      have hnot : record'.error?.isSome ≠ true := by
        unfold Record.Tells at htells htells'
        rw [Ne, htells', hstatus, ← htells, herror]
        exact Bool.false_ne_true
      simpa using hnot

/-- What is known of the target of a pipeline stays so. -/
theorem Sound.bears (hsound : machine.Sound) (hproceeds : machine.Proceeds marks machine')
    (hreset : .reset ∉ marks) {ending : Ending}
    (hbears : machine.session.store.Bears target ending) :
    machine'.session.store.Bears target ending := by
  cases ending with
  | broken error => trivial
  | ran error? =>
      obtain ⟨ref, record, hregistered, hsettled, rfl⟩ := hbears
      obtain ⟨record', hrecord', hstatus, herror⟩ :=
        hsound.settled hproceeds hregistered.record hsettled
      exact ⟨ref, record', ⟨hproceeds.chain.lookup hreset hregistered.lookup, hrecord'⟩,
        hstatus ▸ hsettled, herror⟩

/-! ## Runs that have the machine for themselves -/

/-- The run of a module has the machine for itself. -/
def Runs (machine : Machine) (target : ModuleId) : Prop :=
  ∃ graph, graph.root = target ∧ target ∈ graph.order ∧ Course graph [] machine ∧
    ∀ id ∈ graph.order, machine.session.store.Ready id

theorem Course.work {below : List Frame} (hcourse : Course graph below machine) :
    machine.isDone ≠ true := by
  obtain ⟨above, hstack⟩ := hcourse.suffix
  simp [isDone, ← hstack]

theorem Course.reply {below : List Frame} (hcourse : Course graph below machine) :
    machine.reply? = none := by
  obtain ⟨session, stack, signal⟩ := machine
  cases stack with
  | nil => exact absurd rfl hcourse.work
  | cons => rfl

/-- What goes on beside a run does not disturb it. -/
theorem Runs.beside (hruns : machine.Runs target) (hsound : machine.Sound)
    (hproceeds : machine.Proceeds marks machine') (hreset : .reset ∉ marks)
    (hstack : machine'.stack = machine.stack) (hsignal : machine'.signal = machine.signal) :
    machine'.Runs target := by
  obtain ⟨graph, hroot, hmem, hcourse, hready⟩ := hruns
  have hchain := hproceeds.chain
  refine ⟨graph, hroot, hmem, hcourse.mono (fun id => ?_) hstack hsignal, fun id hid => ?_⟩
  · exact hchain.hasBegun hsound.living (fun _ _ => hchain.lookup hreset)
  · exact (hready id hid).advances (hchain.advances hsound.living) (fun _ => hchain.lookup hreset)

/-- A step goes on with a run, or the run is over and its target bears out its reply. -/
theorem Runs.step (hruns : machine.Runs target) (hsound : machine.Sound)
    (hreset : .reset ∉ machine.stepMarks) : machine.step.Runs target ∨
      ∃ reply, machine.step.reply? = some reply ∧ ∀ error?,
        (∀ error, reply = .error error ↔ error? = some error) →
        machine.step.session.store.Bears target (.ran error?) := by
  obtain ⟨graph, rfl, hmem, hcourse, hready⟩ := hruns
  have hchain := machine.chain_step
  have hmarks : .reset ∉ machine.marks .step := hreset
  rcases hcourse.act hsound.living hsound.closed hready hmarks nofun with
    hcourse' | ⟨hstack, hsignal, -, hbegun⟩
  · refine .inl ⟨graph, rfl, hmem, hcourse', fun id hid => ?_⟩
    exact (hready id hid).advances (hchain.advances hsound.living) (fun _ => hchain.lookup hreset)
  · obtain ⟨reply, hstep, hreply⟩ := step_settle hstack hsignal
    have hrunning : machine.running = [] := by
      show machine.stack.filterMap Frame.running? = []
      rw [hstack]
      rfl
    obtain ⟨ref, record, hregistered, hsettled⟩ :=
      hsound.attends.settled hrunning (hbegun graph.root hmem)
    rw [hstep]
    refine .inr ⟨reply, rfl, fun error? hsame => ⟨ref, record, hregistered, hsettled, ?_⟩⟩
    refine Option.ext (fun error => ?_)
    rw [← hsame, hreply, hregistered.find]
    rfl

/-- A run that is prepared begins. -/
theorem launches_of_prepare {session session' : Session} {root : ModuleId} {order : List ModuleId}
    (hprepared : session.attempt (Attempt.prepare root) = (.ok order, session'))
    (below : List Frame) : ∃ graph : Graph, graph.root = root ∧ root ∈ graph.order ∧
      session.Launches graph below (enterRun session below root) := by
  have hunfolded := attempt_prepare session.engine root
  have hresult := congrArg Prod.fst hprepared
  unfold Session.attempt at hresult
  dsimp only at hresult
  rw [hunfolded] at hresult
  cases hbuilt : session.engine.attempt (Attempt.buildGraph root) with
  | mk result engine =>
      rw [hbuilt] at hresult
      cases result with
      | error error => cases hresult
      | ok graph =>
          obtain ⟨-, rfl, front, horder⟩ := Engine.explored_of_buildGraph hbuilt
          refine ⟨graph, rfl, by simp [horder], session, engine, .refl, hbuilt, ?_, rfl⟩
          dsimp only at hresult
          cases hlinked : (engine.store.link graph.order).1 with
          | ok _ => rfl
          | error error =>
              rw [hlinked] at hresult
              cases hresult

end Machine

/-- A pipeline begins its run, or it is over because its graph cannot be built or linked. -/
theorem Phase.launch_cases {machine : Machine} (hsound : machine.Sound) (target : ModuleId) :
    ((launch machine target).1 = .running ∧ (launch machine target).2.Runs target) ∨
      ∃ error, (launch machine target).1 = .ended (.broken error) := by
  cases hprepared : machine.session.attempt (Attempt.prepare target) with
  | mk result session =>
      cases result with
      | error error =>
          refine .inr ⟨error, ?_⟩
          unfold launch Machine.enterRun
          rw [hprepared]
          rfl
      | ok order =>
          obtain ⟨graph, rfl, hmem, hlaunches⟩ := Machine.launches_of_prepare hprepared []
          have hliving : (machine.session.stage machine.stack).Living := hsound.living
          have harranged := hlaunches.arranged hliving hsound.closed
          obtain ⟨_, -, -, -, -, -, hstack⟩ := hlaunches.begins
          have hcourse : Machine.Course graph [] (Machine.enterRun machine.session [] graph.root) :=
            .among [] [] graph.order hstack rfl (fun id hid => absurd hid List.not_mem_nil)
          refine .inl ⟨?_, graph, rfl, hmem, hcourse, harranged.ready⟩
          unfold launch
          dsimp only
          rw [hcourse.reply]

/-- What is known of a task. -/
def Phase.Holds (machine : Machine) (target : ModuleId) : Phase → Prop
  | .running => machine.Runs target
  | .ended ending | .finished ending => machine.session.store.Bears target ending
  | _ => True

namespace Phase

variable {machine machine' : Machine} {marks : List Mark} {target : ModuleId} {phase : Phase}

/-- What goes on beside a task does not disturb it. -/
theorem Holds.beside (hholds : phase.Holds machine target) (hsound : machine.Sound)
    (hproceeds : machine.Proceeds marks machine') (hreset : .reset ∉ marks)
    (hstack : machine.isDone ≠ true → machine'.stack = machine.stack ∧
      machine'.signal = machine.signal) : phase.Holds machine' target := by
  cases phase with
  | running =>
      have hwork : machine.isDone ≠ true := by
        obtain ⟨graph, -, -, hcourse, -⟩ := hholds
        exact hcourse.work
      exact Machine.Runs.beside hholds hsound hproceeds hreset (hstack hwork).1 (hstack hwork).2
  | ended | finished => exact hsound.bears hproceeds hreset hholds
  | spawned | opening | fetching | fetched => trivial

theorem holds_trying {α : Type} {action : Attempt α} {next : α → Phase}
    (hnext : ∀ value machine', (next value).Holds machine' target) :
    (trying machine action next).1.Holds (trying machine action next).2 target := by
  unfold trying
  dsimp only
  generalize machine.aside action = ended
  obtain ⟨result, machine'⟩ := ended
  cases result with
  | ok value => exact hnext value machine'
  | error error => trivial

/-- A task that is polled. -/
theorem Holds.advance (pipeline : Pipeline) (hholds : phase.Holds machine pipeline.target)
    (hsound : machine.Sound) :
    (phase.advance machine pipeline).1.Holds (phase.advance machine pipeline).2
      pipeline.target := by
  cases phase with
  | spawned => trivial
  | running | finished | ended => exact hholds
  | opening level seen =>
      cases level with
      | nil => trivial
      | cons first rest => exact holds_trying (fun _ _ => trivial)
  | fetching level awaited seen =>
      cases awaited with
      | nil => exact holds_trying (fun _ _ => trivial)
      | cons first rest => trivial
  | fetched =>
      unfold Phase.advance
      dsimp only
      split
      · rcases launch_cases hsound pipeline.target with ⟨hphase, hruns⟩ | ⟨error, hphase⟩
        · rw [hphase]
          exact hruns
        · rw [hphase]
          trivial
      · trivial

/-- The host answers a request of a task. -/
theorem Holds.arrive (request : Nat) (hholds : phase.Holds machine target) :
    (phase.arrive machine request).1.Holds (phase.arrive machine request).2 target := by
  cases phase with
  | fetching level awaited seen =>
      unfold Phase.arrive
      dsimp only
      cases awaited[request]? with
      | none => trivial
      | some entry => exact holds_trying (fun _ _ => trivial)
  | spawned | opening | fetched | running | ended | finished => exact hholds

end Phase

/-- A task is told when its run is over. -/
theorem Job.holds_told {machine : Machine} {job : Job}
    (hholds : job.phase.Holds machine job.pipeline.target) (hsound : machine.Sound)
    (hreset : .reset ∉ machine.stepMarks) :
    (job.told machine.step).phase.Holds machine.step job.pipeline.target := by
  obtain ⟨pipeline, phase⟩ := job
  have hproceeds := machine.proceeds_step
  cases phase with
  | spawned | opening | fetching | fetched => trivial
  | ended | finished => exact hsound.bears hproceeds hreset hholds
  | running =>
      rcases Machine.Runs.step hholds hsound hreset with hruns | ⟨reply, hreply, hbears⟩
      · obtain ⟨graph, -, -, hcourse, -⟩ := id hruns
        unfold told
        dsimp only
        rw [hcourse.reply]
        exact hruns
      · unfold told
        dsimp only
        rw [hreply]
        cases reply with
        | ok answer => exact hbears none (fun error => ⟨nofun, nofun⟩)
        | error error =>
            exact hbears (some error) (fun other => by simp)

end Linkage
