import Linkage.Proofs.Engine.Pipelines
import Linkage.Proofs.Runs.Denying
import Linkage.Proofs.Session.Returning

/-!
# Pipelines during a run

Pipelines are only run from the bottom of the stack.  As long as no work is given up, every pipeline
that has begun and not ended waits in the queue or in the frames there, and is found by those who
want to join it.

* `Machine.Level` : the frames that run pipelines, with the pipelines they have not ended.
* `Machine.Tracked`, `Machine.tracked_perform` : the invariant, in every run.
* `Machine.waiters_step` : how those who wait are served.
-/

namespace Linkage.Machine

/-- The frames at the bottom of a stack that run pipelines, and the pipelines they have not
ended. -/
inductive Level : List Frame → List Pipeline → Prop
  | none : Level [] []
  | drain : Level [.drain] []
  | batch (rest : List Pipeline) : Level [.batch rest, .drain] rest
  | finish (pipeline : Pipeline) (rest : List Pipeline) :
      Level [.finish pipeline, .batch rest, .drain] (pipeline :: rest)

/-- Every unfinished pipeline is in the queue or in the frames that run pipelines, and such a frame
waits for a reply only from the work above it. -/
structure Tracked (machine : Machine) : Prop where
  levels : ∃ above base batched, Inner above ∧ machine.stack = above ++ base ∧
    Level base batched ∧
    machine.session.engine.imports.Tracks (batched ++ machine.session.engine.imports.queue)
  replies : ∀ pipeline base, machine.stack = .finish pipeline :: base →
    ∃ reply, machine.signal = .reply reply

variable {machine : Machine} {session : Session} {base : List Frame} {batched : List Pipeline}

/-- Work above the frames that run pipelines keeps track. -/
theorem Minds.tracked {imports : Imports} {waiters : List Waiter}
    (hminds : machine.Minds base imports waiters) (hlevel : Level base batched)
    (htracks : imports.Tracks (batched ++ imports.queue)) : machine.Tracked := by
  obtain ⟨rfl, -, above, habove, hstack, hreply⟩ := hminds
  refine ⟨⟨above, base, batched, habove, hstack, hlevel, htracks⟩, fun pipeline rest hfinish => ?_⟩
  cases above with
  | nil => exact hreply rfl
  | cons frame above =>
      rw [hstack] at hfinish
      obtain ⟨rfl, -⟩ := List.cons.inj hfinish
      cases habove _ List.mem_cons_self

/-- Without inner work the frames that run pipelines keep track by themselves. -/
theorem Tracked.of_level (hlevel : Level base batched) {signal : Signal}
    (hfinish : ∀ pipeline rest, base ≠ .finish pipeline :: rest)
    (htracks : session.engine.imports.Tracks (batched ++ session.engine.imports.queue)) :
    Tracked ⟨session, base, signal⟩ :=
  ⟨⟨[], base, batched, nofun, rfl, hlevel, htracks⟩,
    fun pipeline rest heq => absurd heq (hfinish pipeline rest)⟩

/-- The pipelines that wait begin to run, or end, and then a turn passes. -/
theorem tracks_passTurn (htracks : session.engine.imports.Tracks session.engine.imports.queue) :
    let ended := session.engine.prefetchQueue.2.forWaiters Engine.passTurn session.waiters
    ended.2.imports.Tracks (session.engine.prefetchQueue.1 ++ ended.2.imports.queue) := by
  intro ended
  have himports : ended.2.imports = session.engine.prefetchQueue.2.imports :=
    Engine.imports_forWaiters Engine.imports_passTurn Engine.touches_passTurn _ _
  obtain ⟨htracks', hqueue, -⟩ := Engine.tracks_prefetchQueue htracks
  rw [himports, hqueue, List.append_nil]
  exact htracks'

theorem tracked_enterDrain (htracks : session.engine.imports.Tracks session.engine.imports.queue) :
    (enterDrain session []).Tracked := by
  have htracks' := tracks_passTurn htracks
  unfold enterDrain
  dsimp only
  split
  · exact .of_level (.batch _) nofun htracks'
  · rename_i hwaiting
    have hnone : session.engine.imports.queue = [] := by simpa using hwaiting
    have hready : session.engine.prefetchQueue.1 = [] := by
      rw [Engine.prefetchQueue_eq, hnone]
      rfl
    rw [hready] at htracks'
    exact .of_level .none nofun htracks'

theorem Tracked.step (htracked : machine.Tracked) : machine.step.Tracked := by
  obtain ⟨⟨above, base, batched, habove, hstack, hlevel, htracks⟩, hreplies⟩ := htracked
  cases above with
  | cons frame above =>
      have hminds : machine.Minds base machine.session.engine.imports machine.session.waiters :=
        ⟨rfl, rfl, _, habove, hstack, nofun⟩
      have hhigher : base.length < machine.stack.length := by
        rw [hstack, List.length_append, List.length_cons]
        omega
      exact (hminds.step hhigher).tracked hlevel htracks
  | nil =>
      obtain ⟨session, stack, signal⟩ := machine
      dsimp only [List.nil_append] at hstack htracks hreplies
      subst hstack
      cases hlevel with
      | none => exact .of_level .none nofun htracks
      | drain => exact tracked_enterDrain htracks
      | batch =>
          cases batched with
          | nil =>
              have himports : (session.engine.forWaiters Engine.notice session.waiters).2.imports =
                  session.engine.imports :=
                Engine.imports_forWaiters Engine.imports_notice Engine.touches_notice _ _
              rw [← himports] at htracks
              exact .of_level .drain nofun htracks
          | cons pipeline rest =>
              exact (minds_enterRun session [.finish pipeline, .batch rest, .drain]
                pipeline.target).tracked (.finish pipeline rest) htracks
      | finish pipeline rest =>
          obtain ⟨reply, rfl⟩ := hreplies pipeline _ rfl
          exact .of_level (.batch rest) nofun (htracks.finish _)

/-! ## Acts -/

theorem tracks_beginImports (requests : List (String × Option ModuleId))
    (htracks : session.engine.imports.Tracks session.engine.imports.queue) :
    (session.beginImports requests).engine.imports.Tracks
      (session.beginImports requests).engine.imports.queue := by
  unfold Session.beginImports
  induction requests generalizing session with
  | nil => exact htracks
  | cons request rest ih =>
      rw [List.foldl_cons]
      exact ih (Engine.tracks_beginImport htracks request.1 request.2)

theorem tracked_opening (htracks : session.engine.imports.Tracks session.engine.imports.queue)
    (command : Command) (save? : Option String) : (session.opening save? command).Tracked := by
  have hanswered : Tracked ⟨(session.answer command save?).2, [], .go⟩ := by
    refine .of_level .none nofun ?_
    rw [((Session.Mirrors.refl session).answer command save?).engine.imports_left]
    exact htracks
  have hdrains (session' : Session)
      (htracks' : session'.engine.imports.Tracks session'.engine.imports.queue) :
      Tracked ⟨session', [.drain], .go⟩ := .of_level .drain nofun htracks'
  cases command with
  | evaluate specifier referrer? =>
      exact (minds_enterEvaluate session [] specifier referrer?).tracked .none htracks
  | require specifier referrer? =>
      exact (minds_enterRequire session [] specifier referrer?).tracked .none htracks
  | importNow specifier referrer? => exact hdrains _ (tracks_beginImports _ htracks)
  | importAll requests => exact hdrains _ (tracks_beginImports _ htracks)
  | drive => exact hdrains _ htracks
  | await name =>
      unfold Session.opening
      dsimp only
      split
      · exact .of_level .none nofun htracks
      · exact hdrains _ (tracks_beginImports _ htracks)
  | startImport specifier referrer? =>
      exact .of_level .none nofun (Engine.tracks_beginImport htracks specifier referrer?)
  | inspectHost id bare? referrer? fetch =>
      cases fetch with
      | true => exact hdrains _ htracks
      | false => exact .of_level .none nofun htracks
  | _ => exact hanswered

theorem imports_answerReply (session : Session) (save? : Option String)
    (reply : Except ModuleError Value) :
    (session.answerReply save? reply).2.engine.imports = session.engine.imports := by
  have hself : Matches (fun value value' : Value => value' = value.rename .same) reply reply := by
    cases reply with
    | error error => exact .error error
    | ok value => exact .ok (by rw [Value.rename_same])
  exact ((Session.Mirrors.refl session).answerReply save? hself).engine.imports_left

theorem imports_closing (session : Session) (command : Command) (save? : Option String)
    (reply : Reply) :
    (session.closing save? reply command).engine.imports = session.engine.imports := by
  cases command with
  | evaluate => exact imports_answerReply session save? reply
  | require =>
      unfold Session.closing Session.answerValue
      cases reply with
      | error error => rfl
      | ok value => cases save? <;> rfl
  | importNow | await => exact imports_answerReply _ save? _
  | importAll requests =>
      show (Session.answerAll { session with waiters := [] } save? session.results).2.engine.imports
        = _
      unfold Session.answerAll
      -- each result is shown in turn
      refine List.foldlRecOn (motive := fun (given : List Answer × Session) =>
        given.2.engine.imports = session.engine.imports) session.results _ rfl (fun given hgiven reply _ => ?_)
      exact (imports_answerReply given.2 save? reply).trans hgiven
  | _ => rfl

theorem Tracked.of_isDone (htracked : machine.Tracked) (hdone : machine.isDone = true) :
    machine.session.engine.imports.Tracks machine.session.engine.imports.queue := by
  obtain ⟨⟨above, base, batched, -, hstack, hlevel, htracks⟩, -⟩ := htracked
  rw [isDone, List.isEmpty_iff] at hdone
  rw [hdone] at hstack
  obtain ⟨rfl, rfl⟩ := List.append_eq_nil_iff.mp hstack.symm
  cases hlevel
  exact htracks

theorem Tracked.act (htracked : machine.Tracked) {act : Act} (hkeeps : act ≠ .abandon) :
    (machine.act act).Tracked := by
  cases act with
  | step => exact htracked.step
  | call command save? =>
      unfold Machine.act
      dsimp only
      split
      · rename_i hdone
        exact tracked_opening (htracked.of_isDone hdone) command save?
      · exact htracked
  | conclude command save? reply =>
      unfold Machine.act
      dsimp only
      split
      · rename_i hdone
        refine .of_level .none nofun ?_
        rw [imports_closing]
        exact htracked.of_isDone hdone
      · exact htracked
  | abandon => exact absurd rfl hkeeps
  | rehost host => exact ⟨htracked.levels, htracked.replies⟩

/-- **As long as no work is given up, every unfinished pipeline can be joined and will be run.** -/
theorem tracked_perform (place : Place) (config : Config) {acts : List Act}
    (hkeeps : .abandon ∉ acts) : ((new place config).perform acts).Tracked := by
  suffices hall : ∀ machine : Machine, machine.Tracked → (machine.perform acts).Tracked from
    hall _ (.of_level .none nofun .empty)
  intro machine htracked
  induction acts generalizing machine with
  | nil => exact htracked
  | cons first rest ih =>
      obtain ⟨hfirst, hrest⟩ := not_or.mp (mt List.mem_cons.mpr hkeeps)
      exact ih hrest _ (htracked.act (Ne.symm hfirst))

/-! ## Those who wait -/

/-- A step serves those who wait with one that is touched but has the same modules, or leaves them
alone. -/
theorem waiters_step (machine : Machine) :
    machine.step.session.waiters = machine.session.waiters ∨
      ∃ engine : Engine, machine.session.store.Touches engine.store ∧
        (machine.step.session.waiters =
            (engine.forWaiters Engine.passTurn machine.session.waiters).1 ∨
          machine.step.session.waiters =
            (engine.forWaiters Engine.notice machine.session.waiters).1) := by
  obtain ⟨session, stack, signal⟩ := machine
  cases stack with
  | nil => exact .inl rfl
  | cons frame tail =>
      cases hinner : frame.isInner with
      | true =>
          have hminds : Minds ⟨session, frame :: tail, signal⟩ tail session.engine.imports
              session.waiters := ⟨rfl, rfl, [frame], by simpa [Inner] using hinner, rfl, nofun⟩
          exact .inl (hminds.step (Nat.lt_succ_self _)).waiters
      | false =>
          cases frame with
          | batch rest =>
              cases rest with
              | nil => exact .inr ⟨session.engine, .refl, .inr rfl⟩
              | cons pipeline rest =>
                  exact .inl (minds_enterRun session _ pipeline.target).waiters
          | finish pipeline => rcases signal with _ | reply <;> exact .inl rfl
          | drain =>
              refine .inr ⟨session.engine.prefetchQueue.2, session.engine.touches_prefetchQueue,
                .inl ?_⟩
              show (enterDrain session tail).session.waiters = _
              unfold enterDrain
              dsimp only
              split <;> rfl
          | _ => cases hinner

/-- The result that somebody has waited for stays. -/
theorem over_after {place : Nat} {result : Except ModuleError Namespace} (count : Nat)
    (hover : machine.session.waiters[place]?.map (·.wait) = some (.over result)) :
    (machine.after count).session.waiters[place]?.map (·.wait) = some (.over result) := by
  induction count with
  | zero => exact hover
  | succ count ih =>
      rw [after_succ']
      generalize machine.after count = now at ih
      obtain ⟨waiter, hwaiter, hwait⟩ := Option.map_eq_some_iff.mp ih
      rcases waiters_step now with hsame | ⟨engine, -, hserved | hserved⟩
      · rw [hsame]
        exact ih
      · obtain ⟨engine', -, -, hthen⟩ := Engine.exists_forWaiters Engine.imports_passTurn
          Engine.touches_passTurn engine hwaiter
        rw [hserved, hthen, Option.map_some, Engine.passTurn, hwait]
        dsimp only
        rw [hwait]
      · obtain ⟨engine', -, -, hthen⟩ := Engine.exists_forWaiters Engine.imports_notice
          Engine.touches_notice engine hwaiter
        rw [hserved, hthen, Option.map_some, Engine.notice, hwait]
        dsimp only
        rw [hwait]

end Linkage.Machine
