import Linkage.Proofs.Renaming.Imports
import Linkage.Proofs.Session.Answering

/-!
# Runs under new names

Two sessions that do not differ but in what things are called go on to be so whatever is asked of
both, and give the same results, pipelines and all.

* `Session.Parallels`, `Machine.Parallels` : the relations.
* `Machine.Parallels.step`, `Machine.Parallels.run` : steps, whatever the topmost frame.
* `Session.Parallels.evaluate`, `Session.Parallels.require`, `Session.Parallels.importTogether` :
  what is asked from outside.
-/

namespace Linkage

/-- Sessions that do not differ but in what things are called. -/
structure Session.Parallels (names : Renaming) (session session' : Session) : Prop where
  inner : session.Mirrors names session.engine.imports session'.engine.imports session.waiters
    session'.waiters session'
  imports : session.engine.imports.Mirrors names session'.engine.imports
  waiters : session'.waiters = session.waiters.map (Waiter.rename names)

/-- Machines that do not differ but in what things are called. -/
structure Machine.Parallels (names : Renaming) (machine machine' : Machine) : Prop where
  session : machine.session.Parallels names machine'.session
  stack : machine'.stack = machine.stack.map (Frame.rename names)
  signal : machine'.signal = machine.signal.rename names

variable {names : Renaming} {session session' : Session} {machine machine' : Machine}

namespace Session.Parallels

theorem engine (hparallel : session.Parallels names session') :
    session.engine.Parallels names session'.engine :=
  ⟨hparallel.inner.engine, hparallel.imports⟩

/-- Sessions whose engines and waiters have changed side by side. -/
theorem with_engine (hparallel : session.Parallels names session') {engine engine' : Engine}
    (hengine : engine.Parallels names engine') {waiters waiters' : List Waiter}
    (hwaiters : waiters' = waiters.map (Waiter.rename names)) :
    Session.Parallels names { session with engine, waiters }
      { session' with engine := engine', waiters := waiters' } where
  inner := { hparallel.inner with
    engine := hengine.inner
    waiters_left := rfl
    waiters_right := rfl }
  imports := hengine.imports
  waiters := hwaiters

/-- Sessions that have changed while dynamic imports and those who wait were left alone. -/
theorem of_mirrors (hparallel : session.Parallels names session') {later later' : Session}
    (hmirrors : later.Mirrors names session.engine.imports session'.engine.imports session.waiters
      session'.waiters later') : later.Parallels names later' := by
  refine ⟨?_, ?_, ?_⟩
  · rw [hmirrors.engine.imports_left, hmirrors.engine.imports_right, hmirrors.waiters_left,
      hmirrors.waiters_right]
    exact hmirrors
  · rw [hmirrors.engine.imports_left, hmirrors.engine.imports_right]
    exact hparallel.imports
  · rw [hmirrors.waiters_left, hmirrors.waiters_right]
    exact hparallel.waiters

end Session.Parallels

namespace Machine

/-- Inner work on both sides. -/
theorem Mirrors.parallels {base : List Frame} (hparallel : session.Parallels names session')
    (hmirrors : Mirrors names session.engine.imports session'.engine.imports session.waiters
      session'.waiters base (base.map (Frame.rename names)) machine machine') :
    machine.Parallels names machine' := by
  obtain ⟨above, -, hstack, hstack'⟩ := hmirrors.stack
  refine ⟨hparallel.of_mirrors hmirrors.session, ?_, hmirrors.signal⟩
  rw [hstack, hstack', List.map_append]

theorem Parallels.enterDrain (hparallel : session.Parallels names session') (stack : List Frame) :
    (enterDrain session stack).Parallels names
      (enterDrain session' (stack.map (Frame.rename names))) := by
  obtain ⟨hready, hfetched⟩ := hparallel.engine.prefetchQueue
  obtain ⟨hserved, hturned⟩ :=
    Engine.Parallels.forWaiters (fun hparallel => hparallel.passTurn) hfetched session.waiters
  have hqueue : session'.engine.imports.queue.isEmpty = session.engine.imports.queue.isEmpty := by
    rw [hparallel.imports.queue, List.isEmpty_map]
  rw [← hparallel.waiters] at hserved hturned
  have hsession := hparallel.with_engine hturned hserved
  unfold Machine.enterDrain
  dsimp only
  rw [hqueue]
  cases session.engine.imports.queue.isEmpty with
  | true => exact ⟨hsession, rfl, rfl⟩
  | false =>
      refine ⟨hsession, ?_, rfl⟩
      rw [hready]
      rfl

/-- One step does the same on both sides. -/
theorem Parallels.step (hparallel : machine.Parallels names machine') :
    machine.step.Parallels names machine'.step := by
  obtain ⟨session, stack, signal⟩ := machine
  obtain ⟨session', stack', signal'⟩ := machine'
  obtain ⟨hsession, hstack, hsignal⟩ := hparallel
  dsimp only at hsession hstack hsignal
  subst hstack hsignal
  cases stack with
  | nil => exact ⟨hsession, rfl, rfl⟩
  | cons frame tail =>
      cases hinner : frame.isInner with
      | true =>
          have hmirrors : Mirrors names session.engine.imports session'.engine.imports
              session.waiters session'.waiters tail (tail.map (Frame.rename names))
              ⟨session, frame :: tail, signal⟩
              ⟨session', (frame :: tail).map (Frame.rename names), signal.rename names⟩ :=
            ⟨hsession.inner, ⟨[frame], by simpa [Inner] using hinner, rfl, rfl⟩, rfl⟩
          exact (hmirrors.step (Nat.lt_succ_self _)).parallels hsession
      | false =>
          cases frame with
          | batch rest =>
              cases rest with
              | nil =>
                  obtain ⟨hserved, hturned⟩ := Engine.Parallels.forWaiters
                    (fun hparallel => hparallel.notice) hsession.engine session.waiters
                  rw [← hsession.waiters] at hserved hturned
                  exact ⟨hsession.with_engine hturned hserved, rfl, rfl⟩
              | cons pipeline rest =>
                  exact (mirrors_enterRun hsession.inner (nofun : Inner [])
                    pipeline.target).parallels hsession
          | finish pipeline =>
              rcases signal with _ | reply
              · exact ⟨hsession, rfl, rfl⟩
              · have hfinished (error? : Option ModuleError) :=
                  hsession.with_engine (hsession.engine.withImports
                    (hsession.imports.finish pipeline error?)) hsession.waiters
                rcases reply with error | value
                · exact ⟨hfinished (some error), rfl, rfl⟩
                · exact ⟨hfinished none, rfl, rfl⟩
          | drain => exact Parallels.enterDrain hsession tail
          | _ => cases hinner

theorem Parallels.isDone (hparallel : machine.Parallels names machine') :
    machine'.isDone = machine.isDone := by
  unfold Machine.isDone
  rw [hparallel.stack, List.isEmpty_map]

theorem Parallels.run (hparallel : machine.Parallels names machine') (fuel : Nat) :
    (machine.run fuel).Parallels names (machine'.run fuel) := by
  induction fuel generalizing machine machine' with
  | zero => exact hparallel
  | succ fuel ih =>
      unfold Machine.run
      rw [hparallel.isDone]
      split
      · exact hparallel
      · exact ih hparallel.step

end Machine

/-! ## What is asked from outside -/

/-- Replies that do not differ but in what things are called. -/
abbrev Reply.rename (names : Renaming) (reply : Reply) : Reply := reply.map (Value.rename names)

namespace Session

theorem Parallels.complete (hparallel : machine.Parallels names machine') :
    (complete machine').1 = (complete machine).1.rename names ∧
      (complete machine).2.Parallels names (complete machine').2 := by
  have hended := hparallel.run stepLimit
  unfold Session.complete
  refine ⟨?_, hended.session⟩
  generalize machine.run stepLimit = ended at hended
  generalize machine'.run stepLimit = ended' at hended
  obtain ⟨session, stack, signal⟩ := ended
  obtain ⟨session', stack', signal'⟩ := ended'
  obtain ⟨-, hstack, hsignal⟩ := hended
  dsimp only at hstack hsignal
  subst hstack hsignal
  cases stack with
  | nil => cases signal <;> rfl
  | cons frame tail => rfl

namespace Parallels

variable (hparallel : session.Parallels names session')
include hparallel

theorem attempt {α β : Type} {R : α → β → Prop} {action : Attempt α} {action' : Attempt β}
    (haction : Attempt.Mirrors names session.engine.imports session'.engine.imports R action
      action') :
    Matches R (session.attempt action).1 (session'.attempt action').1 ∧
      (session.attempt action).2.Parallels names (session'.attempt action').2 := by
  obtain ⟨hresult, hsession⟩ := hparallel.inner.attempt haction
  exact ⟨hresult, hparallel.of_mirrors hsession⟩

theorem evaluate (specifier : String) (referrer? : Option ModuleId) :
    (session'.evaluate specifier referrer?).1 =
        (session.evaluate specifier referrer?).1.rename names ∧
      (session.evaluate specifier referrer?).2.Parallels names
        (session'.evaluate specifier referrer?).2 :=
  complete ((Machine.mirrors_enterEvaluate hparallel.inner (nofun : Inner []) specifier
    referrer?).parallels hparallel)

theorem require (specifier : String) (referrer? : Option ModuleId) :
    (session'.require specifier referrer?).1 =
        (session.require specifier referrer?).1.rename names ∧
      (session.require specifier referrer?).2.Parallels names
        (session'.require specifier referrer?).2 :=
  complete ((Machine.mirrors_enterRequire hparallel.inner (nofun : Inner []) specifier
    referrer?).parallels hparallel)

theorem beginImports (requests : List (String × Option ModuleId)) :
    (session.beginImports requests).Parallels names (session'.beginImports requests) := by
  induction requests generalizing session session' with
  | nil => exact hparallel
  | cons request rest ih =>
      obtain ⟨hwaiter, hbegun⟩ := hparallel.engine.beginImport request.1 request.2
      rw [Session.beginImports_cons, Session.beginImports_cons]
      refine ih (hparallel.with_engine hbegun ?_)
      rw [hwaiter, hparallel.waiters, List.map_append]
      rfl

theorem drain : session.drain.Parallels names session'.drain := by
  have hmachine : Machine.Parallels names ⟨session, [.drain], .go⟩ ⟨session', [.drain], .go⟩ :=
    ⟨hparallel, rfl, rfl⟩
  exact (complete hmachine).2

theorem importTogether (requests : List (String × Option ModuleId)) :
    (session'.importTogether requests).1 =
        (session.importTogether requests).1.map (Reply.rename names) ∧
      (session.importTogether requests).2.Parallels names
        (session'.importTogether requests).2 := by
  have hdrained := drain (hparallel.beginImports requests)
  refine ⟨?_, hdrained.with_engine hdrained.engine rfl⟩
  unfold Session.importTogether
  dsimp only
  rw [hdrained.waiters, List.map_map, List.map_map]
  refine List.map_congr_left (fun waiter _ => ?_)
  obtain ⟨target, requester?, wait⟩ := waiter
  rcases wait with _ | _ | ⟨error | found⟩ <;> rfl

theorem startImport (specifier : String) (referrer? : Option ModuleId) :
    (session'.startImport specifier referrer?).1 = (session.startImport specifier referrer?).1 ∧
      (session.startImport specifier referrer?).2.Parallels names
        (session'.startImport specifier referrer?).2 := by
  obtain ⟨hwaiter, hbegun⟩ := hparallel.engine.beginImport specifier referrer?
  refine ⟨?_, hparallel.with_engine hbegun hparallel.waiters⟩
  unfold Session.startImport
  dsimp only
  rw [hwaiter, hbegun.imports.pending]
  generalize (session.engine.beginImport specifier referrer?).1 = waiter
  obtain ⟨target, requester?, wait⟩ := waiter
  rcases wait with _ | _ | ⟨error | found⟩ <;> rfl

end Parallels

end Session

end Linkage
