import Linkage.Proofs.Runs.Pipelines
import Linkage.Proofs.Runs.Progress

/-!
# Importing a module that has failed

A dynamic import of a module that has failed either waits for a turn, and finds the error, or joins
a pipeline that was begun before.  The run of that pipeline ends with the error, and so does the
import.

* `Machine.Denies` : a registered module has failed, in the middle of a run.
* `Machine.over_of_batch` : the pipelines of a batch, one after the other.
* `Machine.over_of_import` : a dynamic import among others.
* `Machine.ends_import` : it ends if nothing else is in flight.
-/

namespace Linkage

namespace Session

/-- Those who waited before keep their places. -/
theorem waiters_beginImports (session : Session) (requests : List (String × Option ModuleId)) :
    ∃ more, more.length = requests.length ∧
      (session.beginImports requests).waiters = session.waiters ++ more := by
  induction requests generalizing session with
  | nil => exact ⟨[], rfl, (List.append_nil _).symm⟩
  | cons request rest ih =>
      obtain ⟨more, hlength, hmore⟩ := ih { session with
        engine := (session.engine.beginImport request.1 request.2).2
        waiters := session.waiters ++ [(session.engine.beginImport request.1 request.2).1] }
      refine ⟨(session.engine.beginImport request.1 request.2).1 :: more,
        congrArg Nat.succ hlength, ?_⟩
      rw [beginImports_cons, hmore, List.append_assoc]
      rfl

end Session

/-- What waits in the queue stays there when a dynamic import begins. -/
theorem Engine.queue_beginImport (engine : Engine) (specifier : String)
    (requester? : Option ModuleId) :
    engine.imports.queue <+: (engine.beginImport specifier requester?).2.imports.queue := by
  rw [← imports_resolve engine specifier requester?, beginImport_eq]
  generalize engine.attempt (Attempt.resolve specifier requester?) = ended
  obtain ⟨result, asked⟩ := ended
  cases result with
  | error error => exact List.prefix_refl _
  | ok resolved =>
      dsimp only
      split
      · exact List.prefix_refl _
      · split
        · exact List.prefix_refl _
        · exact List.prefix_append _ _

theorem Session.queue_beginImports (session : Session)
    (requests : List (String × Option ModuleId)) :
    session.engine.imports.queue <+: (session.beginImports requests).engine.imports.queue := by
  induction requests generalizing session with
  | nil => exact List.prefix_refl _
  | cons request rest ih =>
      rw [beginImports_cons]
      refine List.IsPrefix.trans ?_ (ih _)
      exact session.engine.queue_beginImport request.1 request.2

/-- The result of a dynamic import of a module that has failed. -/
theorem Engine.conclude_of_failed {engine : Engine} {waiter : Waiter} {ref : RecordRef}
    {record : Record} {error : ModuleError}
    (hregistered : engine.store.Registered waiter.target ref record)
    (herror : record.error? = some error) :
    (engine.conclude waiter).1.wait = .over (.error error) := by
  have hresult : (engine.attempt (Attempt.concludeImport waiter.target waiter.requester?)).1 =
      .error error := by
    unfold Attempt.concludeImport Attempt.registered
    rw [attempt_bind, attempt_bind, attempt_get]
    dsimp only
    rw [hregistered.lookup, hregistered.find]
    dsimp only
    rw [attempt_pure]
    dsimp only
    rw [herror]
    rfl
  unfold conclude
  dsimp only
  rw [hresult]

namespace Machine

/-- The body of a registered module has failed, in the middle of a run. -/
structure Denies (machine : Machine) (id : ModuleId) (ref : RecordRef) (error : ModuleError) :
    Prop where
  living : machine.stage.Living
  closed : machine.session.store.Closed
  lookup : machine.session.store.lookup? id = some ref
  failed : machine.session.store.HasFailed ref error

variable {machine : Machine} {session : Session} {signal : Signal} {id : ModuleId}
  {ref : RecordRef} {error : ModuleError} {place count : Nat} {pipeline : Pipeline}

theorem Denies.after (hdenies : machine.Denies id ref error) (hremembers : machine.Remembers count) :
    (machine.after count).Denies id ref error := by
  have hchain := machine.chain_perform (List.replicate count .step)
  exact ⟨hchain.living hdenies.living, hchain.closed hdenies.living hdenies.closed,
    hchain.lookup hremembers hdenies.lookup, hchain.hasFailed hdenies.living hdenies.failed⟩

/-- While only pipelines are on the stack. -/
theorem Denies.store {stack : List Frame} (hdenies : Denies ⟨session, stack, signal⟩ id ref error)
    (hrunning : stack.filterMap Frame.running? = [])
    (hawaiting : stack.filterMap Frame.awaiting? = []) : session.store.Denies id ref error := by
  refine ⟨?_, hdenies.closed, hdenies.lookup, hdenies.failed⟩
  have hliving := hdenies.living
  unfold stage Session.stage at hliving
  rwa [hrunning, hawaiting] at hliving

/-- The record of the module, also after the modules are touched. -/
theorem Denies.touched {engine : Engine} (hdenies : machine.Denies id ref error)
    (htouches : machine.session.store.Touches engine.store) :
    ∃ record, engine.store.Registered id ref record ∧ record.status = .errored ∧
      record.error? = some error := by
  obtain ⟨record, hrecord, herrored, herror, -⟩ := hdenies.failed
  obtain ⟨record', hregistered', htouched⟩ :=
    Store.touches_registered htouches ⟨hdenies.lookup, hrecord⟩
  exact ⟨record', hregistered', htouched.status.trans herrored, htouched.error.trans herror⟩

/-- A module that has failed has still failed when the modules are touched. -/
theorem Denies.of_touches {machine' : Machine} (hdenies : machine.Denies id ref error)
    (htouches : machine.session.store.Touches machine'.session.store)
    (hstage : machine'.stage = { machine.stage with store := machine'.session.store }) :
    machine'.Denies id ref error := by
  have hchain : Chain machine.stage [] machine'.stage := hstage ▸ .of_touches htouches
  exact ⟨hchain.living hdenies.living, hchain.closed hdenies.living hdenies.closed,
    hchain.lookup nofun hdenies.lookup, hchain.hasFailed hdenies.living hdenies.failed⟩

/-! ## The pipelines of a batch -/

/-- When a batch is over, whoever waits for a pipeline that has failed is told. -/
theorem over_of_notice
    (hwaits : session.waiters[place]?.map (·.wait) = some (.pipeline pipeline.ticket))
    (houtcome : session.engine.imports.outcome? pipeline.ticket =
      some ⟨pipeline.ticket, some error⟩) :
    (step ⟨session, [.batch [], .drain], signal⟩).session.waiters[place]?.map (·.wait) =
      some (.over (.error error)) := by
  obtain ⟨waiter, hwaiter, hwait⟩ := Option.map_eq_some_iff.mp hwaits
  obtain ⟨engine', himports, -, hthen⟩ := Engine.exists_forWaiters Engine.imports_notice
    Engine.touches_notice session.engine hwaiter
  show (session.engine.forWaiters Engine.notice session.waiters).1[place]?.map (·.wait) = _
  rw [hthen, Option.map_some, Engine.notice, hwait]
  dsimp only
  rw [himports, houtcome]

/-- The pipelines of a batch run one after the other; the one of a module that has failed ends with
its error. -/
theorem over_of_batch (rest : List Pipeline) (count : Nat)
    (hdenies : Denies ⟨session, [.batch rest, .drain], signal⟩ pipeline.target ref error)
    (htracks : session.engine.imports.Tracks (rest ++ session.engine.imports.queue))
    (hwaits : session.waiters[place]?.map (·.wait) = some (.pipeline pipeline.ticket))
    (hpends : pipeline ∈ rest ∨ session.engine.imports.outcome? pipeline.ticket =
      some ⟨pipeline.ticket, some error⟩)
    (hdone : (after ⟨session, [.batch rest, .drain], signal⟩ count).stack = [])
    (hremembers : Remembers ⟨session, [.batch rest, .drain], signal⟩ count) :
    (after ⟨session, [.batch rest, .drain], signal⟩ count).session.waiters[place]?.map (·.wait) =
      some (.over (.error error)) := by
  induction rest generalizing session signal count with
  | nil =>
      cases count with
      | zero => cases hdone
      | succ count =>
          rw [after_succ]
          exact over_after count
            (over_of_notice hwaits (hpends.resolve_left List.not_mem_nil))
  | cons first rest ih =>
      cases count with
      | zero => cases hdone
      | succ count =>
          have hruns : step ⟨session, [.batch (first :: rest), .drain], signal⟩ =
            enterRun session [.finish first, .batch rest, .drain] first.target := rfl
          have hlow : ((enterRun session [.finish first, .batch rest, .drain] first.target).after
              count).stack.length ≤ [Frame.finish first, .batch rest, .drain].length := by
            rw [← hruns, ← after_succ, hdone]
            exact Nat.zero_le _
          obtain ⟨taken, htaken, hback⟩ := exists_comesBack hlow
          obtain ⟨more, rfl⟩ := Nat.exists_eq_add_of_le htaken
          obtain ⟨session', reply, hgives, himports, hwaiters⟩ :=
            (minds_enterRun session _ first.target).given hback
          -- the reply is taken by the frame that ends the pipeline
          have hnext : after ⟨session, [.batch (first :: rest), .drain], signal⟩ (taken + 2) =
              step (giving session' [.finish first, .batch rest, .drain] reply) := by
            rw [after_succ', after_succ, hruns, hgives]
          cases more with
          | zero =>
              rw [Nat.add_zero, after_succ, hruns, hgives] at hdone
              cases hdone
          | succ more =>
              have hcount : taken + (more + 1) + 1 = taken + 2 + more := by omega
              rw [hcount, after_add, hnext] at hdone
              rw [hcount, remembers_add, hnext] at hremembers
              rw [hcount, after_add, hnext]
              obtain ⟨hfirst, hrest⟩ := hremembers
              have hdenies' := hdenies.after hfirst
              rw [hnext] at hdenies'
              refine ih more hdenies' ?_ ?_ ?_ hdone hrest
              · show (session'.engine.imports.finish first _).Tracks
                  (rest ++ session'.engine.imports.queue)
                rw [himports]
                exact htracks.finish _
              · show session'.waiters[place]?.map (·.wait) = _
                rw [hwaiters]
                exact hwaits
              · show _ ∨ (session'.engine.imports.finish first _).outcome? pipeline.ticket = _
                rw [Imports.outcome?_finish, himports]
                by_cases hsame : first = pipeline
                · subst hsame
                  refine .inr ?_
                  obtain ⟨hruns', -⟩ := remembers_add.mp (remembers_succ.mp hfirst).2
                  obtain ⟨session'', hyields⟩ :=
                    yields_enterRun (hdenies.store rfl rfl) _ taken hback hruns'
                  have hreply : reply = .error error := by
                    have hsignal := congrArg Machine.signal (hgives.symm.trans hyields)
                    exact Signal.reply.inj hsignal
                  rw [htracks.outcome_eq_none (List.mem_cons_self), if_pos rfl, hreply]
                  rfl
                · refine hpends.imp (fun hmem => ?_) (fun houtcome => by rw [houtcome]; rfl)
                  exact (List.mem_cons.mp hmem).resolve_left (Ne.symm hsame)

/-! ## A dynamic import -/

/-- A dynamic import of a module that has failed waits for a turn, or for a pipeline that was begun
before. -/
theorem waits_beginImport {specifier : String} {requester? : Option ModuleId} {resolved : Resolved}
    (hresolved : (session.attempt (Attempt.resolve specifier requester?)).1 = .ok resolved)
    (htracks : session.engine.imports.Tracks session.engine.imports.queue)
    (hdenies : session.store.Denies resolved.id ref error) :
    (session.engine.beginImport specifier requester?).2.imports = session.engine.imports ∧
      (session.engine.beginImport specifier requester?).1.target = resolved.id ∧
      ((session.engine.beginImport specifier requester?).1.wait = .turn ∨
        ∃ pipeline ∈ session.engine.imports.queue, pipeline.target = resolved.id ∧
          (session.engine.beginImport specifier requester?).1.wait =
            .pipeline pipeline.ticket) := by
  have hresult : (session.engine.attempt (Attempt.resolve specifier requester?)).1 =
      .ok resolved := hresolved
  obtain ⟨record, hregistered, -, herrored, -⟩ := hdenies.registered
  rw [Engine.beginImport_eq]
  rw [Engine.attempt_resolve] at hresult ⊢
  dsimp only at hresult ⊢
  rw [hresult]
  dsimp only
  cases hfound : session.engine.imports.inFlight.find? resolved.id.text with
  | some pipeline =>
      obtain ⟨hmem, htext⟩ := (htracks.inFlight _ _).mp hfound
      refine ⟨rfl, rfl, .inr ⟨pipeline, hmem, ?_, rfl⟩⟩
      generalize resolved.id = id at htext
      cases hid : pipeline.target
      rw [hid] at htext
      cases id
      exact congrArg ModuleId.mk htext
  | none =>
      have hlookup : session.engine.store.lookup? resolved.id = some ref := hdenies.lookup
      have hrecord : session.engine.store.record? ref = some record := hregistered.record
      have hsettled : record.status.isSettled = true := by rw [herrored]; rfl
      dsimp only
      rw [Store.getOrCreate_of_lookup _ hlookup]
      dsimp only
      rw [hrecord, Option.map_some, Option.getD_some, if_pos hsettled]
      exact ⟨rfl, rfl, .inl rfl⟩

/-- If pipelines wait, they begin to run. -/
theorem enterDrain_of_waiting (hwaiting : session.engine.imports.queue ≠ []) (stack : List Frame) :
    enterDrain session stack =
      ⟨{ session with
          engine := (session.engine.prefetchQueue.2.forWaiters Engine.passTurn session.waiters).2
          waiters := (session.engine.prefetchQueue.2.forWaiters Engine.passTurn session.waiters).1 },
        .batch session.engine.prefetchQueue.1 :: .drain :: stack, .go⟩ := by
  unfold enterDrain
  dsimp only
  rw [if_pos (by simpa using hwaiting)]

/-- Whoever waits for a turn is served at once. -/
theorem over_of_turn {waiter : Waiter}
    (hdenies : Denies ⟨session, [.drain], signal⟩ waiter.target ref error)
    (hwaiter : session.waiters[place]? = some waiter) (hturn : waiter.wait = .turn) :
    (enterDrain session []).session.waiters[place]?.map (·.wait) =
      some (.over (.error error)) := by
  obtain ⟨engine, -, htouched, hthen⟩ := Engine.exists_forWaiters Engine.imports_passTurn
    Engine.touches_passTurn session.engine.prefetchQueue.2 hwaiter
  have hserved : (enterDrain session []).session.waiters =
      (session.engine.prefetchQueue.2.forWaiters Engine.passTurn session.waiters).1 := by
    unfold enterDrain
    dsimp only
    split <;> rfl
  obtain ⟨record, hregistered, -, herror⟩ :=
    hdenies.touched (session.engine.touches_prefetchQueue.trans htouched)
  rw [hserved, hthen, Option.map_some, Engine.passTurn, hturn]
  dsimp only
  rw [Engine.conclude_of_failed hregistered herror]

/-- Whoever waits for a pipeline still does when the sources are there. -/
theorem waits_of_pipeline {engine : Engine} {waiter : Waiter} {waiters : List Waiter} {ticket : Nat}
    (hwaiter : waiters[place]? = some waiter) (hwait : waiter.wait = .pipeline ticket) :
    (engine.forWaiters Engine.passTurn waiters).1[place]?.map (·.wait) =
      some (.pipeline ticket) := by
  obtain ⟨engine', -, -, hthen⟩ := Engine.exists_forWaiters Engine.imports_passTurn
    Engine.touches_passTurn engine hwaiter
  rw [hthen, Option.map_some, Engine.passTurn, hwait]
  dsimp only
  rw [hwait]

/-- Whoever waits for a module that has failed is given its error. -/
theorem over_of_drain {waiter : Waiter} (count : Nat)
    (hdenies : Denies ⟨session, [.drain], signal⟩ waiter.target ref error)
    (htracks : session.engine.imports.Tracks session.engine.imports.queue)
    (hwaiter : session.waiters[place]? = some waiter)
    (hwait : waiter.wait = .turn ∨ ∃ pipeline ∈ session.engine.imports.queue,
      pipeline.target = waiter.target ∧ waiter.wait = .pipeline pipeline.ticket)
    (hdone : (after ⟨session, [.drain], signal⟩ count).stack = [])
    (hremembers : Remembers ⟨session, [.drain], signal⟩ count) :
    (after ⟨session, [.drain], signal⟩ count).session.waiters[place]?.map (·.wait) =
      some (.over (.error error)) := by
  cases count with
  | zero => cases hdone
  | succ count =>
      have hsteps : step ⟨session, [.drain], signal⟩ = enterDrain session [] := rfl
      rw [Nat.add_comm, remembers_add] at hremembers
      obtain ⟨hfirst, hrest⟩ := hremembers
      have hdenies' := hdenies.after hfirst
      rw [after_succ, after_zero, hsteps] at hrest hdenies'
      rw [after_succ, hsteps] at hdone ⊢
      rcases hwait with hturn | ⟨pipeline, hmem, htarget, hpipeline⟩
      · exact over_after count (over_of_turn hdenies hwaiter hturn)
      · obtain ⟨record, hregistered, herrored, -⟩ := 
          hdenies.touched (Relation.ReflTransGen.refl : session.store.Touches session.engine.store)
        have hsettled : record.status.isSettled = true := by rw [herrored]; rfl
        have hready : pipeline ∈ session.engine.prefetchQueue.1 := by
          rw [Engine.prefetchQueue_eq]
          exact Engine.mem_prefetchBatch _ [] session.engine.imports.queue hmem
            (htarget ▸ hregistered) hsettled
        have hstep := enterDrain_of_waiting (List.ne_nil_of_mem hmem) []
        rw [hstep] at hdone hrest hdenies' ⊢
        rw [← htarget] at hdenies'
        exact over_of_batch _ count hdenies' (tracks_passTurn htracks)
          (waits_of_pipeline hwaiter hpipeline) (.inl hready) hdone hrest

variable {specifier : String} {requester? : Option ModuleId} {resolved : Resolved}

/-- Dynamic imports begin and are waited for. -/
def importing (session : Session) (requests : List (String × Option ModuleId)) : Machine :=
  ⟨session.beginImports requests, [.drain], .go⟩

/-- What one dynamic import among others waits for. -/
theorem waits_beginImports (before rest : List (String × Option ModuleId))
    (hdenies : (idle session).Denies resolved.id ref error)
    (htracks : session.engine.imports.Tracks session.engine.imports.queue)
    (hresolved : ((session.beginImports before).attempt
      (Attempt.resolve specifier requester?)).1 = .ok resolved) :
    let asked := session.beginImports (before ++ (specifier, requester?) :: rest)
    (importing session (before ++ (specifier, requester?) :: rest)).Denies resolved.id ref error ∧
      ∃ waiter, asked.waiters[session.waiters.length + before.length]? = some waiter ∧
        waiter.target = resolved.id ∧ (waiter.wait = .turn ∨
          ∃ pipeline ∈ asked.engine.imports.queue, pipeline.target = waiter.target ∧
            waiter.wait = .pipeline pipeline.ticket) := by
  intro asked
  have hmid : (idle (session.beginImports before)).Denies resolved.id ref error :=
    hdenies.of_touches (session.touches_beginImports before) rfl
  have htracks' := tracks_beginImports before htracks
  obtain ⟨-, htarget, hwait⟩ := waits_beginImport hresolved htracks' (hmid.store rfl rfl)
  obtain ⟨first, hfirst, hbefore⟩ := session.waiters_beginImports before
  have hasked : asked = Session.beginImports { session.beginImports before with
        engine := ((session.beginImports before).engine.beginImport specifier requester?).2
        waiters := (session.beginImports before).waiters ++
          [((session.beginImports before).engine.beginImport specifier requester?).1] } rest := by
    rw [← Session.beginImports_cons, ← Session.beginImports_append]
  refine ⟨hdenies.of_touches (session.touches_beginImports _) rfl,
    ((session.beginImports before).engine.beginImport specifier requester?).1, ?_, htarget, ?_⟩
  · obtain ⟨more, -, hmore⟩ := Session.waiters_beginImports { session.beginImports before with
      engine := ((session.beginImports before).engine.beginImport specifier requester?).2
      waiters := (session.beginImports before).waiters ++
        [((session.beginImports before).engine.beginImport specifier requester?).1] } rest
    rw [hasked, hmore, hbefore, ← hfirst, ← List.length_append, List.append_assoc,
      List.getElem?_append_right (Nat.le_refl _), Nat.sub_self]
    rfl
  · refine hwait.imp_right (fun ⟨pipeline, hmem, hpipeline, hticket⟩ => ?_)
    refine ⟨pipeline, ?_, hpipeline.trans htarget.symm, hticket⟩
    have hqueue := (session.beginImports before).queue_beginImports ((specifier, requester?) :: rest)
    rw [← Session.beginImports_append] at hqueue
    exact hqueue.mem hmem

theorem result_of_over (hover : machine.session.waiters[place]?.map (·.wait) =
    some (.over (.error error))) : machine.session.results[place]? = some (.error error) := by
  obtain ⟨ended, hended, hresult⟩ := Option.map_eq_some_iff.mp hover
  rw [Session.results, List.getElem?_map, hended, Option.map_some, hresult]
  rfl

/-- **A dynamic import of a module that has failed ends with its error.** -/
theorem over_of_import (before rest : List (String × Option ModuleId)) (count : Nat)
    (hdenies : (idle session).Denies resolved.id ref error)
    (htracks : session.engine.imports.Tracks session.engine.imports.queue)
    (hresolved : ((session.beginImports before).attempt
      (Attempt.resolve specifier requester?)).1 = .ok resolved)
    (hdone : ((importing session (before ++ (specifier, requester?) :: rest)).after count).stack =
      [])
    (hremembers : (importing session (before ++ (specifier, requester?) :: rest)).Remembers
      count) :
    ((importing session (before ++ (specifier, requester?) :: rest)).after count).session.results[
      session.waiters.length + before.length]? = some (.error error) := by
  obtain ⟨hasked, waiter, hwaiter, htarget, hwait⟩ :=
    waits_beginImports before rest hdenies htracks hresolved
  rw [← htarget] at hasked
  have hover := over_of_drain count hasked (tracks_beginImports _ htracks) hwaiter hwait hdone
    hremembers
  exact result_of_over hover

/-! ## When nothing else is in flight -/

/-- While no body runs and nothing is due, nothing is half way. -/
theorem Attends.rests (hattends : machine.Attends) (hrunning : machine.running = [])
    (hdue : machine.due = []) : machine.session.store.Rests :=
  ⟨hdue ▸ hattends.served, fun _ hbegun => hattends.settled hrunning hbegun⟩

/-- A batch of one pipeline of a module that has failed comes to an end. -/
theorem ends_batch (place : Nat)
    (hdenies : Denies ⟨session, [.batch [pipeline], .drain], signal⟩ pipeline.target ref error)
    (hattends : Attends ⟨session, [.batch [pipeline], .drain], signal⟩)
    (hnone : session.engine.imports.outcome? pipeline.ticket = none)
    (hqueue : session.engine.imports.queue = []) :
    ∃ count, (after ⟨session, [.batch [pipeline], .drain], signal⟩ count).stack = [] ∧
      (session.waiters[place]?.map (·.wait) = some (.pipeline pipeline.ticket) →
        (after ⟨session, [.batch [pipeline], .drain], signal⟩ count).session.waiters[place]?.map
          (·.wait) = some (.over (.error error))) := by
  obtain ⟨count, hended⟩ := after_enterRun_of_rests (hdenies.store rfl rfl)
    (hattends.rests rfl rfl) [.finish pipeline, .batch [], .drain]
  let imports := session.engine.imports.finish pipeline (some error)
  let session' : Session := { session with engine := { session.engine with imports } }
  -- the run ends, then the pipeline, then the batch, and nothing is left to drain
  have hfinished : after ⟨session, [.batch [pipeline], .drain], signal⟩ (count + 2) =
      ⟨session', [.batch [], .drain], .go⟩ := by
    have hruns : after ⟨session, [.batch [pipeline], .drain], signal⟩ (count + 1) =
        giving session [.finish pipeline, .batch [], .drain] (.error error) := hended
    rw [after_succ', hruns]
    rfl
  have hqueue' : (session'.engine.forWaiters Engine.notice session'.waiters).2.imports.queue =
      [] := by
    rw [Engine.imports_forWaiters Engine.imports_notice Engine.touches_notice]
    exact hqueue
  refine ⟨count + 4, ?_, fun hwaits => ?_⟩
  · rw [after_succ', after_succ', hfinished]
    show (enterDrain { session' with
      engine := (session'.engine.forWaiters Engine.notice session'.waiters).2
      waiters := (session'.engine.forWaiters Engine.notice session'.waiters).1 } []).stack = []
    unfold enterDrain
    dsimp only
    rw [hqueue']
    rfl
  · have houtcome : imports.outcome? pipeline.ticket = some ⟨pipeline.ticket, some error⟩ := by
      rw [Imports.outcome?_finish, hnone, if_pos rfl]
      rfl
    have hover : (step ⟨session', [.batch [], .drain], .go⟩).session.waiters[place]?.map (·.wait) =
        some (.over (.error error)) := over_of_notice hwaits houtcome
    rw [after_succ', after_succ', hfinished]
    exact over_after 1 hover

/-- Whoever waits for a module that has failed is given its error if no other module is in
flight. -/
theorem ends_drain {waiter : Waiter}
    (hdenies : Denies ⟨session, [.drain], signal⟩ waiter.target ref error)
    (hattends : Attends ⟨session, [.drain], signal⟩)
    (htracks : session.engine.imports.Tracks session.engine.imports.queue)
    (hwaiter : session.waiters[place]? = some waiter)
    (hwait : waiter.wait = .turn ∨ ∃ pipeline ∈ session.engine.imports.queue,
      pipeline.target = waiter.target ∧ waiter.wait = .pipeline pipeline.ticket)
    (hown : ∀ pipeline ∈ session.engine.imports.queue, pipeline.target = waiter.target) :
    ∃ count, (after ⟨session, [.drain], signal⟩ count).stack = [] ∧
      (after ⟨session, [.drain], signal⟩ count).session.waiters[place]?.map (·.wait) =
        some (.over (.error error)) := by
  have hsteps : step ⟨session, [.drain], signal⟩ = enterDrain session [] := rfl
  have hremembers : Remembers ⟨session, [.drain], signal⟩ 1 := by
    simp [Remembers, log, marks, stepMarks]
  have hdenies' := hdenies.after hremembers
  have hattends' := attends_step hdenies.living hdenies.closed hattends
  have htracks' := tracks_passTurn htracks
  rw [after_succ, after_zero, hsteps] at hdenies'
  rw [hsteps] at hattends'
  cases hqueue : session.engine.imports.queue with
  | nil =>
      -- nobody runs, so it waits for a turn
      have hturn : waiter.wait = .turn := by
        refine hwait.resolve_right ?_
        rintro ⟨pipeline, hmem, -⟩
        rw [hqueue] at hmem
        cases hmem
      refine ⟨1, ?_, over_of_turn hdenies hwaiter hturn⟩
      rw [after_succ, after_zero, hsteps]
      unfold enterDrain
      dsimp only
      rw [hqueue]
      rfl
  | cons pipeline rest =>
      have htarget : pipeline.target = waiter.target := hown pipeline (hqueue ▸ List.mem_cons_self)
      -- two pipelines would be of two modules
      obtain rfl : rest = [] := by
        refine List.eq_nil_iff_forall_not_mem.mpr (fun other hother => ?_)
        rw [hqueue] at htracks hown
        have hsame := htracks.eq_of_target List.mem_cons_self (List.mem_cons_of_mem _ hother)
          (by rw [htarget, hown other (List.mem_cons_of_mem _ hother)])
        have hnodup := (List.nodup_cons.mp htracks.nodup).1
        exact hnodup (List.mem_map.mpr ⟨other, hother, by rw [hsame]⟩)
      obtain ⟨record, hregistered, herrored, -⟩ := hdenies.touched
        (Relation.ReflTransGen.refl : session.store.Touches session.engine.store)
      have hsettled : record.status.isSettled = true := by rw [herrored]; rfl
      have hready : session.engine.prefetchQueue = ([pipeline],
          { session.engine with imports := { session.engine.imports with queue := [] } }) := by
        have hfetched : Engine.attempt
            { session.engine with imports := { session.engine.imports with queue := [] } }
            (Attempt.prefetch pipeline.target) = (.ok (),
            { session.engine with imports := { session.engine.imports with queue := [] } }) :=
          Engine.attempt_prefetch_of_settled (htarget ▸ hregistered) hsettled
        rw [Engine.prefetchQueue_eq, hqueue, List.foldl_cons, List.foldl_nil, Engine.prefetchOne]
        dsimp only
        rw [hfetched]
        rfl
      have hwaiting : session.engine.imports.queue ≠ [] := by simp [hqueue]
      have hstarts := enterDrain_of_waiting hwaiting []
      have hqueue' : (session.engine.prefetchQueue.2.forWaiters Engine.passTurn
          session.waiters).2.imports.queue = [] := by
        rw [Engine.imports_forWaiters Engine.imports_passTurn Engine.touches_passTurn, hready]
      have hnone : (session.engine.prefetchQueue.2.forWaiters Engine.passTurn
          session.waiters).2.imports.outcome? pipeline.ticket = none :=
        htracks'.outcome_eq_none (by simp [hready])
      rw [hstarts] at hdenies' hattends' hsteps
      rw [← htarget] at hdenies'
      have hbatch : session.engine.prefetchQueue.1 = [pipeline] := by rw [hready]
      rw [hbatch] at hdenies' hattends' hsteps
      obtain ⟨count, hstack, hover⟩ := ends_batch place hdenies' hattends' hnone hqueue'
      refine ⟨count + 1, ?_, ?_⟩
      · rw [after_succ, hsteps]
        exact hstack
      · rw [after_succ, hsteps]
        rcases hwait with hturn | ⟨other, hmem, -, hother⟩
        · refine over_after count ?_
          rw [← hsteps]
          exact over_of_turn hdenies hwaiter hturn
        · rw [hqueue, List.mem_singleton] at hmem
          subst hmem
          exact hover (waits_of_pipeline hwaiter hother)

/-- **A dynamic import of a module that has failed comes to an end if no other module is in
flight.** -/
theorem ends_import
    (hdenies : (idle session).Denies resolved.id ref error)
    (htracks : session.engine.imports.Tracks session.engine.imports.queue)
    (hattends : (importing session [(specifier, requester?)]).Attends)
    (hresolved : (session.attempt (Attempt.resolve specifier requester?)).1 = .ok resolved)
    (hown : ∀ pipeline ∈ session.engine.imports.queue, pipeline.target = resolved.id) :
    ∃ count, ((importing session [(specifier, requester?)]).after count).stack = [] ∧
      ((importing session [(specifier, requester?)]).after count).session.results[
        session.waiters.length]? = some (.error error) := by
  obtain ⟨himports, -, -⟩ := waits_beginImport hresolved htracks (hdenies.store rfl rfl)
  obtain ⟨hasked, waiter, hwaiter, htarget, hwait⟩ :=
    waits_beginImports [] [] hdenies htracks hresolved
  have hsame : (session.beginImports [(specifier, requester?)]).engine.imports =
      session.engine.imports := himports
  have htracks' := tracks_beginImports [(specifier, requester?)] htracks
  rw [← htarget] at hasked hown
  rw [← hsame] at hown
  obtain ⟨count, hstack, hover⟩ := ends_drain hasked hattends htracks' hwaiter hwait hown
  exact ⟨count, hstack, result_of_over hover⟩

end Machine

end Linkage
