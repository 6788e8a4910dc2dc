import Linkage.Proofs.Engine.Importing
import Linkage.Proofs.Renaming.Attempts

/-!
# The pipelines of an engine

Every pipeline that has not ended is found under the text of its target, and only there; no two have
one ticket, and none has a ticket that was used before.

* `Imports.Tracks` : the dynamic imports of an engine and its unfinished pipelines.
* `Imports.Tracks.start`, `Imports.Tracks.finish` : a pipeline begins or ends.
* `Engine.tracks_beginImport`, `Engine.tracks_prefetchQueue` : what an engine does.
-/

namespace Linkage

/-- What is known of the dynamic imports if these pipelines have not ended. -/
structure Imports.Tracks (imports : Imports) (unfinished : List Pipeline) : Prop where
  inFlight : ∀ text pipeline, imports.inFlight.find? text = some pipeline ↔
    pipeline ∈ unfinished ∧ pipeline.target.text = text
  nodup : (unfinished.map (·.ticket)).Nodup
  issued : ∀ pipeline ∈ unfinished, pipeline.ticket < imports.issued
  ended : ∀ outcome ∈ imports.outcomes, outcome.ticket < imports.issued ∧
    ∀ pipeline ∈ unfinished, outcome.ticket ≠ pipeline.ticket

/-- How a pipeline has ended is known from then on. -/
theorem Imports.outcome?_finish (imports : Imports) (pipeline : Pipeline)
    (error? : Option ModuleError) (ticket : Nat) :
    (imports.finish pipeline error?).outcome? ticket =
      (imports.outcome? ticket).or
        (if pipeline.ticket = ticket then some ⟨pipeline.ticket, error?⟩ else none) := by
  unfold Imports.outcome? Imports.finish
  dsimp only
  rw [List.find?_append]
  by_cases hticket : pipeline.ticket = ticket <;> simp [hticket]

namespace Imports.Tracks

variable {imports : Imports} {unfinished unfinished' : List Pipeline} {pipeline : Pipeline}

theorem empty : Imports.empty.Tracks [] where
  inFlight _ _ := iff_of_false nofun nofun
  nodup := List.nodup_nil
  issued := nofun
  ended := nofun

theorem perm (htracks : imports.Tracks unfinished) (hperm : unfinished.Perm unfinished') :
    imports.Tracks unfinished' where
  inFlight text pipeline := by rw [htracks.inFlight, hperm.mem_iff]
  nodup := (hperm.map _).nodup_iff.mp htracks.nodup
  issued pipeline hmem := htracks.issued pipeline (hperm.mem_iff.mpr hmem)
  ended outcome houtcome :=
    ⟨(htracks.ended outcome houtcome).1,
      fun pipeline hmem => (htracks.ended outcome houtcome).2 pipeline (hperm.mem_iff.mpr hmem)⟩

/-- What waits in the queue is not looked at. -/
theorem queue (htracks : imports.Tracks unfinished) (queue : List Pipeline) :
    Imports.Tracks { imports with queue } unfinished := ⟨htracks.1, htracks.2, htracks.3, htracks.4⟩

/-- A pipeline has no outcome before it ends. -/
theorem outcome_eq_none (htracks : imports.Tracks unfinished) (hmem : pipeline ∈ unfinished) :
    imports.outcome? pipeline.ticket = none := by
  refine List.find?_eq_none.mpr (fun outcome houtcome => ?_)
  simpa using (htracks.ended outcome houtcome).2 pipeline hmem

/-- Pipelines that have not ended are of different modules. -/
theorem eq_of_target (htracks : imports.Tracks unfinished) {other : Pipeline}
    (hmem : pipeline ∈ unfinished) (hother : other ∈ unfinished)
    (htarget : pipeline.target.text = other.target.text) : pipeline = other := by
  have hfound := (htracks.inFlight _ _).mpr ⟨hmem, htarget⟩
  exact Option.some.inj (hfound.symm.trans ((htracks.inFlight _ _).mpr ⟨hother, rfl⟩))

/-- If no pipeline is in flight, none is unfinished. -/
theorem eq_nil (htracks : imports.Tracks unfinished) (hnone : imports.pending = 0) :
    unfinished = [] := by
  refine List.eq_nil_iff_forall_not_mem.mpr (fun pipeline hmem => ?_)
  have hfound := (htracks.inFlight _ _).mpr ⟨hmem, rfl⟩
  have hentries : imports.inFlight.entries = [] := List.length_eq_zero_iff.mp hnone
  rw [Table.find?, hentries] at hfound
  cases hfound

/-- A pipeline begins for a module that has none. -/
theorem start (htracks : imports.Tracks unfinished) {target : ModuleId}
    (hnone : imports.inFlight.find? target.text = none) :
    (imports.start target).2.Tracks (unfinished ++ [(imports.start target).1]) := by
  have hnew : ∀ other ∈ unfinished, other.target.text ≠ target.text := by
    intro other hother htext
    cases hnone.symm.trans ((htracks.inFlight _ _).mpr ⟨hother, htext⟩)
  refine ⟨fun text pipeline => ?_, ?_, ?_, ?_⟩
  · show (imports.inFlight.insert target.text ⟨imports.issued, target⟩).find? text = _ ↔ _
    rw [Table.find?_insert, List.mem_append, List.mem_singleton]
    by_cases htext : text = target.text
    · subst htext
      rw [if_pos rfl, Option.some_inj]
      constructor
      · rintro rfl
        exact ⟨.inr rfl, rfl⟩
      · rintro ⟨hmem | rfl, htarget⟩
        · exact absurd htarget (hnew pipeline hmem)
        · rfl
    · rw [if_neg htext, htracks.inFlight]
      refine and_congr_left (fun htarget => (or_iff_left ?_).symm)
      rintro rfl
      exact htext htarget.symm
  · rw [List.map_append, List.nodup_append]
    refine ⟨htracks.nodup, List.pairwise_singleton _ _, ?_⟩
    rintro ticket hticket _ hlast rfl
    obtain ⟨other, hother, rfl⟩ := List.mem_map.mp hticket
    have hless := htracks.issued other hother
    have hsame : other.ticket = imports.issued := List.mem_singleton.mp hlast
    omega
  · intro pipeline hmem
    show pipeline.ticket < imports.issued + 1
    rcases List.mem_append.mp hmem with hmem | hmem
    · exact Nat.lt_succ_of_lt (htracks.issued pipeline hmem)
    · rw [List.mem_singleton.mp hmem]
      exact Nat.lt_succ_self _
  · intro outcome houtcome
    obtain ⟨hissued, hother⟩ := htracks.ended outcome houtcome
    refine ⟨Nat.lt_succ_of_lt hissued, fun pipeline hmem => ?_⟩
    rcases List.mem_append.mp hmem with hmem | hmem
    · exact hother pipeline hmem
    · rw [List.mem_singleton.mp hmem]
      exact Nat.ne_of_lt hissued

/-- A pipeline ends. -/
theorem finish (htracks : imports.Tracks (pipeline :: unfinished)) (error? : Option ModuleError) :
    (imports.finish pipeline error?).Tracks unfinished := by
  obtain ⟨hticket, hnodup⟩ := List.nodup_cons.mp htracks.nodup
  have hmem : ∀ other ∈ unfinished, other ∈ pipeline :: unfinished :=
    fun other hother => List.mem_cons_of_mem _ hother
  have hnot : pipeline ∉ unfinished := fun hpipeline => hticket (List.mem_map_of_mem hpipeline)
  refine ⟨fun text other => ?_, hnodup, fun other hother => htracks.issued other (hmem other hother),
    ?_⟩
  · show (imports.inFlight.erase pipeline.target.text).find? text = _ ↔ _
    rw [Table.find?_erase]
    by_cases htext : text = pipeline.target.text
    · rw [if_pos htext]
      refine iff_of_false nofun ?_
      rintro ⟨hother, htarget⟩
      have hsame := htracks.eq_of_target (hmem other hother) List.mem_cons_self
        (htarget.trans htext)
      exact hnot (hsame ▸ hother)
    · rw [if_neg htext, htracks.inFlight, List.mem_cons]
      refine and_congr_left (fun htarget => or_iff_right ?_)
      rintro rfl
      exact htext htarget.symm
  · intro outcome houtcome
    rcases List.mem_append.mp houtcome with hbefore | hlast
    · obtain ⟨hissued, hothers⟩ := htracks.ended outcome hbefore
      exact ⟨hissued, fun other hother => hothers other (hmem other hother)⟩
    · rw [List.mem_singleton.mp hlast]
      refine ⟨htracks.issued pipeline List.mem_cons_self, fun other hother hsame => ?_⟩
      exact hticket (List.mem_map.mpr ⟨other, hother, hsame.symm⟩)

end Imports.Tracks

/-- What is registered stays so. -/
theorem Store.touches_registered {store store' : Store} (htouches : store.Touches store')
    {id : ModuleId} {ref : RecordRef} {record : Record}
    (hregistered : store.Registered id ref record) :
    ∃ record', store'.Registered id ref record' ∧ record.Touched record' := by
  induction htouches with
  | refl => exact ⟨record, hregistered, .refl record⟩
  | tail _ htouch ih =>
      obtain ⟨middle, hmiddle, htouched⟩ := ih
      obtain ⟨record', hregistered', htouched'⟩ := htouch.registered hmiddle
      exact ⟨record', hregistered', htouched.trans htouched'⟩

namespace Engine

variable (engine : Engine)

/-- What a dynamic import does when it begins. -/
theorem beginImport_eq (specifier : String) (requester? : Option ModuleId) :
    engine.beginImport specifier requester? =
      match engine.attempt (Attempt.resolve specifier requester?) with
      | (.error error, asked) => (⟨default, requester?, .over (.error error)⟩, asked)
      | (.ok resolved, asked) =>
        match asked.imports.inFlight.find? resolved.id.text with
        | some pipeline => (⟨resolved.id, requester?, .pipeline pipeline.ticket⟩, asked)
        | none =>
          let (ref, store) := asked.store.getOrCreate resolved.id resolved.format
          if ((store.record? ref).map (·.status.isSettled)).getD false then
            (⟨resolved.id, requester?, .turn⟩, { asked with store })
          else
            (⟨resolved.id, requester?, .pipeline asked.imports.issued⟩,
              { asked with store, imports := (asked.imports.start resolved.id).2 }) := by
  unfold beginImport Attempt.beginImport
  rw [attempt_bind]
  generalize engine.attempt (Attempt.resolve specifier requester?) = ended
  obtain ⟨result, asked⟩ := ended
  cases result with
  | error error => rfl
  | ok resolved =>
      dsimp only
      unfold Attempt.joinOrStart
      rw [attempt_bind, attempt_bind, attempt_get]
      dsimp only
      cases asked.imports.inFlight.find? resolved.id.text with
      | some pipeline => rfl
      | none =>
          dsimp only
          rw [attempt_bind, attempt_onStore]
          dsimp only
          rw [attempt_bind, attempt_get]
          dsimp only
          generalize ((asked.store.getOrCreate resolved.id resolved.format).2.record?
            (asked.store.getOrCreate resolved.id resolved.format).1) = found
          generalize (found.map (·.status.isSettled)).getD false = settled
          cases settled <;> rfl

variable {engine}

theorem imports_resolve (engine : Engine) (specifier : String) (referrer? : Option ModuleId) :
    (engine.attempt (Attempt.resolve specifier referrer?)).2.imports = engine.imports := by
  rw [attempt_resolve]

/-- A dynamic import begins: it joins a pipeline or starts one, or waits for none. -/
theorem tracks_beginImport (htracks : engine.imports.Tracks engine.imports.queue)
    (specifier : String) (requester? : Option ModuleId) :
    (engine.beginImport specifier requester?).2.imports.Tracks
      (engine.beginImport specifier requester?).2.imports.queue := by
  rw [← imports_resolve engine specifier requester?] at htracks
  rw [beginImport_eq]
  generalize engine.attempt (Attempt.resolve specifier requester?) = ended at htracks
  obtain ⟨result, asked⟩ := ended
  cases result with
  | error error => exact htracks
  | ok resolved =>
      dsimp only
      split
      · exact htracks
      · rename_i hnone
        split
        · exact htracks
        · exact htracks.start hnone

/-! ## Fetching for all that wait -/

/-- Nothing is fetched for a module that has settled. -/
theorem attempt_prefetch_of_settled {id : ModuleId} {ref : RecordRef} {record : Record}
    (hregistered : engine.store.Registered id ref record)
    (hsettled : record.status.isSettled = true) :
    engine.attempt (Attempt.prefetch id) = (.ok (), engine) := by
  have hnone : engine.attempt (Attempt.unsettled [id]) = (.ok [], engine) := by
    unfold Attempt.unsettled
    rw [attempt_bind, attempt_get]
    dsimp only
    rw [attempt_pure, List.filterMap_cons, hregistered.lookup, hregistered.find]
    dsimp only
    rw [if_pos hsettled]
    rfl
  unfold Attempt.prefetch
  rw [attempt_bind, attempt_get]
  dsimp only
  unfold Attempt.prefetchLevels
  rw [if_neg (by simp), attempt_bind, hnone]
  dsimp only
  unfold Engine.reach
  rw [attempt_bind]
  rfl

/-- Fetch for one pipeline of a batch. -/
def prefetchOne (found : List Pipeline × Engine) (pipeline : Pipeline) : List Pipeline × Engine :=
  match found.2.attempt (Attempt.prefetch pipeline.target) with
  | (.ok (), engine) => (found.1 ++ [pipeline], engine)
  | (.error error, engine) =>
      (found.1, { engine with imports := engine.imports.finish pipeline (some error) })

theorem prefetchQueue_eq (engine : Engine) : engine.prefetchQueue =
    engine.imports.queue.foldl prefetchOne
      ([], { engine with imports := { engine.imports with queue := [] } }) := rfl

theorem prefetchOne_cases (ready : List Pipeline) (engine : Engine) (pipeline : Pipeline) :
    ∃ engine' : Engine, engine'.imports = engine.imports ∧
      engine.store.Touches engine'.store ∧
      (((engine.attempt (Attempt.prefetch pipeline.target)).1 = .ok () ∧
        prefetchOne (ready, engine) pipeline = (ready ++ [pipeline], engine')) ∨
      ∃ error, (engine.attempt (Attempt.prefetch pipeline.target)).1 = .error error ∧
        prefetchOne (ready, engine) pipeline =
          (ready, { engine' with imports := engine'.imports.finish pipeline (some error) })) := by
  have himports : (engine.attempt (Attempt.prefetch pipeline.target)).2.imports = engine.imports :=
    (Attempt.prefetch_mirrors pipeline.target).keeps
  have htouches := (Attempt.quiet_prefetch pipeline.target).touches engine
  unfold prefetchOne
  dsimp only
  generalize engine.attempt (Attempt.prefetch pipeline.target) = ended at himports htouches
  obtain ⟨result, engine'⟩ := ended
  refine ⟨engine', himports, htouches, ?_⟩
  cases result with
  | ok value => exact .inl ⟨rfl, rfl⟩
  | error error => exact .inr ⟨error, rfl, rfl⟩

/-- The pipelines of a batch whose sources are there stay unfinished, the others end. -/
theorem tracks_prefetchBatch (engine : Engine) (ready batch : List Pipeline)
    (htracks : engine.imports.Tracks (ready ++ batch)) (hqueue : engine.imports.queue = []) :
    let found := batch.foldl prefetchOne (ready, engine)
    found.2.imports.Tracks found.1 ∧ found.2.imports.queue = [] ∧
      engine.store.Touches found.2.store ∧ ready <+: found.1 := by
  induction batch generalizing engine ready with
  | nil =>
      rw [List.append_nil] at htracks
      exact ⟨htracks, hqueue, .refl, List.prefix_refl ready⟩
  | cons pipeline rest ih =>
      rw [List.foldl_cons]
      obtain ⟨engine', himports, htouches, ⟨-, hnext⟩ | ⟨error, -, hnext⟩⟩ :=
        prefetchOne_cases ready engine pipeline
      · rw [hnext]
        obtain ⟨htracks', hqueue', htouches', hready⟩ := ih engine' (ready ++ [pipeline])
          (by rwa [himports, List.append_assoc]) (by rw [himports, hqueue])
        exact ⟨htracks', hqueue', htouches.trans htouches',
          (List.prefix_append ready [pipeline]).trans hready⟩
      · rw [hnext]
        have hends := htracks.perm List.perm_middle
        obtain ⟨htracks', hqueue', htouches', hready⟩ := ih
          { engine' with imports := engine'.imports.finish pipeline (some error) } ready
          (by rw [himports]; exact hends.finish (some error))
          (by rw [himports]; exact hqueue)
        exact ⟨htracks', hqueue', htouches.trans htouches', hready⟩

/-- All that wait begin to run, or end. -/
theorem tracks_prefetchQueue (htracks : engine.imports.Tracks engine.imports.queue) :
    engine.prefetchQueue.2.imports.Tracks engine.prefetchQueue.1 ∧
      engine.prefetchQueue.2.imports.queue = [] ∧
      engine.store.Touches engine.prefetchQueue.2.store := by
  obtain ⟨htracks', hqueue', htouches, -⟩ := tracks_prefetchBatch
    { engine with imports := { engine.imports with queue := [] } } [] engine.imports.queue
    (htracks.queue []) rfl
  exact ⟨htracks', hqueue', htouches⟩

/-- A pipeline whose module has settled begins to run. -/
theorem mem_prefetchBatch (engine : Engine) (ready batch : List Pipeline) {pipeline : Pipeline}
    (hmem : pipeline ∈ ready ++ batch) {ref : RecordRef} {record : Record}
    (hregistered : engine.store.Registered pipeline.target ref record)
    (hsettled : record.status.isSettled = true) :
    pipeline ∈ (batch.foldl prefetchOne (ready, engine)).1 := by
  induction batch generalizing engine ready record with
  | nil => simpa using hmem
  | cons first rest ih =>
      rw [List.foldl_cons]
      obtain ⟨engine', -, htouches, hcases⟩ := prefetchOne_cases ready engine first
      obtain ⟨record', hregistered', htouched⟩ := Store.touches_registered htouches hregistered
      have hsettled' : record'.status.isSettled = true := by rwa [htouched.status]
      rcases hcases with ⟨-, hnext⟩ | ⟨error, hfailed, hnext⟩
      · rw [hnext]
        exact ih engine' (ready ++ [first]) (by simpa using hmem) hregistered' hsettled'
      · rw [hnext]
        refine ih _ ready ?_ hregistered' hsettled'
        -- fetching for the pipeline itself does not fail
        have hother : pipeline ≠ first := by
          rintro rfl
          rw [attempt_prefetch_of_settled hregistered hsettled] at hfailed
          cases hfailed
        simpa [hother] using hmem

/-! ## Those who wait -/

theorem imports_conclude (engine : Engine) (waiter : Waiter) :
    (engine.conclude waiter).2.imports = engine.imports :=
  (Attempt.concludeImport_mirrors waiter.target waiter.requester?).keeps

theorem imports_passTurn (engine : Engine) (waiter : Waiter) :
    (engine.passTurn waiter).2.imports = engine.imports := by
  unfold passTurn
  split
  · exact imports_conclude engine waiter
  · rfl

theorem imports_notice (engine : Engine) (waiter : Waiter) :
    (engine.notice waiter).2.imports = engine.imports := by
  unfold notice
  split
  · split
    · rfl
    · rfl
    · exact imports_conclude engine waiter
  · rfl

/-- Do something for one of those who wait. -/
def serveOne (f : Engine → Waiter → Waiter × Engine) (served : List Waiter × Engine)
    (waiter : Waiter) : List Waiter × Engine :=
  (served.1 ++ [(f served.2 waiter).1], (f served.2 waiter).2)

theorem forWaiters_eq (engine : Engine) (f : Engine → Waiter → Waiter × Engine)
    (waiters : List Waiter) :
    engine.forWaiters f waiters = waiters.foldl (serveOne f) ([], engine) := rfl

section Serving

variable {f : Engine → Waiter → Waiter × Engine}
  (himports : ∀ engine waiter, (f engine waiter).2.imports = engine.imports)
  (htouches : ∀ (engine : Engine) waiter, engine.store.Touches (f engine waiter).2.store)
include himports htouches

/-- Those who wait are served one after the other. -/
theorem exists_serve (engine : Engine) (done waiters : List Waiter) :
    ∃ (served : List Waiter) (engine' : Engine),
      waiters.foldl (serveOne f) (done, engine) = (done ++ served, engine') ∧
      served.length = waiters.length ∧ engine'.imports = engine.imports ∧
      engine.store.Touches engine'.store := by
  induction waiters generalizing engine done with
  | nil => exact ⟨[], engine, by rw [List.append_nil]; rfl, rfl, rfl, .refl⟩
  | cons waiter rest ih =>
      obtain ⟨served, engine', hserved, hlength, hsame, htouched⟩ :=
        ih (f engine waiter).2 (done ++ [(f engine waiter).1])
      refine ⟨(f engine waiter).1 :: served, engine', ?_, congrArg Nat.succ hlength,
        hsame.trans (himports engine waiter), (htouches engine waiter).trans htouched⟩
      rw [List.foldl_cons, serveOne, hserved, List.append_assoc]
      rfl

theorem imports_forWaiters (engine : Engine) (waiters : List Waiter) :
    (engine.forWaiters f waiters).2.imports = engine.imports := by
  obtain ⟨served, engine', hserved, -, hsame, -⟩ := exists_serve himports htouches engine [] waiters
  rw [forWaiters_eq, hserved]
  exact hsame

/-- Each of those who wait is served by an engine that is touched but has the same dynamic
imports. -/
theorem exists_forWaiters (engine : Engine) {waiters : List Waiter} {place : Nat} {waiter : Waiter}
    (hwaiter : waiters[place]? = some waiter) :
    ∃ engine' : Engine, engine'.imports = engine.imports ∧ engine.store.Touches engine'.store ∧
      (engine.forWaiters f waiters).1[place]? = some (f engine' waiter).1 := by
  obtain ⟨front, back, rfl, rfl⟩ : ∃ front back, waiters = front ++ waiter :: back ∧
      front.length = place := by
    obtain ⟨hplace, rfl⟩ := List.getElem?_eq_some_iff.mp hwaiter
    refine ⟨waiters.take place, waiters.drop (place + 1), ?_, List.length_take_of_le (Nat.le_of_lt hplace)⟩
    rw [List.getElem_cons_drop, List.take_append_drop]
  obtain ⟨front', engine', hfront, hlength, hsame, htouched⟩ :=
    exists_serve himports htouches engine [] front
  obtain ⟨back', engine'', hback, -⟩ :=
    exists_serve himports htouches (f engine' waiter).2 (front' ++ [(f engine' waiter).1]) back
  refine ⟨engine', hsame, htouched, ?_⟩
  rw [forWaiters_eq, List.foldl_append, hfront, List.foldl_cons, serveOne, List.nil_append, hback,
    List.append_assoc, ← hlength, List.getElem?_append_right (Nat.le_refl _), Nat.sub_self]
  rfl

end Serving

end Engine

end Linkage
