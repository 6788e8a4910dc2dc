import Linkage.Proofs.Runs.Ending
import Linkage.Proofs.Runs.Rebuilding
import Linkage.Proofs.Runs.Spoiling
import Linkage.Proofs.Session.Returning
import Linkage.Proofs.Store.Confining

/-!
# To require a module is to evaluate it

`require` runs a modern module as `evaluate` does.  A legacy module it starts without building a
graph, and takes the exports value from the record.  `evaluate` builds the graph of such a module as
well, which is the module alone: nothing is linked, and the pass begins the same body.  What is read
through the namespace afterwards is the same exports value.

* `Store.Regular` : what holds of the modules in every state of every run.
* `Machine.returns_body` : a body comes back with nothing to say.
* `Machine.returns_pass` : how a run of a legacy module ends.
* `Machine.Agrees`, `Machine.require_agrees_with_evaluate` : both lead to the same.
-/

namespace Linkage

/-- What holds of the modules in every state of every run. -/
structure Store.Regular (store : Store) : Prop where
  living : Stage.Living ⟨[], [], store⟩
  closed : store.Closed
  current : store.Current
  tells : ∀ ref record, store.record? ref = some record → record.Tells
  agrees : ∀ ref record, store.record? ref = some record → record.Agrees

/-- A chain at whose ends no body runs. -/
theorem Chain.regular {store store' : Store} {marks : List Mark}
    (hchain : Chain ⟨[], [], store⟩ marks ⟨[], [], store'⟩) (hregular : store.Regular) :
    store'.Regular where
  living := hchain.living hregular.living
  closed := hchain.closed hregular.living hregular.closed
  current := hchain.current hregular.living hregular.current
  tells := hchain.tells hregular.living hregular.tells
  agrees := hchain.agrees hregular.living hregular.tells hregular.agrees

namespace Machine

theorem regular_perform (place : Place) (config : Config) (acts : List Act) :
    ((new place config).perform acts).session.store.Regular where
  living :=
    have hliving := living_perform place config acts
    ⟨hliving.named, hliving.possible, List.nodup_nil, nofun, nofun⟩
  closed := closed_perform place config acts
  current := (chain_perform (new place config) acts).current (living_new place config)
    ⟨rfl, fun _ hmem => by cases hmem⟩
  tells := tells_perform place config acts
  agrees := agrees_perform place config acts

end Machine

/-! ## A legacy module -/

namespace Store

variable {store : Store} {id : ModuleId} {ref : RecordRef} {record : Record}

/-- The default export of a legacy module is its exports value. -/
theorem resolveExport_default_of_legacy (hregistered : store.Registered id ref record)
    (hlegacy : record.format = .legacy) :
    store.resolveExport id "default" = .found (.exports ref none) := by
  unfold resolveExport requestBound resolveWithin
  rw [hregistered.lookup, hregistered.find]
  dsimp only
  rw [if_neg List.not_mem_nil, if_pos hlegacy]
  rfl

/-- A registered legacy module whose body has begun and not failed gives its exports value as the
default export. -/
theorem Regular.readName_default (hregular : store.Regular)
    (hregistered : store.Registered id ref record) (hbegun : record.status.hasLinked = true)
    (herror : record.error? = none) {exports : Exports} (hexports : record.exports? = some exports)
    {found : Namespace} (hfound : found.id = id) (hattached : store.isAttached found = true) :
    (store.readName found "default").1 = .ok exports.value := by
  have hlegacy : record.format = .legacy := by simp [Record.format, hexports]
  have hpoison : record.poison? = none := (hregular.agrees _ _ hregistered.record).trans herror
  have hstarted : exports.started = true := by
    refine ((hregular.closed.coherent _ _ hregistered.record).started _ hexports).mpr ?_
    rintro hunlinked
    rw [hunlinked] at hbegun
    cases hbegun
  rw [readName_of_found hattached (hfound ▸ resolveExport_default_of_legacy hregistered hlegacy),
    read, readExports, hregistered.record]
  simp [hpoison, hexports, hstarted]

/-- Nothing has to be linked for a legacy module. -/
theorem link_of_legacy (hregistered : store.Registered id ref record)
    (hlegacy : record.format = .legacy) : store.link [id] = (.ok (), store) := by
  have hpending : store.pendingLinks [id] = [] := by
    refine List.eq_nil_iff_forall_not_mem.mpr (fun other hmem => ?_)
    obtain ⟨_, hid, _, hfound, hmodern, -⟩ := mem_pendingLinks.mp hmem
    obtain rfl := List.mem_singleton.mp hid
    obtain ⟨rfl, rfl⟩ := hregistered.unique hfound
    rw [hlegacy] at hmodern
    cases hmodern
  unfold link
  rw [hpending]
  rfl

end Store

namespace Engine

variable {engine engine' : Engine} {id : ModuleId} {ref : RecordRef} {record : Record}

/-- Analyzing a legacy module fails, or leaves it analyzed with nothing to walk. -/
theorem attempt_analyze_of_legacy (hregistered : engine.store.Registered id ref record)
    (hlegacy : record.format = .legacy) :
    (∃ error engine', engine.attempt (Attempt.analyze ref record) = (.error error, engine')) ∨
    ∃ engine' record', engine.attempt (Attempt.analyze ref record) = (.ok [], engine') ∧
      engine.store.Touches engine'.store ∧ engine'.store.Registered id ref record' ∧
      record.Touched record' ∧ record'.analysis?.isSome := by
  have hended := Attempt.meets_analyze engine rfl hregistered.record
  generalize engine.attempt (Attempt.analyze ref record) = ended at hended
  obtain ⟨result, engine'⟩ := ended
  cases result with
  | error error => exact .inl ⟨error, engine', rfl⟩
  | ok dependencies =>
      obtain ⟨record', hrecord', hanalyzed, rfl⟩ := hended.ok dependencies rfl
      obtain ⟨found, hfound, htouched⟩ := Store.touches_record hended.touches hregistered.record
      obtain rfl := Option.some.inj (hfound.symm.trans hrecord')
      have hnone : found.dependencies = [] := by
        unfold Record.dependencies
        rw [htouched.format, hlegacy]
      rw [hnone]
      exact .inr ⟨engine', found, rfl, hended.touches,
        ⟨Store.touches_lookup hended.touches hregistered.lookup, hfound⟩, htouched, hanalyzed⟩

/-- The graph of a legacy module is the module alone, once it is analyzed. -/
theorem attempt_prepare_of_legacy (hregistered : engine.store.Registered id ref record)
    (hlegacy : record.format = .legacy) :
    engine.attempt (Attempt.prepare id) = match engine.attempt (Attempt.analyze ref record) with
      | (.ok _, engine) => (.ok [id], engine)
      | (.error error, engine) => (.error error, engine) := by
  rw [Machine.attempt_prepare]
  unfold Attempt.buildGraph
  rw [attempt_bind, attempt_registered hregistered]
  dsimp only
  rw [attempt_bind]
  rcases attempt_analyze_of_legacy hregistered hlegacy with
    ⟨error, engine', hended⟩ | ⟨engine', record', hended, -, hregistered', htouched, -⟩
  · rw [hended]
  · rw [hended]
    dsimp only
    rw [attempt_bind, attempt_get]
    have hwalked : engine'.attempt (Attempt.walk engine'.reach [id] id [] (.empty id)) =
        (.ok ((Graph.empty id).list id []), engine') := rfl
    dsimp only
    rw [hwalked]
    dsimp only
    rw [show ((Graph.empty id).list id []).order = [id] from rfl,
      Store.link_of_legacy hregistered' (htouched.format.trans hlegacy)]
    rfl

/-- Starting a legacy module that cannot be analyzed fails. -/
theorem attempt_startLegacy_of_error {error : ModuleError}
    (hrecord : engine.store.record? ref = some record)
    (hended : engine.attempt (Attempt.analyze ref record) = (.error error, engine')) :
    engine.attempt (Attempt.startLegacy ref) = (.error error, engine') := by
  unfold Attempt.startLegacy
  rw [attempt_bind, attempt_get]
  dsimp only
  rw [hrecord]
  dsimp only
  rw [attempt_bind, hended]

/-- Starting a legacy module is analyzing it and starting it then. -/
theorem attempt_startLegacy_of_analyze {dependencies : List ModuleId} {record' : Record}
    (hrecord : engine.store.record? ref = some record)
    (hended : engine.attempt (Attempt.analyze ref record) = (.ok dependencies, engine'))
    (hrecord' : engine'.store.record? ref = some record') (hanalyzed : record'.analysis?.isSome) :
    engine.attempt (Attempt.startLegacy ref) = engine'.attempt (Attempt.startLegacy ref) := by
  have hagain := attempt_analyze_of_analyzed engine' ref hanalyzed
  unfold Attempt.startLegacy
  rw [attempt_bind, attempt_get]
  conv_rhs => rw [attempt_bind, attempt_get]
  dsimp only
  rw [hrecord, hrecord']
  dsimp only
  rw [attempt_bind, hended]
  conv_rhs => rw [attempt_bind, hagain]

/-- A legacy module that has its source and is analyzed begins at once. -/
theorem attempt_startLegacy_of_analyzed {source : ModuleSource}
    (hrecord : engine.store.record? ref = some record) (hanalyzed : record.analysis?.isSome)
    (hsource : record.source? = some source) :
    engine.attempt (Attempt.startLegacy ref) =
      (.ok source.body, { engine with store := engine.store.modify ref Record.begin }) := by
  unfold Attempt.startLegacy
  rw [attempt_bind, attempt_get]
  dsimp only
  rw [hrecord]
  dsimp only
  rw [attempt_bind, attempt_analyze_of_analyzed engine ref hanalyzed]
  dsimp only
  rw [attempt_bind, attempt_get]
  dsimp only
  rw [hrecord]
  dsimp only
  unfold Attempt.sourceOf
  rw [attempt_bind, hsource]
  rfl

end Engine

namespace Machine

/-! ## How work comes back -/

section Body

variable {machine : Machine} {ref : RecordRef}

/-- A body lies at the bottom of the stack, or it has come back with nothing to say. -/
def HoldsBody (machine : Machine) (ref : RecordRef) : Prop :=
  (∃ above rest, machine.stack = above ++ [.body ref rest]) ∨
    ∃ session, machine = giving session [] .done

theorem holdsBody_step {above : List Frame} {rest : Program}
    (hstack : machine.stack = above ++ [.body ref rest]) : machine.step.HoldsBody ref := by
  obtain ⟨session, stack, signal⟩ := machine
  dsimp only at hstack
  subst hstack
  cases above with
  | cons frame above =>
      -- the topmost frame is another one, and the body below does not matter to it
      have hstep : (onto ⟨session, frame :: above, signal⟩ [.body ref rest]).step =
          (step ⟨session, frame :: above, signal⟩).onto [.body ref rest] :=
        step_onto (List.cons_ne_nil _ _) [.body ref rest]
      exact .inl ⟨(step ⟨session, frame :: above, signal⟩).stack, rest, congrArg stack hstep⟩
  | nil =>
      have hnext (instruction : Instruction) (rest : Program) :
          (step ⟨session, [.body ref (instruction :: rest)], .go⟩).HoldsBody ref := by
        unfold step
        dsimp only
        cases session.store.record? ref with
        | none => exact .inr ⟨session, rfl⟩
        | some record =>
            have henters := enterInstruction_onto session [] [.body ref rest] ref record instruction
            exact .inl ⟨(enterInstruction session [] ref record instruction).stack, rest,
              congrArg stack henters⟩
      rcases signal with _ | ⟨error | value⟩
      · cases rest with
        | nil => exact .inr ⟨_, rfl⟩
        | cons instruction rest => exact hnext instruction rest
      · cases rest <;> exact .inr ⟨_, rfl⟩
      · cases rest with
        | nil => exact .inr ⟨_, rfl⟩
        | cons instruction rest => exact hnext instruction rest

/-- A body comes back with nothing to say. -/
theorem returns_body {session : Session} {program : Program} {count : Nat}
    (hback : ComesBack ⟨session, [.body ref program], .go⟩ [] count) :
    ∃ session', after ⟨session, [.body ref program], .go⟩ count = giving session' [] .done := by
  have hholds : ∀ taken ≤ count,
      (after ⟨session, [.body ref program], .go⟩ taken).HoldsBody ref := by
    intro taken htaken
    induction taken with
    | zero => exact .inl ⟨[], program, rfl⟩
    | succ taken ih =>
        rcases ih (Nat.le_of_succ_le htaken) with ⟨above, rest, hstack⟩ | ⟨session', hgives⟩
        · rw [after_succ']
          exact holdsBody_step hstack
        · have hhigher := hback.higher taken htaken
          rw [hgives] at hhigher
          exact absurd hhigher (Nat.lt_irrefl _)
  rcases hholds count (Nat.le_refl count) with ⟨above, rest, hstack⟩ | hgives
  · have hlower := hback.lower
    rw [hstack] at hlower
    simp at hlower
  · exact hgives

end Body

/-! ## What both lead to -/

/-- A module that was required, and evaluated from the same state: both have failed with one error
or neither has, the modules and their cells are the same afterwards, and so is what was noted.  When
both have succeeded, a modern module has been given as the one namespace, and of a legacy one the
value that its namespace reads as the default export. -/
structure Agrees (named : Except ModuleError Resolved) (required : Session) (reply : Reply)
    (evaluated : Session) (reply' : Reply) : Prop where
  failed : ∀ error, reply = .error error ↔ reply' = .error error
  slots : required.store.SameSlots evaluated.store
  events : evaluated.events = required.events
  given : ∀ value, reply = .ok value → ∃ resolved found ref record, named = .ok resolved ∧
    reply' = .ok (.space found) ∧ found.id = resolved.id ∧
    evaluated.store.Registered resolved.id ref record ∧
    (record.format = .modern → value = .space found) ∧
    (record.format = .legacy → (evaluated.store.readName found "default").1 = .ok value)

/-- If one of two works comes back so does the other, with the same bodies begun in the same order,
and what has become of them agrees. -/
def EndAlike (named : Except ModuleError Resolved) (required evaluated : Machine) : Prop :=
  ((∃ count final reply, required.Returns [] count final reply) ∨
    ∃ count final reply, evaluated.Returns [] count final reply) →
  ∃ count final reply count' final' reply', required.Returns [] count final reply ∧
    evaluated.Returns [] count' final' reply' ∧
    evaluated.startedAbove [] count' = required.startedAbove [] count ∧
    Agrees named final reply final' reply'

/-- What `require` gives for a legacy module whose body has begun: its error, or its exports value
as it is now. -/
def verdict (record : Record) (exports : Exports) : Reply :=
  match record.error? with
  | some error => .error error
  | none => .ok exports.value

/-- What a run passes on once its module is settled: the error of the module, or that it is done. -/
def passedOn (record : Record) : Reply :=
  match record.error? with
  | some error => .error error
  | none => .done

section Verdicts

variable {session : Session} {resolved : Resolved} {id : ModuleId} {ref : RecordRef}
  {record : Record} {exports : Exports}

/-- The last step of a run that has succeeded gives the namespace. -/
theorem step_present (hregular : session.store.Regular)
    (hregistered : session.store.Registered id ref record) (requester? : Option ModuleId)
    (value : Value) :
    ∃ final found, (giving session [.present id requester?] (.ok value)).step =
        giving final [] (.ok (.space found)) ∧
      found.id = id ∧ session.store.SameSlots final.store ∧ final.events = session.events ∧
      final.store.Regular ∧ final.store.Registered id ref record ∧
      final.store.isAttached found = true := by
  obtain ⟨found, hfound, hid, -, hattached⟩ :=
    Store.namespace_of_registered hregular.current hregular.living.named hregistered requester?
  refine ⟨session.withStore (session.store.namespace_ id requester?).2, found, ?_, hid,
    Scope.sameSlots_read session.store (.star id) requester?, rfl,
    (Chain.single (.touch (.space id requester?))).regular hregular,
    ⟨(Store.lookup?_namespace_ _ _ _).trans hregistered.lookup,
      (Store.record?_namespace_ _ _ _).trans hregistered.record⟩, hattached⟩
  show giving _ [] ((session.store.namespace_ id requester?).1.map .space) = _
  rw [hfound]
  rfl

/-- How a run of a legacy module ends whose body has begun: with its error, or with a namespace that
reads its exports value. -/
theorem returns_pass (hregular : session.store.Regular)
    (hregistered : session.store.Registered resolved.id ref record)
    (hbegun : record.status.hasLinked = true) (hexports : record.exports? = some exports)
    (requester? : Option ModuleId) (signal : Signal) :
    ∃ final reply, Returns ⟨session,
        [.pass [], .settle resolved.id, .present resolved.id requester?], signal⟩ [] 3 final reply ∧
      startedAbove ⟨session,
        [.pass [], .settle resolved.id, .present resolved.id requester?], signal⟩ [] 3 = [] ∧
      Agrees (.ok resolved) session (verdict record exports) final reply := by
  have hlegacy : record.format = .legacy := by simp [Record.format, hexports]
  have hpass : step ⟨session,
      [.pass [], .settle resolved.id, .present resolved.id requester?], signal⟩ =
      giving session [.settle resolved.id, .present resolved.id requester?] .done := rfl
  have hsettle : (giving session [.settle resolved.id, .present resolved.id requester?] .done).step =
      giving session [.present resolved.id requester?] (passedOn record) := by
    unfold giving Reply.done step passedOn
    dsimp only
    rw [hregistered.find, Option.bind_some]
    cases record.error? <;> rfl
  -- once the namespace is given, or the error, the work has come back
  have hends (final : Session) (reply : Reply)
      (hpresent : (giving session [.present resolved.id requester?] (passedOn record)).step =
        giving final [] reply) :
      Returns ⟨session,
          [.pass [], .settle resolved.id, .present resolved.id requester?], signal⟩ [] 3 final reply ∧
        startedAbove ⟨session,
          [.pass [], .settle resolved.id, .present resolved.id requester?], signal⟩ [] 3 = [] := by
    constructor
    · exact .head (Nat.succ_pos _) List.not_mem_nil hpass
        (.head (Nat.succ_pos _) List.not_mem_nil hsettle
          (.head (Nat.succ_pos _) List.not_mem_nil hpresent (returns_giving _ _ _)))
    · exact (startedAbove_head rfl hpass 2).trans
        ((startedAbove_head rfl hsettle 1).trans (startedAbove_head rfl hpresent 0))
  unfold passedOn at hends
  unfold verdict
  cases herror : record.error? with
  | some error =>
      rw [herror] at hends
      obtain ⟨hreturns, hstarted⟩ := hends session (.error error) rfl
      exact ⟨session, .error error, hreturns, hstarted, fun _ => Iff.rfl, .refl _, rfl,
        fun _ hvalue => by cases hvalue⟩
  | none =>
      rw [herror] at hends
      obtain ⟨final, found, hpresent, hid, hslots, hevents, hregular', hregistered', hattached⟩ :=
        step_present hregular hregistered requester? .undefined
      obtain ⟨hreturns, hstarted⟩ := hends final _ hpresent
      refine ⟨final, .ok (.space found), hreturns, hstarted, fun _ => iff_of_false
        (fun hfails => by cases hfails) (fun hfails => by cases hfails), hslots, hevents, ?_⟩
      intro value hvalue
      obtain rfl := Except.ok.inj hvalue
      refine ⟨resolved, found, ref, record, rfl, rfl, hid, hregistered', fun hmodern => ?_,
        fun _ => hregular'.readName_default hregistered' hbegun herror hexports hid hattached⟩
      rw [hlegacy] at hmodern
      cases hmodern

/-- `require` ends with the verdict on a legacy module whose body is over. -/
theorem step_exported (hrecord : session.store.record? ref = some record)
    (hexports : record.exports? = some exports) :
    (giving session [.exported ref] .done).step = giving session [] (verdict record exports) := by
  unfold giving Reply.done step verdict
  dsimp only
  rw [hrecord]
  dsimp only
  rw [hexports]
  cases record.error? <;> rfl

/-- A run of a legacy module that is analyzed begins with a pass over the module alone. -/
theorem enterRun_of_legacy (hregistered : session.store.Registered id ref record)
    (hlegacy : record.format = .legacy) (hanalyzed : record.analysis?.isSome)
    (stack : List Frame) :
    enterRun session stack id = ⟨session, .pass [id] :: .settle id :: stack, .go⟩ := by
  unfold enterRun Session.attempt
  rw [Engine.attempt_prepare_of_legacy hregistered hlegacy,
    Engine.attempt_analyze_of_analyzed session.engine ref hanalyzed]

/-- A legacy module whose body has begun: both give what is there. -/
theorem endAlike_of_begun (hregular : session.store.Regular)
    (hregistered : session.store.Registered resolved.id ref record)
    (hbegun : record.status.hasBegun = true) (hexports : record.exports? = some exports)
    (requester? : Option ModuleId) :
    EndAlike (.ok resolved) (giving session [] (verdict record exports))
      (enterRun session [.present resolved.id requester?] resolved.id) := by
  intro _
  have hlegacy : record.format = .legacy := by simp [Record.format, hexports]
  have hlinked := Status.hasLinked_of_hasBegun hbegun
  have hanalyzed :=
    ((hregular.closed.coherent _ _ hregistered.record).linked hlinked).analyzed
  obtain ⟨final, reply, hreturns, hstarted, hagrees⟩ :=
    returns_pass hregular hregistered hlinked hexports requester? .go
  rw [enterRun_of_legacy hregistered hlegacy hanalyzed]
  have hskips := step_pass_of_begun ⟨ref, record, hregistered, hbegun⟩ []
    [.settle resolved.id, .present resolved.id requester?]
  have hreset : .reset ∉ session.moduleMarks resolved.id := session.reset_not_mem_moduleMarks _
  refine ⟨0, session, _, 4, final, reply, returns_giving _ _ _,
    .head (Nat.succ_pos _) hreset hskips hreturns, ?_, hagrees⟩
  exact (startedAbove_head rfl hskips 3).trans hstarted

/-- Work below which frames wait has come back by itself if all of it has. -/
theorem Returns.inner {machine : Machine} {above : List Frame} {count : Nat} {final : Session}
    {reply : Reply} (hreturns : (machine.onto above).Returns [] count final reply) :
    ∃ first, machine.ComesBack [] first ∧ machine.Remembers first := by
  obtain ⟨first, _, hback, hremembers, -⟩ := hreturns.through (Nat.zero_le above.length)
  have hback' := comesBack_onto_iff.mp hback
  exact ⟨first, hback', (remembers_onto (fun taken htaken => List.length_pos_iff.mp
    (hback'.higher taken htaken)) above).mp hremembers⟩

/-- What the body of a legacy module leaves behind: the module is registered as before, and its body
has begun. -/
theorem regular_of_body {machine : Machine} {program : Program} {count : Nat} {final : Session}
    (hregular : session.store.Regular) (hregistered : session.store.Registered id ref record)
    (hunlinked : record.status = .unlinked) (hlegacy : record.format = .legacy)
    (hanalyzed : record.analysis?.isSome) (hsource : record.source?.isSome)
    (hmachine : machine = ⟨session.withStore (session.store.modify ref Record.begin),
      [.body ref program], .go⟩)
    (hremembers : machine.Remembers count) (hgives : machine.after count = giving final [] .done) :
    final.store.Regular ∧ ∃ record', final.store.Registered id ref record' ∧
      record'.status.hasLinked = true ∧ record'.format = .legacy := by
  have hbegin : Chain ⟨[], [], session.store⟩ [.status ref .evaluating] machine.stage := by
    rw [hmachine]
    exact .single (.beginLegacy hregistered.record hlegacy (by simp [hunlinked])
      (by simp [hunlinked, Status.isSettled]) hanalyzed hsource)
  have hruns : Chain machine.stage (machine.log (List.replicate count .step))
      ⟨[], [], final.store⟩ := by
    have hchain := machine.chain_perform (List.replicate count .step)
    rwa [show machine.perform (List.replicate count .step) = _ from hgives] at hchain
  have hchain := hbegin.trans hruns
  have hreset : .reset ∉ [Mark.status ref .evaluating] ++ machine.log (List.replicate count .step) := by
    rw [List.mem_append, not_or]
    exact ⟨by simp, hremembers⟩
  have hbegun : machine.session.store.record? ref = some record.begin := by
    rw [hmachine]
    exact Store.record?_modify_self _ hregistered.record
  obtain ⟨record', hrecord', hadvances⟩ :=
    (hruns.advances (hbegin.living hregular.living)).record ref _ hbegun
  exact ⟨hchain.regular hregular, record', ⟨hchain.lookup hreset hregistered.lookup, hrecord'⟩,
    hadvances.linked rfl, by rw [hadvances.format, Record.format_begin, hlegacy]⟩

/-- The body of a legacy module runs in the middle of both. -/
theorem endAlike_of_body {machine : Machine} {source : ModuleSource}
    (hregular : session.store.Regular)
    (hregistered : session.store.Registered resolved.id ref record)
    (hunlinked : record.status = .unlinked) (hlegacy : record.format = .legacy)
    (hanalyzed : record.analysis?.isSome) (hsource : record.source? = some source)
    (hmachine : machine = ⟨session.withStore (session.store.modify ref Record.begin),
      [.body ref source.body], .go⟩) (requester? : Option ModuleId) :
    EndAlike (.ok resolved) (machine.onto [.exported ref]) ⟨session,
      [.pass [resolved.id], .settle resolved.id, .present resolved.id requester?], .go⟩ := by
  have hbegins : step ⟨session,
      [.pass [resolved.id], .settle resolved.id, .present resolved.id requester?], .go⟩ =
      machine.onto [.pass [], .settle resolved.id, .present resolved.id requester?] := by
    show enterModule session _ resolved.id = _
    unfold enterModule Session.attempt
    rw [hregistered.lookup, hregistered.find]
    dsimp only
    rw [hlegacy, hunlinked]
    dsimp only
    rw [Engine.attempt_startLegacy_of_analyzed hregistered.record hanalyzed hsource, hmachine]
    rfl
  intro hends
  -- whichever of the two comes back, the body has come back by itself
  obtain ⟨count, hback, hremembers⟩ :
      ∃ count, machine.ComesBack [] count ∧ machine.Remembers count := by
    rcases hends with ⟨_, _, _, hreturns⟩ | ⟨_, _, _, hreturns⟩
    · exact hreturns.inner
    · obtain ⟨_, -, -, hreturns'⟩ := hreturns.tail (Nat.succ_pos _)
      rw [hbegins] at hreturns'
      exact hreturns'.inner
  obtain ⟨final, hgives⟩ : ∃ final, machine.after count = giving final [] .done := by
    rw [hmachine] at hback ⊢
    exact returns_body hback
  have hreturns : machine.Returns [] count final .done := ⟨hback, hremembers, hgives⟩
  obtain ⟨hregular', record', hregistered', hbegun, hlegacy'⟩ :=
    regular_of_body hregular hregistered hunlinked hlegacy hanalyzed (by rw [hsource]; rfl)
      hmachine hremembers hgives
  obtain ⟨exports, hexports⟩ : ∃ exports, record'.exports? = some exports := by
    cases hexports : record'.exports? with
    | some exports => exact ⟨exports, rfl⟩
    | none => simp [Record.format, hexports] at hlegacy'
  obtain ⟨final', reply, hpass, hstarted, hagrees⟩ :=
    returns_pass hregular' hregistered' hbegun hexports requester? (.reply .done)
  have hquiet : (giving final [.exported ref] .done).startedAbove [] 1 = [] :=
    startedAbove_head rfl (step_exported hregistered'.record hexports) 0
  have hexported : (giving final [.exported ref] .done).Returns [] 1 final
      (verdict record' exports) :=
    .head Nat.one_pos List.not_mem_nil (step_exported hregistered'.record hexports)
      (returns_giving _ _ _)
  -- the body begins the same bodies in both, and what follows begins none
  have honto (above : List Frame) : (machine.onto above).Returns above count final .done :=
    returns_onto_iff.mpr hreturns
  have hstartedOnto (above : List Frame) {more : Nat}
      (habove : above.filterMap Frame.running? = [].filterMap Frame.running?)
      (hnone : (giving final above .done).startedAbove [] more = []) :
      (machine.onto above).startedAbove [] (count + more) = machine.startedAbove [] count := by
    rw [startedAbove_trans (honto above).gives habove more, hnone, List.append_nil,
      startedAbove_onto hback above]
  refine ⟨count + 1, final, verdict record' exports, count + 3 + 1, final', reply,
    (honto [.exported ref]).trans (Nat.zero_le _) hexported,
    .head (Nat.succ_pos _) (session.reset_not_mem_moduleMarks _) hbegins
      ((honto _).trans (Nat.zero_le _) hpass), ?_, hagrees⟩
  calc startedAbove ⟨session,
          [.pass [resolved.id], .settle resolved.id, .present resolved.id requester?], .go⟩ []
          (count + 3 + 1)
      = (machine.onto [.pass [], .settle resolved.id,
          .present resolved.id requester?]).startedAbove [] (count + 3) :=
        startedAbove_head rfl hbegins (count + 3)
    _ = machine.startedAbove [] count := hstartedOnto _ rfl hstarted
    _ = (machine.onto [.exported ref]).startedAbove [] (count + 1) :=
        (hstartedOnto [.exported ref] rfl hquiet).symm

/-- A legacy module whose body has not begun: both fail to load it, or run its body. -/
theorem endAlike_of_unlinked (hregular : session.store.Regular)
    (hregistered : session.store.Registered resolved.id ref record)
    (hunlinked : record.status = .unlinked) (hlegacy : record.format = .legacy)
    (requester? : Option ModuleId) :
    EndAlike (.ok resolved) (enterLegacy session [.exported ref] ref)
      (enterRun session [.present resolved.id requester?] resolved.id) := by
  have hrecord : session.engine.store.record? ref = some record := hregistered.record
  rcases Engine.attempt_analyze_of_legacy hregistered hlegacy with
    ⟨error, engine, hended⟩ | ⟨engine, record', hended, htouches, hregistered', htouched, hanalyzed⟩
  · have hrequired : enterLegacy session [.exported ref] ref =
        giving { session with engine } [.exported ref] (.error error) := by
      unfold enterLegacy Session.attempt
      rw [Engine.attempt_startLegacy_of_error hrecord hended]
    have hevaluated : enterRun session [.present resolved.id requester?] resolved.id =
        giving { session with engine } [.present resolved.id requester?] (.error error) := by
      unfold enterRun Session.attempt
      rw [Engine.attempt_prepare_of_legacy hregistered hlegacy, hended]
    rw [hrequired, hevaluated]
    intro _
    refine ⟨1, { session with engine }, .error error, 1, { session with engine }, .error error,
      .head Nat.one_pos List.not_mem_nil rfl (returns_giving _ _ _),
      .head Nat.one_pos List.not_mem_nil rfl (returns_giving _ _ _), rfl,
      fun _ => Iff.rfl, .refl _, rfl, nofun⟩
  · have hregular' : Store.Regular ({ session with engine } : Session).store :=
      (Chain.of_touches htouches).regular hregular
    obtain ⟨source, hsource⟩ := Option.isSome_iff_exists.mp
      ((hregular'.closed.coherent _ _ hregistered'.record).sourced hanalyzed)
    have hlegacy' := htouched.format.trans hlegacy
    have hrequired : enterLegacy session [.exported ref] ref =
        onto ⟨Session.withStore { session with engine } (engine.store.modify ref Record.begin),
          [.body ref source.body], .go⟩ [.exported ref] := by
      unfold enterLegacy Session.attempt
      rw [Engine.attempt_startLegacy_of_analyze hrecord hended hregistered'.record hanalyzed,
        Engine.attempt_startLegacy_of_analyzed hregistered'.record hanalyzed hsource]
      rfl
    have hevaluated : enterRun session [.present resolved.id requester?] resolved.id =
        ⟨{ session with engine },
          [.pass [resolved.id], .settle resolved.id, .present resolved.id requester?], .go⟩ := by
      unfold enterRun Session.attempt
      rw [Engine.attempt_prepare_of_legacy hregistered hlegacy, hended]
    rw [hrequired, hevaluated]
    exact endAlike_of_body hregular' hregistered' (htouched.status.trans hunlinked) hlegacy'
      hanalyzed hsource rfl requester?

/-- A modern module: both run it, and the namespace is what that gives. -/
theorem endAlike_of_modern (hregular : session.store.Regular)
    (hregistered : session.store.Registered resolved.id ref record)
    (hmodern : record.format = .modern) (requester? : Option ModuleId) :
    EndAlike (.ok resolved) (enterRun session [.present resolved.id requester?] resolved.id)
      (enterRun session [.present resolved.id requester?] resolved.id) := by
  rw [EndAlike, or_self]
  rintro ⟨count, final, reply, hreturns⟩
  refine ⟨count, final, reply, count, final, reply, hreturns, hreturns, rfl, fun _ => Iff.rfl,
    .refl _, rfl, ?_⟩
  rintro value rfl
  -- the run gives a reply to the last frame, and that must have been a success
  obtain ⟨first, more, hback, hremembers, hlast⟩ :=
    hreturns.through (Nat.zero_le [Frame.present resolved.id requester?].length)
  obtain ⟨middle, given, hgives, -⟩ :=
    (minds_enterRun session [.present resolved.id requester?] resolved.id).given hback
  obtain ⟨_, -, -, hlast⟩ := (hlast middle given hgives).tail Nat.one_pos
  cases given with
  | error error =>
      have hsame := (returns_giving middle [] (.error error)).unique hlast
      cases hsame.2.2
  | ok done =>
      have hbegins := chain_enterRun session [.present resolved.id requester?] resolved.id
      have hruns := chain_perform (enterRun session [.present resolved.id requester?] resolved.id)
        (List.replicate first .step)
      rw [show perform _ (List.replicate first .step) = _ from hgives] at hruns
      have hchain : Chain ⟨[], [], session.store⟩ _ ⟨[], [], middle.store⟩ := hbegins.trans hruns
      have hreset : .reset ∉ session.runMarks resolved.id ++
          log (enterRun session [.present resolved.id requester?] resolved.id)
            (List.replicate first .step) := by
        rw [List.mem_append, not_or]
        exact ⟨session.reset_not_mem_runMarks _, hremembers⟩
      obtain ⟨record', hrecord', hadvances⟩ :=
        (hchain.advances hregular.living).record ref record hregistered.record
      obtain ⟨final', found, hpresent, hid, -, -, -, hregistered', -⟩ :=
        step_present (hchain.regular hregular)
          ⟨hchain.lookup hreset hregistered.lookup, hrecord'⟩ requester? done
      rw [hpresent] at hlast
      obtain ⟨-, rfl, hreply⟩ := (returns_giving final' [] _).unique hlast
      obtain rfl := Except.ok.inj hreply
      refine ⟨resolved, found, ref, record', rfl, rfl, hid, hregistered', fun _ => rfl, ?_⟩
      rw [hadvances.format, hmodern]
      exact nofun

end Verdicts

/-- `require` and `evaluate` from a state of a run, with nothing below them. -/
theorem endAlike {session : Session} (hregular : session.store.Regular) (specifier : String)
    (referrer? : Option ModuleId) :
    EndAlike (session.attempt (Attempt.resolve specifier referrer?)).1
      (enterRequire session [] specifier referrer?)
      (enterEvaluate session [] specifier referrer?) := by
  have htouches := session.touches_attempt (Attempt.quiet_resolveAndRegister specifier referrer?)
  unfold enterRequire enterEvaluate
  unfold Session.attempt at htouches ⊢
  rw [Engine.attempt_resolveAndRegister] at htouches ⊢
  generalize session.engine.attempt (Attempt.resolve specifier referrer?) = ended at htouches
  obtain ⟨result, engine⟩ := ended
  cases result with
  | error error =>
      exact fun _ => ⟨0, _, _, 0, _, _, returns_giving _ _ _, returns_giving _ _ _, rfl,
        fun _ => Iff.rfl, .refl _, rfl, nofun⟩
  | ok resolved =>
      dsimp only at htouches ⊢
      generalize hcreated : engine.store.getOrCreate resolved.id resolved.format = created
        at htouches
      obtain ⟨ref, store⟩ := created
      have hregular' : (Session.store { session with engine := { engine with store } }).Regular :=
        (Chain.of_touches htouches).regular hregular
      have hlookup : store.lookup? resolved.id = some ref := by
        have hfound := engine.store.lookup?_getOrCreate resolved.id resolved.format
        rwa [hcreated] at hfound
      obtain ⟨record, hrecord, hid⟩ := hregular'.living.named _ _ hlookup
      have hregistered : Store.Registered (Session.store
          { session with engine := { engine with store } }) resolved.id ref record :=
        ⟨hlookup, hrecord⟩
      dsimp only
      rw [show Store.record? (Session.store { session with engine := { engine with store } }) ref =
        some record from hrecord]
      dsimp only
      have htells := hregular'.tells ref record hrecord
      cases hexports : record.exports? with
      | none =>
          rw [hid]
          exact endAlike_of_modern hregular' hregistered (by simp [Record.format, hexports]) _
      | some exports =>
          have hlegacy : record.format = .legacy := by simp [Record.format, hexports]
          have hverdict : record.status ≠ .errored → verdict record exports = .ok exports.value := by
            intro hstatus
            have hnone : record.error? = none := by
              by_contra herror
              exact hstatus (htells.mp (Option.isSome_iff_ne_none.mpr herror))
            rw [verdict, hnone]
          have hbegun (hbegun : record.status.hasBegun = true) :=
            endAlike_of_begun hregular' hregistered hbegun hexports referrer?
          have hpossible := hregular'.living.possible ref record hrecord
          cases hstatus : record.status with
          | evaluating | evaluated =>
              rw [hverdict (by simp [hstatus]), hstatus] at hbegun
              exact hbegun rfl
          | errored =>
              obtain ⟨error, herror⟩ := Option.isSome_iff_exists.mp (htells.mpr hstatus)
              rw [verdict, herror, hstatus] at hbegun
              dsimp only
              rw [herror]
              exact hbegun rfl
          | unlinked => exact endAlike_of_unlinked hregular' hregistered hstatus hlegacy referrer?
          | linking => exact absurd hstatus hpossible.1
          | linked => exact absurd hstatus (hpossible.2 hlegacy)

/-- **To require a module and to evaluate it lead to the same.**  From any state of a run, with any
work below, one of them comes back with no module forgotten on the way exactly if the other does.
Then they have begun the same bodies in the same order, and they have failed with the same error or
both succeeded; the records, with all statuses and errors, are the same.  Of a modern module
`require` gives the namespace that `evaluate` gives, and of a legacy one the value that this
namespace reads as the default export. -/
theorem require_agrees_with_evaluate (place : Place) (config : Config) (acts : List Act)
    (base : List Frame) (specifier : String) (referrer? : Option ModuleId) :
    let session := ((new place config).perform acts).session
    let required := enterRequire session base specifier referrer?
    let evaluated := enterEvaluate session base specifier referrer?
    ((∃ count final reply, required.Returns base count final reply) ↔
      ∃ count final reply, evaluated.Returns base count final reply) ∧
    ∀ count final reply count' final' reply', required.Returns base count final reply →
      evaluated.Returns base count' final' reply' →
      evaluated.startedAbove base count' = required.startedAbove base count ∧
      Agrees (session.attempt (Attempt.resolve specifier referrer?)).1 final reply final' reply' := by
  intro session required evaluated
  have hregular : session.store.Regular := regular_perform place config acts
  have halike := endAlike hregular specifier referrer?
  have hrequired : required = (enterRequire session [] specifier referrer?).onto base :=
    enterRequire_onto session [] base specifier referrer?
  have hevaluated : evaluated = (enterEvaluate session [] specifier referrer?).onto base :=
    enterEvaluate_onto session [] base specifier referrer?
  rw [hrequired, hevaluated]
  simp only [returns_onto_iff]
  refine ⟨⟨fun hends => ?_, fun hends => ?_⟩, ?_⟩
  · obtain ⟨_, _, _, count', final', reply', -, hreturns', -⟩ := halike (.inl hends)
    exact ⟨count', final', reply', hreturns'⟩
  · obtain ⟨count, final, reply, _, _, _, hreturns, -⟩ := halike (.inr hends)
    exact ⟨count, final, reply, hreturns⟩
  · intro count final reply count' final' reply' hreturns hreturns'
    obtain ⟨_, _, _, _, _, _, hfound, hfound', hstarted, hagrees⟩ :=
      halike (.inl ⟨count, final, reply, hreturns⟩)
    obtain ⟨rfl, rfl, rfl⟩ := hreturns.unique hfound
    obtain ⟨rfl, rfl, rfl⟩ := hreturns'.unique hfound'
    refine ⟨?_, hagrees⟩
    rw [startedAbove_onto hreturns'.back, startedAbove_onto hreturns.back, hstarted]

/-- Whether a value is handed on that is no namespace. -/
def handsPlain (machine : Machine) : Bool :=
  match machine.signal with
  | .reply (.ok (.space _)) => false
  | .reply (.ok _) => true
  | _ => false

/-- Three bodies run, and the outermost is required again: its exports value is what the namespace
reads as the default export. -/
theorem require_agrees_with_evaluate_tangle :
    let machine := (new (.shelf tangle) .standard).perform tangleBegun
    let evaluated := enterEvaluate machine.session machine.stack "/left.cjs" none
    machine.running.length = 3 ∧ ∃ count final found value,
      evaluated.Returns machine.stack count final (.ok (.space found)) ∧
      (final.store.readName found "default").1 = .ok value := by
  have hagree := require_agrees_with_evaluate (.shelf tangle) .standard tangleBegun
    ((new (.shelf tangle) .standard).perform tangleBegun).stack "/left.cjs" none
  have hrunning : ((new (.shelf tangle) .standard).perform tangleBegun).running.length = 3 := by
    decide +kernel
  -- `require` gives something at once, and that is no namespace
  have hlower : (enterRequire ((new (.shelf tangle) .standard).perform tangleBegun).session
      ((new (.shelf tangle) .standard).perform tangleBegun).stack "/left.cjs" none).stack.length ≤
      ((new (.shelf tangle) .standard).perform tangleBegun).stack.length := by decide +kernel
  have hsignal : (enterRequire ((new (.shelf tangle) .standard).perform tangleBegun).session
      ((new (.shelf tangle) .standard).perform tangleBegun).stack "/left.cjs" none).handsPlain =
      true := by decide +kernel
  generalize (new (.shelf tangle) .standard).perform tangleBegun = machine
    at hagree hrunning hlower hsignal ⊢
  dsimp only at hagree ⊢
  obtain ⟨final, reply, hgives, -⟩ :=
    (minds_enterRequire machine.session machine.stack "/left.cjs" none).given (comesBack_zero hlower)
  have hreturns : (enterRequire machine.session machine.stack "/left.cjs" none).Returns
      machine.stack 0 final reply := ⟨comesBack_zero hlower, List.not_mem_nil, hgives⟩
  obtain ⟨count, final', reply', hreturns'⟩ := hagree.1.mp ⟨0, final, reply, hreturns⟩
  obtain ⟨-, hended⟩ := hagree.2 _ _ _ _ _ _ hreturns hreturns'
  refine ⟨hrunning, ?_⟩
  rw [after_zero] at hgives
  rw [hgives] at hsignal
  cases reply with
  | error error => cases hsignal
  | ok value =>
      obtain ⟨resolved, found, ref, record, -, rfl, -, -, hmodern, hlegacy⟩ := hended.given value rfl
      refine ⟨count, final', found, value, hreturns', hlegacy ?_⟩
      cases hformat : record.format with
      | legacy => rfl
      | modern =>
          obtain rfl := hmodern hformat
          cases hsignal

end Machine

end Linkage
