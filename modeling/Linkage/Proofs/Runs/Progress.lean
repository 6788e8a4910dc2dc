import Linkage.Proofs.Runs.Closure
import Linkage.Proofs.Runs.Launches

/-!
# Nothing linked is left behind

As long as no work is given up, every body that has begun and not ended is on the stack, and every
linked module, with all it asks for, has begun or is due in a pass that is on the stack.  So when no
work is left no module is half way.

* `Store.Served` : linked modules have begun or are due.
* `Chain.served` : what a run keeps of that.
* `Machine.Attends`, `Machine.attends_perform` : the invariant, in every run.
-/

namespace Linkage

namespace Orderly

variable {store : Store} {statuses : Statuses} {marks : List Mark} {ref : RecordRef}

/-- What has begun stays so. -/
theorem hasBegun (hmarks : Orderly store statuses marks)
    (hbegun : (statuses ref).hasBegun = true) :
    (replay statuses marks ref).hasBegun = true := by
  induction marks generalizing statuses with
  | nil => exact hbegun
  | cons mark rest ih =>
      cases mark with
      | reset => exact ih hmarks hbegun
      | status written status =>
          obtain ⟨⟨record, -, hmoves⟩, hrest⟩ := hmarks
          refine ih hrest ?_
          by_cases hsame : ref = written
          · subst hsame
            rw [Statuses.write_self]
            generalize statuses ref = before at hmoves hbegun
            cases hmoves <;> simp_all [Status.hasBegun]
          · rwa [Statuses.write_ne _ hsame]

/-- A modern module is linked only where that is noted. -/
theorem hasLinked_back (hmarks : Orderly store statuses marks) {record : Record}
    (hrecord : store.record? ref = some record) (hmodern : record.format = .modern)
    (hlinked : .status ref .linked ∉ marks)
    (hafter : (replay statuses marks ref).hasLinked = true) :
    (statuses ref).hasLinked = true := by
  induction marks generalizing statuses with
  | nil => exact hafter
  | cons mark rest ih =>
      rw [List.mem_cons, not_or] at hlinked
      cases mark with
      | reset => exact ih hmarks hlinked.2 hafter
      | status written status =>
          obtain ⟨⟨found, hfound, hmoves⟩, hrest⟩ := hmarks
          have hwritten := ih hrest hlinked.2 hafter
          by_cases hsame : ref = written
          · subst hsame
            obtain rfl := Option.some.inj (hfound.symm.trans hrecord)
            rw [Statuses.write_self] at hwritten
            generalize statuses ref = before at hmoves
            -- only a linked module begins, and only one that has begun ends
            cases hmoves with
            | linked => exact absurd rfl hlinked.1
            | beginLegacy hlegacy => rw [hmodern] at hlegacy; cases hlegacy
            | begin | finish | fail => rfl
            | link | undo => cases hwritten
          · rwa [Statuses.write_ne _ hsame] at hwritten

end Orderly

/-- A body runs at the end that ran before or has begun since. -/
theorem evaluating_or_begun {statuses : Statuses} {marks : List Mark} {ref : RecordRef}
    (hafter : replay statuses marks ref = .evaluating) :
    statuses ref = .evaluating ∨ ref ∈ begun marks := by
  induction marks generalizing statuses with
  | nil => exact .inl hafter
  | cons mark rest ih =>
      cases mark with
      | reset => exact ih hafter
      | status written status =>
          rcases ih hafter with hbefore | hrest
          · by_cases hsame : ref = written
            · subst hsame
              rw [Statuses.write_self] at hbefore
              subst hbefore
              exact .inr List.mem_cons_self
            · exact .inl (by rwa [Statuses.write_ne _ hsame] at hbefore)
          · refine .inr ?_
            cases status with
            | evaluating => exact List.mem_cons_of_mem _ hrest
            | _ => exact hrest

namespace Store

/-- The body of a module has begun. -/
def HasBegun (store : Store) (id : ModuleId) : Prop :=
  ∃ ref record, store.Registered id ref record ∧ record.status.hasBegun = true

/-- Every linked module has begun or is due, and so has or is every module it asks for. -/
def Served (store : Store) (due : List ModuleId) : Prop :=
  ∀ id ref record, store.Registered id ref record → record.format = .modern →
    record.status.hasLinked = true → (store.HasBegun id ∨ id ∈ due) ∧
      ∀ dependency ∈ record.requested, store.HasBegun dependency ∨ dependency ∈ due

end Store

namespace Chain

variable {stage stage' : Stage} {marks : List Mark}

/-- What has begun has begun for good, unless all modules are forgotten. -/
theorem hasBegun (hchain : Chain stage marks stage') (hliving : stage.Living)
    (hkept : ∀ id ref, stage.store.lookup? id = some ref → stage'.store.lookup? id = some ref)
    {id : ModuleId} (hbegun : stage.store.HasBegun id) : stage'.store.HasBegun id := by
  obtain ⟨ref, record, hregistered, hstatus⟩ := hbegun
  obtain ⟨record', hrecord', -, -⟩ := hchain.keepsRecords ref record hregistered.record
  refine ⟨ref, record', ⟨hkept id ref hregistered.lookup, hrecord'⟩, ?_⟩
  rw [← Store.statuses_of_record hrecord', hchain.statuses hliving]
  refine (hchain.orderly hliving).hasBegun ?_
  rwa [Store.statuses_of_record hregistered.record]

/-- While no module is linked, a modern module that is linked at the end was so before, asked for
the same, and no module has lost its record. -/
theorem linked_back (hchain : Chain stage marks stage') (hliving : stage.Living)
    (hclosed : stage.store.Closed) (hlinked : ∀ ref, .status ref .linked ∉ marks) {id : ModuleId}
    {ref : RecordRef} {record' : Record} (hregistered : stage'.store.Registered id ref record')
    (hmodern : record'.format = .modern) (hhasLinked : record'.status.hasLinked = true) :
    (∀ id ref, stage.store.lookup? id = some ref → stage'.store.lookup? id = some ref) ∧
      ∃ record, stage.store.Registered id ref record ∧ record.format = .modern ∧
        record.status.hasLinked = true ∧ record'.requested = record.requested := by
  induction hchain generalizing record' with
  | refl => exact ⟨fun _ _ hlookup => hlookup, record', hregistered, hmodern, hhasLinked, rfl⟩
  | tail hbefore hchange ih =>
      have hliving' := hbefore.living hliving
      have hclosed' := hbefore.closed hliving hclosed
      rcases hchange.registered_back hliving' hregistered with ⟨record, hmiddle⟩ | ⟨_, _, rfl⟩
      · obtain ⟨found, hfound, hadvances⟩ :=
          (hchange.advances hliving').record ref record hmiddle.record
        obtain rfl := Option.some.inj (hfound.symm.trans hregistered.record)
        have hstatus : record.status.hasLinked = true := by
          rw [← Store.statuses_of_record hmiddle.record]
          refine (hchange.orderly hliving').hasLinked_back hregistered.record hmodern
            (fun hmem => hlinked ref (List.mem_append_right _ hmem)) ?_
          rwa [← hchange.statuses hliving', Store.statuses_of_record hregistered.record]
        have hanalyzed := ((hclosed'.coherent ref record hmiddle.record).linked hstatus).analyzed
        have hrequested : found.requested = record.requested := by
          rw [Record.requested, hadvances.analyzed hanalyzed]
          rfl
        obtain ⟨hkept, before, hregistered', hmodern', hstatus', hsame⟩ :=
          ih (fun ref hmem => hlinked ref (List.mem_append_left _ hmem)) hmiddle
            (hadvances.format ▸ hmodern) hstatus
        refine ⟨fun other otherRef hlookup => ?_, before, hregistered', hmodern', hstatus',
          hrequested.trans hsame⟩
        rcases hchange.lookup_or_reset with hkept' | ⟨-, hnone⟩
        · exact hkept' other otherRef (hkept other otherRef hlookup)
        · have hlookup := hregistered.lookup
          rw [hnone id] at hlookup
          cases hlookup
      · cases hhasLinked

/-- While no module is linked, linked modules go on to be served, if those that are no longer due
begin. -/
theorem served (hchain : Chain stage marks stage') (hliving : stage.Living)
    (hclosed : stage.store.Closed) (hlinked : ∀ ref, .status ref .linked ∉ marks)
    {due due' : List ModuleId} (hserved : stage.store.Served due)
    (hdue : ∀ id ∈ due, stage.store.Ready id → stage'.store.HasBegun id ∨ id ∈ due') :
    stage'.store.Served due' := by
  intro id ref record' hregistered hmodern hhasLinked
  obtain ⟨hkept, record, hbefore, hmodern', hhasLinked', hsame⟩ :=
    hchain.linked_back hliving hclosed hlinked hregistered hmodern hhasLinked
  obtain ⟨hown, hrequests⟩ := hserved id ref record hbefore hmodern' hhasLinked'
  have hgoes : ∀ other, stage.store.Ready other → stage.store.HasBegun other ∨ other ∈ due →
      stage'.store.HasBegun other ∨ other ∈ due' := by
    rintro other hready (hbegun | hmem)
    · exact .inl (hchain.hasBegun hliving hkept hbegun)
    · exact hdue other hmem hready
  refine ⟨hgoes id ?_ hown, fun dependency hdependency => ?_⟩
  · exact ⟨ref, record, hbefore,
      ((hclosed.coherent ref record hbefore.record).linked hhasLinked').analyzed,
      fun _ => hhasLinked'⟩
  · rw [hsame] at hdependency
    exact hgoes dependency (hclosed.ready id ref record hbefore hmodern' hhasLinked' dependency
      hdependency) (hrequests dependency hdependency)

end Chain

namespace Store

variable {store : Store} {order due : List ModuleId}

/-- Linking begins no body. -/
theorem hasBegun_link_iff (hnamed : store.Named) (hnodup : order.Nodup) {id : ModuleId} :
    (store.link order).2.HasBegun id ↔ store.HasBegun id := by
  have hrebinds := store.rebinds_link order
  have hsame : ∀ ref record, store.record? ref = some record → ∃ record',
      (store.link order).2.record? ref = some record' ∧
        record'.status.hasBegun = record.status.hasBegun := by
    intro ref record hrecord
    rcases link_record (nodup_pendingLinks hnamed hnodup) hrecord with
      ⟨-, hkept⟩ | ⟨hpending, environment, hended⟩
    · exact ⟨record, hkept, rfl⟩
    · obtain ⟨_, -, found, hfound, -, hunlinked⟩ := mem_pendingLinks.mp hpending
      obtain rfl := Option.some.inj (hfound.record.symm.trans hrecord)
      refine ⟨_, hended, ?_⟩
      rw [hunlinked]
      cases (store.link order).1 <;> rfl
  constructor
  · rintro ⟨ref, record', hregistered, hbegun⟩
    have hlookup := (hrebinds.lookup id).symm.trans hregistered.lookup
    obtain ⟨record, hrecord, -⟩ := hnamed id ref hlookup
    obtain ⟨found, hfound, hstatus⟩ := hsame ref record hrecord
    obtain rfl := Option.some.inj (hfound.symm.trans hregistered.record)
    exact ⟨ref, record, ⟨hlookup, hrecord⟩, hstatus.symm.trans hbegun⟩
  · rintro ⟨ref, record, hregistered, hbegun⟩
    obtain ⟨record', hrecord', hstatus⟩ := hsame ref record hregistered.record
    exact ⟨ref, record', ⟨(hrebinds.lookup id).trans hregistered.lookup, hrecord'⟩,
      hstatus.trans hbegun⟩

/-- After an order is linked, linked modules are served if all of the order is due. -/
theorem served_link (hnamed : store.Named) (hspans : store.Spans order)
    (hserved : store.Served due) :
    (store.link order).2.Served (order ++ due) := by
  have hnodup := nodup_pendingLinks hnamed hspans.nodup
  have hrebinds := store.rebinds_link order
  have hkept : ∀ id, store.HasBegun id ∨ id ∈ due →
      (store.link order).2.HasBegun id ∨ id ∈ order ++ due := fun id =>
    Or.imp (hasBegun_link_iff hnamed hspans.nodup).mpr (List.mem_append_right order)
  intro id ref record' hregistered hmodern hlinked
  have hlookup : store.lookup? id = some ref := (hrebinds.lookup id).symm.trans hregistered.lookup
  obtain ⟨record, hrecord, -⟩ := hnamed id ref hlookup
  rcases link_record hnodup hrecord with ⟨-, hsame⟩ | ⟨hpending, environment, hended⟩
  · obtain rfl := Option.some.inj (hsame.symm.trans hregistered.record)
    obtain ⟨hown, hrequests⟩ := hserved id ref _ ⟨hlookup, hrecord⟩ hmodern hlinked
    exact ⟨hkept id hown, fun dependency hdependency =>
      hkept dependency (hrequests dependency hdependency)⟩
  · -- the module is linked now, so the order lists it and what it asks for
    obtain rfl := Option.some.inj (hended.symm.trans hregistered.record)
    obtain ⟨id', hid, found, hfound, hmodern', hunlinked⟩ := mem_pendingLinks.mp hpending
    obtain rfl := hnamed.unique hlookup hfound.lookup
    obtain rfl := Option.some.inj (hfound.record.symm.trans hrecord)
    refine ⟨.inr (List.mem_append_left _ hid), fun dependency hdependency => ?_⟩
    obtain ⟨_, listed, hlisted, hleads⟩ := hspans.leads id' hid
    obtain ⟨-, rfl⟩ := hlisted.unique hfound
    rcases hleads with hsettled | ⟨-, hsub⟩
    · rw [hunlinked] at hsettled
      cases hsettled
    · have hmem : dependency ∈ found.dependencies := by
        rwa [Record.dependencies, hmodern']
      exact .inr (List.mem_append_left _ (by simpa using hsub hmem))

end Store

namespace Machine

variable {session : Session} {base : List Frame}

/-- A legacy module that has been analyzed and has its source is started. -/
theorem startLegacy_of_analyzed {engine : Engine} {ref : RecordRef} {record : Record}
    (hrecord : engine.store.record? ref = some record) (hanalyzed : record.analysis?.isSome)
    (hsource : record.source?.isSome) : ∃ program,
      engine.attempt (Attempt.startLegacy ref) =
        (.ok program, { engine with store := engine.store.modify ref Record.begin }) := by
  obtain ⟨analysis, hanalysis⟩ := Option.isSome_iff_exists.mp hanalyzed
  obtain ⟨source, hsource⟩ := Option.isSome_iff_exists.mp hsource
  have hanalyze : ∃ dependencies,
      engine.attempt (Attempt.analyze ref record) = (.ok dependencies, engine) := by
    unfold Attempt.analyze
    rw [hanalysis]
    exact ⟨_, rfl⟩
  obtain ⟨dependencies, hanalyze⟩ := hanalyze
  have hload : engine.attempt (Attempt.sourceOf ref record) = (.ok source, engine) := by
    unfold Attempt.sourceOf
    rw [hsource]
    rfl
  refine ⟨source.body, ?_⟩
  unfold Attempt.startLegacy
  rw [Engine.attempt_bind, Engine.attempt_get]
  dsimp only
  rw [hrecord]
  dsimp only
  rw [Engine.attempt_bind, hanalyze]
  dsimp only
  rw [Engine.attempt_bind, Engine.attempt_get]
  dsimp only
  rw [hrecord]
  dsimp only
  rw [Engine.attempt_bind, hload]
  rfl

/-- A module whose body has begun is passed by. -/
theorem enterModule_of_begun {id : ModuleId} (hbegun : session.store.HasBegun id)
    (stack : List Frame) : enterModule session stack id = ⟨session, stack, .go⟩ := by
  obtain ⟨ref, record, hregistered, hstatus⟩ := hbegun
  unfold enterModule
  rw [hregistered.lookup, hregistered.find]
  cases hcase : record.status <;> simp_all [Status.hasBegun]

/-- It is the turn of a module that is ready: its body begins, unless it has begun before. -/
theorem enterModule_begins {id : ModuleId} (hliving : Stage.Living (session.stage base))
    (hclosed : session.store.Closed) (hready : session.store.Ready id) (stack : List Frame) :
    (enterModule session stack id).session.store.HasBegun id := by
  by_cases hbegun : session.store.HasBegun id
  · rwa [enterModule_of_begun hbegun]
  · obtain ⟨ref, record, hregistered, hanalyzed, hlinked⟩ := hready
    obtain ⟨hlinking, hlegacy⟩ := hliving.possible ref record hregistered.record
    have hsource := (hclosed.coherent ref record hregistered.record).sourced hanalyzed
    have hopen (hstatus : record.status.hasBegun = true) : False :=
      hbegun ⟨ref, record, hregistered, hstatus⟩
    cases hformat : record.format with
    | modern =>
        cases hstatus : record.status with
        | linked =>
            obtain ⟨source, hfound⟩ := Option.isSome_iff_exists.mp hsource
            rw [enterModule_of_linked hregistered hformat hstatus hfound]
            exact ⟨ref, _, ⟨hregistered.lookup, Store.record?_modify_self _ hregistered.record⟩, rfl⟩
        | unlinked | linking =>
            have := hlinked hformat
            simp [hstatus, Status.hasLinked] at this
        | evaluating | evaluated | errored => simp [hstatus, Status.hasBegun] at hopen
    | legacy =>
        cases hstatus : record.status with
        | unlinked =>
            have hrecord : session.engine.store.record? ref = some record := hregistered.record
            obtain ⟨program, hstarted⟩ := startLegacy_of_analyzed hrecord hanalyzed hsource
            unfold enterModule Session.attempt
            simp only [hregistered.lookup, hregistered.find, hformat, hstatus, hstarted]
            exact ⟨ref, _, ⟨hregistered.lookup, Store.record?_modify_self _ hregistered.record⟩, rfl⟩
        | linking => exact absurd hstatus hlinking
        | linked => exact absurd hstatus (hlegacy hformat)
        | evaluating | evaluated | errored => simp [hstatus, Status.hasBegun] at hopen

end Machine

/-- The modules whose turn a frame waits for. -/
def Frame.due : Frame → List ModuleId
  | .pass rest => rest
  | _ => []

/-- The modules whose turn is still to come. -/
def Machine.due (machine : Machine) : List ModuleId := machine.stack.flatMap Frame.due

theorem Frame.due_eq_nil {frame : Frame} (hwaits : frame.evaluates = false) : frame.due = [] := by
  cases frame with
  | pass rest => cases hwaits
  | _ => rfl

theorem Frame.eq_pass {frame : Frame} {id : ModuleId} {rest : List ModuleId}
    (hdue : frame.due = id :: rest) : frame = .pass (id :: rest) := by
  cases frame with
  | pass others => exact congrArg Frame.pass hdue
  | _ => cases hdue

theorem Idle.due {frames : List Frame} (hidle : Idle frames) : frames.flatMap Frame.due = [] :=
  List.flatMap_eq_nil_iff.mpr (fun frame hframe => Frame.due_eq_nil (hidle frame hframe))

/-- Every body that has begun and not ended is on the stack, and every linked module and all it asks
for has begun or is due. -/
structure Machine.Attends (machine : Machine) : Prop where
  running : ∀ ref, machine.session.store.statuses ref = .evaluating → ref ∈ machine.running
  served : machine.session.store.Served machine.due

namespace Session.Enters

variable {session : Session} {base stack : List Frame} {marks : List Mark} {machine : Machine}

/-- What runs when work has begun: what ran below, and the body that begins. -/
theorem running (henters : session.Enters base marks machine) :
    machine.running = begun marks ++ base.filterMap Frame.running? := by
  have hrunning : machine.running = machine.stack.filterMap Frame.running? := rfl
  cases henters with
  | waits above hidle hstack hbegun hlinked =>
      rw [hrunning, hstack, hbegun, List.filterMap_append, hidle.running]
  | body above ref program hidle hstack hmarks =>
      have habove : (above ++ base).filterMap Frame.running? = base.filterMap Frame.running? := by
        rw [List.filterMap_append, hidle.running, List.nil_append]
      rw [hrunning, hstack, hmarks]
      exact congrArg (List.cons ref) habove
  | run above graph hidle hbegun hlaunches =>
      obtain ⟨store, -, -, -, -, -, hstack⟩ := hlaunches.begins
      rw [hrunning, hstack, hbegun, List.filterMap_cons_none rfl, List.filterMap_cons_none rfl,
        List.filterMap_append, hidle.running]

/-- What was due below still is when work has begun. -/
theorem due (henters : session.Enters base marks machine) :
    base.flatMap Frame.due ⊆ machine.due := by
  obtain ⟨above, hstack⟩ := henters.suffix
  rw [Machine.due, ← hstack, List.flatMap_append]
  exact List.subset_append_right _ _

/-- Linked modules are served when work has begun above frames in which they are due. -/
theorem served (henters : session.Enters base marks machine)
    (hchain : Chain (session.stage stack) marks machine.stage)
    (hliving : (session.stage stack).Living) (hclosed : session.store.Closed)
    (hserved : session.store.Served (base.flatMap Frame.due)) :
    machine.session.store.Served machine.due := by
  have hdue := henters.due
  cases henters with
  | waits above hidle hstack hbegun hlinked =>
      exact hchain.served hliving hclosed hlinked hserved (fun id hid _ => .inr (hdue hid))
  | body above ref program hidle hstack hmarks =>
      exact hchain.served hliving hclosed (by simp [hmarks]) hserved
        (fun id hid _ => .inr (hdue hid))
  | run above graph hidle hbegun hlaunches =>
      obtain ⟨_, -, -, -, -, -, hstack⟩ := hlaunches.begins
      obtain ⟨store, htouched, -, hstore, -, hspans, -⟩ := hlaunches.chains stack
      have hbefore : store.Served (base.flatMap Frame.due) :=
        htouched.served hliving hclosed (by simp) hserved (fun id hid _ => .inr hid)
      have hlinked := Store.served_link (htouched.living hliving).named hspans hbefore
      rw [hstore, Machine.due, hstack]
      simpa [Frame.due, hidle.due] using hlinked

end Session.Enters

namespace Machine

/-- The turn of a module links nothing. -/
theorem linked_not_mem_moduleMarks (session : Session) (id : ModuleId) (ref : RecordRef) :
    .status ref .linked ∉ session.moduleMarks id := by
  unfold Session.moduleMarks Session.legacyMarks
  repeat' split
  all_goals simp

variable {machine machine' : Machine} {marks : List Mark}

namespace Attends

/-- A body that runs after work has begun ran before or has begun now. -/
theorem running_enters (hattends : machine.Attends) (hliving : machine.stage.Living)
    (hchain : Chain machine.stage marks machine'.stage)
    (henters : machine.session.Enters base marks machine')
    (hsame : machine.running = base.filterMap Frame.running?) (ref : RecordRef)
    (hevaluating : machine'.session.store.statuses ref = .evaluating) :
    ref ∈ machine'.running := by
  have hreplay : machine'.session.store.statuses ref =
      replay machine.session.store.statuses marks ref := congrFun (hchain.statuses hliving) ref
  rw [henters.running, ← hsame, List.mem_append]
  exact (evaluating_or_begun (hreplay ▸ hevaluating)).symm.imp_right (hattends.running ref)

/-- Work that begins is attended to. -/
theorem enters (hattends : machine.Attends) (hliving : machine.stage.Living)
    (hclosed : machine.session.store.Closed) (hchain : Chain machine.stage marks machine'.stage)
    (henters : machine.session.Enters base marks machine')
    (hrunning : machine.running = base.filterMap Frame.running?)
    (hdue : machine.due = base.flatMap Frame.due) : machine'.Attends where
  running := hattends.running_enters hliving hchain henters hrunning
  served := henters.served hchain hliving hclosed (hdue ▸ hattends.served)

/-- The body that ends runs no longer. -/
theorem leave (hattends : machine.Attends) (hliving : machine.stage.Living)
    (hclosed : machine.session.store.Closed) {ref : RecordRef} {status : Status}
    (hended : status = .evaluated ∨ status = .errored)
    (hchain : Chain machine.stage [.status ref status] machine'.stage)
    (hrunning : machine.running = ref :: machine'.running) (hdue : machine.due = machine'.due) :
    machine'.Attends := by
  refine ⟨fun other hevaluating => ?_, ?_⟩
  · have hreplay : machine'.session.store.statuses other =
        machine.session.store.statuses.write ref status other :=
      congrFun (hchain.statuses hliving) other
    rw [hevaluating] at hreplay
    by_cases hsame : other = ref
    · subst hsame
      rw [Statuses.write_self] at hreplay
      rcases hended with rfl | rfl <;> cases hreplay
    · rw [Statuses.write_ne _ hsame] at hreplay
      have hmem := hattends.running other hreplay.symm
      rw [hrunning] at hmem
      exact (List.mem_cons.mp hmem).resolve_left hsame
  · refine hchain.served hliving hclosed (fun other hmem => ?_) hattends.served
      (fun id hid _ => .inr (hdue ▸ hid))
    rcases hended with rfl | rfl <;> simp at hmem

end Attends

theorem attends_step (hliving : machine.stage.Living) (hclosed : machine.session.store.Closed)
    (hattends : machine.Attends) : machine.step.Attends := by
  have hgoes := machine.goes
  have hchain := machine.chain_step
  obtain ⟨session, stack, signal⟩ := machine
  generalize stepMarks ⟨session, stack, signal⟩ = marks at hgoes hchain
  generalize step ⟨session, stack, signal⟩ = machine' at hgoes hchain ⊢
  dsimp only at hgoes
  cases hgoes with
  | rest | ended | settle => exact ⟨hattends.running, hattends.served⟩
  | turn id rest tail =>
      have henters := enters_module session (.pass rest :: tail) id
      refine ⟨hattends.running_enters hliving hchain henters rfl, ?_⟩
      refine hchain.served hliving hclosed (linked_not_mem_moduleMarks session id)
        hattends.served (fun other hother hready => ?_)
      rcases List.mem_cons.mp hother with rfl | hrest
      · exact .inl (enterModule_begins hliving hclosed hready _)
      · exact .inr (henters.due hrest)
  | leave ref rest tail reply =>
      refine hattends.leave hliving hclosed ?_ hchain rfl rfl
      cases reply with
      | ok _ => exact .inl rfl
      | error _ => exact .inr rfl
  | absent ref rest tail hnone =>
      refine ⟨fun other hevaluating => ?_, hattends.served⟩
      have hne : other ≠ ref := by
        rintro rfl
        have hunlinked : session.store.statuses other = .unlinked := by simp [Store.statuses, hnone]
        cases hunlinked.symm.trans hevaluating
      exact (List.mem_cons.mp (hattends.running other hevaluating)).resolve_left hne
  | body ref instruction rest tail henters =>
      exact hattends.enters hliving hclosed hchain henters rfl rfl
  | waits frame tail hwaits hsettle henters =>
      refine hattends.enters hliving hclosed hchain henters
        (List.filterMap_cons_none (Frame.running?_eq_none hwaits)) ?_
      rw [due, List.flatMap_cons, Frame.due_eq_nil hwaits, List.nil_append]

theorem attends_act (hliving : machine.stage.Living) (hclosed : machine.session.store.Closed)
    (hattends : machine.Attends) {act : Act} (habandon : act ≠ .abandon) :
    (machine.act act).Attends := by
  have hchain := machine.chain_act act
  -- what comes from outside comes when the stack is empty
  have houtside : machine.isDone = true → machine.session.Enters [] (machine.marks act)
      (machine.act act) → (machine.act act).Attends := by
    intro hdone henters
    have hstack : machine.stack = [] := by simpa [isDone] using hdone
    refine hattends.enters hliving hclosed hchain henters ?_ ?_
    · show machine.stack.filterMap Frame.running? = _
      rw [hstack]
    · rw [due, hstack]
  cases act with
  | step => exact attends_step hliving hclosed hattends
  | abandon => exact absurd rfl habandon
  | call command save? =>
      by_cases hdone : machine.isDone = true
      · refine houtside hdone ?_
        rw [act, marks, if_pos hdone, if_pos hdone]
        exact machine.session.enters_opening command save?
      · rwa [act, if_neg hdone]
  | conclude command save? reply =>
      by_cases hdone : machine.isDone = true
      · refine houtside hdone ?_
        rw [act, if_pos hdone]
        exact .of_nothing rfl
      · rwa [act, if_neg hdone]
  | rehost host =>
      have henters : machine.session.Enters machine.stack [] (machine.act (.rehost host)) :=
        .of_nothing rfl
      exact hattends.enters hliving hclosed hchain henters rfl rfl

/-- While no work is given up, it is attended to. -/
theorem Attends.perform (hliving : machine.stage.Living) (hclosed : machine.session.store.Closed)
    (hattends : machine.Attends) {acts : List Act} (habandon : .abandon ∉ acts) :
    (machine.perform acts).Attends := by
  induction acts generalizing machine with
  | nil => exact hattends
  | cons first rest ih =>
      rw [List.mem_cons, not_or] at habandon
      have hchain := machine.chain_act first
      exact ih (hchain.living hliving) (hchain.closed hliving hclosed)
        (attends_act hliving hclosed hattends (Ne.symm habandon.1)) habandon.2

theorem attends_perform (place : Place) (config : Config) {acts : List Act}
    (habandon : .abandon ∉ acts) : ((new place config).perform acts).Attends := by
  refine Attends.perform (living_new place config) (closed_perform place config [])
    ⟨fun ref hevaluating => ?_, fun id ref record hregistered => ?_⟩ habandon
  · cases hevaluating
  · cases hregistered.record

/-- While no body runs, a module that has begun is settled. -/
theorem Attends.settled (hattends : machine.Attends) (hrunning : machine.running = [])
    {id : ModuleId} (hbegun : machine.session.store.HasBegun id) :
    ∃ ref record, machine.session.store.Registered id ref record ∧
      record.status.isSettled = true := by
  obtain ⟨ref, record, hregistered, hstatus⟩ := hbegun
  refine ⟨ref, record, hregistered, ?_⟩
  have hnot : record.status ≠ .evaluating := by
    intro hevaluating
    have hmem := hattends.running ref
      ((Store.statuses_of_record hregistered.record).trans hevaluating)
    rw [hrunning] at hmem
    cases hmem
  cases hcase : record.status <;> simp_all [Status.hasBegun, Status.isSettled]

end Machine

end Linkage
