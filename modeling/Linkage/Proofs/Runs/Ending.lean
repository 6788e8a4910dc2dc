import Linkage.Proofs.Engine.Unbounded
import Linkage.Proofs.Host.Steady
import Linkage.Proofs.Runs.Pipelines
import Linkage.Proofs.Runs.Upholding
import Mathlib.Algebra.GroupWithZero.Nat
import Mathlib.Data.Prod.Lex
import Mathlib.Order.WellFounded

/-!
# Every call comes to an end

Over a host with finitely many modules, whose bodies neither reset the engine nor change the host, no
work goes on for ever: with every step either a body begins, and there are only so many modules, or
an instruction or a pipeline is done that was left to do, or a frame goes that only waited or passed
over modules.  The bodies on the stack are those of different modules, so there are never more of
them than modules.

* `Machine.left` : what is left to do.
* `Machine.left_step_lt` : every step leaves less.
* `Machine.every_call_ends` : so all work ends, and bodies are nested no deeper than there are modules.
* `Machine.exists_returns_evaluate`, `Machine.exists_returns_require` : so every call returns.
-/

namespace Linkage

/-- The instructions or pipelines that a frame has left to do. -/
def Frame.deeds : Frame → Nat
  | .body _ rest => rest.length
  | .batch rest => rest.length
  | _ => 0

/-- The steps that a frame takes besides. -/
def Frame.turns : Frame → Nat
  | .pass rest => rest.length + 1
  | _ => 1

theorem Frame.turns_pos (frame : Frame) : 0 < frame.turns := by
  cases frame <;> simp [Frame.turns]

namespace Store

/-- Whether the body of a module has begun. -/
def hasBegun (store : Store) (id : ModuleId) : Bool :=
  ((store.find? id).map (·.status.hasBegun)).getD false

theorem hasBegun_iff {store : Store} {id : ModuleId} :
    store.hasBegun id = true ↔ store.HasBegun id := by
  unfold hasBegun
  constructor
  · intro hbegun
    cases hfind : store.find? id with
    | none =>
        rw [hfind] at hbegun
        cases hbegun
    | some record =>
        rw [hfind] at hbegun
        obtain ⟨ref, hregistered⟩ := exists_registered_of_find hfind
        exact ⟨ref, record, hregistered, hbegun⟩
  · rintro ⟨ref, record, hregistered, hbegun⟩
    rw [hregistered.find]
    exact hbegun

/-- Of these modules, how many have not begun. -/
def unbegun (store : Store) (ids : List ModuleId) : Nat :=
  ids.countP (fun id => !store.hasBegun id)

variable {store store' : Store} {ids : List ModuleId}

theorem unbegun_le (hkept : ∀ id, store.HasBegun id → store'.HasBegun id) :
    store'.unbegun ids ≤ store.unbegun ids := by
  refine List.countP_mono_left (fun id _ hunbegun => ?_)
  rw [Bool.not_eq_true', ← Bool.not_eq_true, hasBegun_iff] at hunbegun ⊢
  exact fun hbegun => hunbegun (hkept id hbegun)

/-- If one more module has begun, fewer are left. -/
theorem unbegun_lt (hkept : ∀ id, store.HasBegun id → store'.HasBegun id) {id : ModuleId}
    (hid : id ∈ ids) (hbefore : ¬ store.HasBegun id) (hafter : store'.HasBegun id) :
    store'.unbegun ids < store.unbegun ids := by
  obtain ⟨front, back, rfl⟩ := List.append_of_mem hid
  have hfront : store'.unbegun front ≤ store.unbegun front := unbegun_le hkept
  have hback : store'.unbegun back ≤ store.unbegun back := unbegun_le hkept
  have hone : store'.unbegun [id] < store.unbegun [id] := by
    have hbefore' : store.hasBegun id = false := by
      rwa [← Bool.not_eq_true, hasBegun_iff]
    simp [unbegun, hbefore', hasBegun_iff.mpr hafter]
  have hsplit (store : Store) : store.unbegun (front ++ id :: back) =
      store.unbegun front + (store.unbegun [id] + store.unbegun back) := by
    unfold unbegun
    rw [← List.singleton_append, List.countP_append, List.countP_append]
  rw [hsplit, hsplit]
  omega

end Store

/-- What work that begins puts above other frames holds no body, or a body begins. -/
theorem Session.Enters.above {session : Session} {base : List Frame} {marks : List Mark}
    {machine : Machine} (henters : session.Enters base marks machine) :
    (∃ above, (∀ ref program, .body ref program ∉ above) ∧ machine.stack = above ++ base) ∨
      ∃ ref program, marks = [.status ref .evaluating] ∧
        machine.session.store.HasBody ref program := by
  cases henters with
  | waits above hidle hstack => exact .inl ⟨above, hidle.body_not_mem, hstack⟩
  | body above ref program hidle hstack hmarks hbody => exact .inr ⟨ref, program, hmarks, hbody⟩
  | run above graph hidle hbegun hlaunches =>
      obtain ⟨_, -, -, -, -, -, hstack⟩ := hlaunches.begins
      refine .inl ⟨.pass graph.order :: .settle graph.root :: above, fun ref program hmem => ?_, hstack⟩
      have hframes : Idle (.settle graph.root :: above) := List.forall_mem_cons.mpr ⟨rfl, hidle⟩
      exact hframes.body_not_mem ref program ((List.mem_cons.mp hmem).resolve_left nofun)

namespace Machine

/-- The instructions and pipelines that are left to do; a pipeline that waits counts twice, since it
is first taken up and then run. -/
def deeds (machine : Machine) : Nat :=
  2 * machine.session.engine.imports.queue.length + (machine.stack.map Frame.deeds).sum

/-- The steps that the frames take besides. -/
def turns (machine : Machine) : Nat := (machine.stack.map Frame.turns).sum

/-- What is left to do: the bodies that have not begun, then the deeds, then the turns. -/
def left (ids : List ModuleId) (machine : Machine) : Nat ×ₗ Nat ×ₗ Nat :=
  toLex (machine.session.store.unbegun ids, toLex (machine.deeds, machine.turns))

/-- A deed is done, or else a turn has passed. -/
def Wanes (machine machine' : Machine) : Prop :=
  machine'.deeds < machine.deeds ∨
    machine'.deeds = machine.deeds ∧ machine'.turns < machine.turns

/-- Less is left if a body has begun, or else if work has waned. -/
theorem left_lt {ids : List ModuleId} {machine machine' : Machine}
    (hunbegun : machine'.session.store.unbegun ids ≤ machine.session.store.unbegun ids)
    (hless : machine'.session.store.unbegun ids < machine.session.store.unbegun ids ∨
      machine.Wanes machine') : machine'.left ids < machine.left ids := by
  unfold Wanes at hless
  unfold left
  rw [Prod.Lex.toLex_lt_toLex, Prod.Lex.toLex_lt_toLex]
  dsimp only
  omega

variable {machine machine' : Machine} {session : Session} {frame : Frame} {base tail : List Frame}

theorem deeds_eq (hstack : machine.stack = base) : machine.deeds =
    2 * machine.session.engine.imports.queue.length + (base.map Frame.deeds).sum := by
  rw [← hstack]
  rfl

theorem turns_eq (hstack : machine.stack = base) :
    machine.turns = (base.map Frame.turns).sum := by
  rw [← hstack]
  rfl

/-- A frame goes. -/
theorem wanes_of_pop (hstack : machine.stack = frame :: tail) (hstack' : machine'.stack = tail)
    (hqueue : machine'.session.engine.imports.queue = machine.session.engine.imports.queue) :
    machine.Wanes machine' := by
  have hpos := frame.turns_pos
  unfold Wanes
  rw [deeds_eq hstack, deeds_eq hstack', turns_eq hstack, turns_eq hstack', hqueue]
  simp only [List.map_cons, List.sum_cons]
  omega

/-- What an inner frame puts in its place. -/
theorem inner_step (hstack : machine.stack = frame :: tail) (hinner : frame.isInner = true) :
    machine.step.session.engine.imports = machine.session.engine.imports ∧
      ∃ above, Inner above ∧ machine.step.stack = above ++ tail := by
  have hminds : machine.Minds tail machine.session.engine.imports machine.session.waiters :=
    ⟨rfl, rfl, [frame], List.forall_mem_singleton.mpr hinner, hstack, nofun⟩
  obtain ⟨himports, -, above, habove, hstack', -⟩ :=
    hminds.step (by rw [hstack]; exact Nat.lt_succ_self _)
  exact ⟨himports, above, habove, hstack'⟩

/-- An inner frame that only waits goes. -/
theorem wanes_of_waits (hstack : machine.stack = frame :: tail) (hinner : frame.isInner = true)
    (hwaits : frame.evaluates = false) : machine.Wanes machine.step := by
  obtain ⟨himports, -⟩ := inner_step hstack hinner
  refine wanes_of_pop hstack ?_ (by rw [himports])
  obtain ⟨session, stack, signal⟩ := machine
  subst hstack
  cases frame with
  | pass | body => cases hwaits
  | batch | finish | drain => cases hinner
  | settle root =>
      rcases signal with _ | ⟨error | value⟩
      · rfl
      · rfl
      · unfold step
        dsimp only
        split <;> rfl
  | exported ref =>
      rcases signal with _ | ⟨error | value⟩
      · rfl
      · rfl
      · unfold step
        dsimp only
        split
        · rfl
        · split <;> rfl
  | assign ref name =>
      rcases signal with _ | ⟨error | value⟩
      · rfl
      · rfl
      · show (enterAccess session tail _ _).stack = tail
        unfold enterAccess
        split <;> rfl
  | present | report | «attempt» => rcases signal with _ | ⟨error | value⟩ <;> rfl

/-- Inner frames without bodies have nothing to do. -/
theorem deeds_of_inner {frames : List Frame} (hinner : Inner frames)
    (hbodies : ∀ ref program, .body ref program ∉ frames) :
    (frames.map Frame.deeds).sum = 0 := by
  induction frames with
  | nil => rfl
  | cons frame rest ih =>
      obtain ⟨hframe, hrest⟩ := List.forall_mem_cons.mp hinner
      have hnone : frame.deeds = 0 := by
        cases frame with
        | body ref program => exact absurd List.mem_cons_self (hbodies ref program)
        | batch => cases hframe
        | _ => rfl
      rw [List.map_cons, List.sum_cons, hnone, Nat.zero_add]
      exact ih hrest (fun ref program hmem => hbodies ref program (List.mem_cons_of_mem _ hmem))

/-- A module of a pass is passed by, or its body begins. -/
theorem stack_enterModule (session : Session) (base : List Frame) (id : ModuleId) :
    (enterModule session base id).stack = base ∨
      ∃ ref program, (enterModule session base id).stack = .body ref program :: base := by
  unfold enterModule
  split
  · split
    · split
      · exact .inl rfl
      · exact .inr ⟨_, _, rfl⟩
    · split
      · exact .inr ⟨_, _, rfl⟩
      · exact .inl rfl
    · exact .inl rfl
  · exact .inl rfl

/-- The body of a module begins at this step. -/
def BeginsBody (machine : Machine) : Prop :=
  ∃ ref program, machine.stepMarks = [.status ref .evaluating] ∧
    machine.step.session.store.HasBody ref program

/-- A pass goes on: the body of its next module begins, or a turn has passed. -/
theorem wanes_of_pass {rest : List ModuleId} (hstack : machine.stack = .pass rest :: tail) :
    machine.BeginsBody ∨ machine.Wanes machine.step := by
  obtain ⟨himports, -⟩ := inner_step hstack rfl
  obtain ⟨session, stack, signal⟩ := machine
  subst hstack
  cases rest with
  | nil => exact .inr (wanes_of_pop rfl rfl rfl)
  | cons id rest =>
      have hentered : step ⟨session, .pass (id :: rest) :: tail, signal⟩ =
        enterModule session (.pass rest :: tail) id := rfl
      rcases stack_enterModule session (.pass rest :: tail) id with hback | ⟨ref, program, hback⟩
      · rw [hentered] at himports ⊢
        refine .inr (.inr ⟨?_, ?_⟩)
        · rw [deeds_eq hback, himports]
          rfl
        · rw [turns_eq hback]
          exact Nat.add_lt_add_right (Nat.lt_succ_self _) _
      · rcases (enters_module session (.pass rest :: tail) id).above with
          ⟨above, hbodies, hstack⟩ | hbegins
        · have heq : [.body ref program] ++ .pass rest :: tail = above ++ .pass rest :: tail :=
            hback.symm.trans hstack
          rw [← List.append_cancel_right heq] at hbodies
          exact absurd (List.mem_singleton_self _) (hbodies ref program)
        · exact .inl hbegins

/-- A body goes on: another body begins, an instruction is done, or the body is over. -/
theorem wanes_of_body {ref : RecordRef} {program : Program}
    (hstack : machine.stack = .body ref program :: tail) :
    machine.BeginsBody ∨ machine.Wanes machine.step := by
  obtain ⟨himports, above', hinner, hstack'⟩ := inner_step hstack rfl
  have hqueue := congrArg Imports.queue himports
  have hgoes := machine.goes
  unfold BeginsBody
  generalize machine.step = machine' at hgoes hstack' hqueue ⊢
  generalize machine.stepMarks = marks at hgoes ⊢
  rw [hstack] at hgoes
  cases hgoes with
  | leave _ _ _ reply => exact .inr (wanes_of_pop hstack rfl hqueue)
  | absent => exact .inr (wanes_of_pop hstack rfl hqueue)
  | waits _ _ hwaits => cases hwaits
  | body _ instruction rest _ henters =>
      rcases henters.above with ⟨above, hbodies, habove⟩ | hbegins
      · -- what is put above the rest of the body is inner work without bodies
        have heq : above' = above ++ [.body ref rest] := by
          refine List.append_cancel_right (hstack'.symm.trans (habove.trans ?_))
          rw [List.append_assoc]
          rfl
        have hnone := deeds_of_inner (List.forall_mem_append.mp (heq ▸ hinner)).1 hbodies
        refine .inr (.inl ?_)
        rw [deeds_eq habove, deeds_eq hstack, hqueue, List.map_append, List.sum_append, hnone]
        simp only [List.map_cons, List.sum_cons, Frame.deeds, List.length_cons]
        omega
      · exact .inl hbegins

/-! ## Pipelines -/

/-- Of a batch no more pipelines are ready than it holds, and no other is begun. -/
theorem prefetchBatch_left (engine : Engine) (ready batch : List Pipeline) :
    let found := batch.foldl Engine.prefetchOne (ready, engine)
    found.1.length ≤ ready.length + batch.length ∧
      found.2.imports.queue = engine.imports.queue := by
  induction batch generalizing engine ready with
  | nil => exact ⟨Nat.le_refl _, rfl⟩
  | cons pipeline rest ih =>
      rw [List.foldl_cons, List.length_cons]
      obtain ⟨engine', himports, -, ⟨-, hnext⟩ | ⟨error, -, hnext⟩⟩ :=
        Engine.prefetchOne_cases ready engine pipeline
      · rw [hnext]
        obtain ⟨hlength, hqueue⟩ := ih engine' (ready ++ [pipeline])
        rw [List.length_append, List.length_singleton] at hlength
        exact ⟨by omega, by rw [hqueue, himports]⟩
      · rw [hnext]
        obtain ⟨hlength, hqueue⟩ :=
          ih { engine' with imports := engine'.imports.finish pipeline (some error) } ready
        refine ⟨by omega, hqueue.trans ?_⟩
        rw [himports]
        rfl

/-- A pipeline is run. -/
theorem wanes_of_batch {pipeline : Pipeline} {rest : List Pipeline}
    (hstack : machine.stack = .batch (pipeline :: rest) :: tail) :
    machine.BeginsBody ∨ machine.Wanes machine.step := by
  obtain ⟨session, stack, signal⟩ := machine
  subst hstack
  obtain ⟨himports, -, above', hinner, hstack', -⟩ :=
    minds_enterRun session (.finish pipeline :: .batch rest :: tail) pipeline.target
  rcases (enters_run session (.finish pipeline :: .batch rest :: tail) pipeline.target).above with
    ⟨above, hbodies, habove⟩ | hbegins
  · obtain rfl := List.append_cancel_right (hstack'.symm.trans habove)
    have hnone := deeds_of_inner hinner hbodies
    have hentered : step ⟨session, .batch (pipeline :: rest) :: tail, signal⟩ =
      enterRun session (.finish pipeline :: .batch rest :: tail) pipeline.target := rfl
    refine .inr (.inl ?_)
    rw [hentered, deeds_eq habove, deeds_eq rfl, himports, List.map_append, List.sum_append, hnone]
    simp only [List.map_cons, List.sum_cons, Frame.deeds, List.length_cons]
    omega
  · exact .inl hbegins

/-- The pipelines that wait are taken up, or the frame goes. -/
theorem wanes_enterDrain (hstack : machine.stack = .drain :: tail) :
    machine.Wanes (enterDrain machine.session tail) := by
  have hpassed : (machine.session.engine.prefetchQueue.2.forWaiters Engine.passTurn
      machine.session.waiters).2.imports = machine.session.engine.prefetchQueue.2.imports :=
    Engine.imports_forWaiters Engine.imports_passTurn Engine.touches_passTurn _ _
  obtain ⟨hlength, hqueue⟩ := prefetchBatch_left { machine.session.engine with
    imports := { machine.session.engine.imports with queue := [] } } []
    machine.session.engine.imports.queue
  rw [← Engine.prefetchQueue_eq] at hlength hqueue
  rw [← hpassed] at hqueue
  unfold enterDrain
  dsimp only
  split
  · rename_i hwaiting
    have hpos : 0 < machine.session.engine.imports.queue.length := by
      simpa [List.length_pos_iff] using hwaiting
    refine .inl ?_
    rw [deeds_eq rfl, deeds_eq hstack]
    simp only [List.map_cons, List.sum_cons, Frame.deeds, hqueue]
    simp only [List.length_nil] at hlength ⊢
    omega
  · rename_i hwaiting
    have hnone : machine.session.engine.imports.queue = [] := by simpa using hwaiting
    exact wanes_of_pop hstack rfl (hqueue.trans hnone.symm)

/-- A frame that runs pipelines goes on: pipelines are taken up or run, or the frame goes. -/
theorem wanes_of_outer (hstack : machine.stack = frame :: tail) (houter : frame.isInner = false) :
    machine.BeginsBody ∨ machine.Wanes machine.step := by
  obtain ⟨session, stack, signal⟩ := machine
  subst hstack
  cases frame with
  | finish pipeline =>
      rcases signal with _ | ⟨error | value⟩ <;> exact .inr (wanes_of_pop rfl rfl rfl)
  | batch rest =>
      cases rest with
      | nil =>
          refine .inr (wanes_of_pop rfl rfl ?_)
          have himports := Engine.imports_forWaiters (f := Engine.notice) Engine.imports_notice
            Engine.touches_notice session.engine session.waiters
          exact congrArg Imports.queue himports
      | cons pipeline rest => exact wanes_of_batch rfl
  | drain => exact .inr (wanes_enterDrain rfl)
  | _ => cases houter

/-- **With every step the body of a module begins, or work wanes.** -/
theorem begins_or_wanes (hwork : machine.stack ≠ []) :
    machine.BeginsBody ∨ machine.Wanes machine.step := by
  obtain ⟨frame, tail, hstack⟩ := List.exists_cons_of_ne_nil hwork
  cases hinner : frame.isInner with
  | false => exact wanes_of_outer hstack hinner
  | true =>
      cases hevaluates : frame.evaluates with
      | false => exact .inr (wanes_of_waits hstack hinner hevaluates)
      | true =>
          cases frame with
          | pass rest => exact wanes_of_pass hstack
          | body ref program => exact wanes_of_body hstack
          | _ => cases hevaluates

/-! ## Ending -/

variable {fact : Engine → Prop} {allowed : Instruction → Prop} {ids : List ModuleId}

/-- **Every step leaves less to do**, as long as nobody resets the engine and only these modules can
be registered. -/
theorem left_step_lt (hliving : machine.stage.Living) (hreset : .reset ∉ machine.stepMarks)
    (hids : ∀ id ref, machine.step.session.store.lookup? id = some ref → id ∈ ids)
    (hwork : machine.stack ≠ []) : machine.step.left ids < machine.left ids := by
  have hchain := machine.chain_step
  have hkept (id : ModuleId) (ref : RecordRef) : machine.session.store.lookup? id = some ref →
      machine.step.session.store.lookup? id = some ref := hchain.lookup hreset
  have hbegun (id : ModuleId) : machine.session.store.HasBegun id →
      machine.step.session.store.HasBegun id := hchain.hasBegun hliving hkept
  refine left_lt (Store.unbegun_le hbegun) ?_
  rcases begins_or_wanes hwork with ⟨ref, program, hmarks, id, record, source, hregistered, -⟩ | hwanes
  · refine .inl (Store.unbegun_lt hbegun (hids id ref hregistered.lookup) ?_ ?_)
    · -- a body that has begun does not begin again
      rintro ⟨other, before, hbefore, hstatus⟩
      obtain rfl : ref = other :=
        Option.some.inj (hregistered.lookup.symm.trans (hkept id other hbefore.lookup))
      refine (hchain.orderly hliving).not_mem_begun ?_ (?_ : ref ∈ begun machine.stepMarks)
      · have hbefore' : machine.stage.store.statuses ref = before.status :=
          Store.statuses_of_record hbefore.record
        rwa [hbefore']
      · rw [hmarks]
        exact List.mem_cons_self
    · refine ⟨ref, record, hregistered, ?_⟩
      have hstatuses := hchain.statuses hliving
      rw [hmarks] at hstatuses
      have hstatus : machine.step.session.store.statuses ref = .evaluating := by
        refine (congrFun hstatuses ref).trans ?_
        exact Statuses.write_self _ _ _
      rw [← Store.statuses_of_record hregistered.record, hstatus]
      rfl
  · exact .inr hwanes

end Machine

namespace Engine

variable {config : Config} {host : Host}

theorem Housed.reset {engine : Engine} (hhoused : engine.Housed config host) :
    engine.reset.Housed config host where
  settings := hhoused.settings
  place := hhoused.place
  remembered := nofun
  registered _ _ hlookup := by cases hlookup
  sources := hhoused.sources

/-- Over a steady host all that an engine has is from the host, and bodies keep it so. -/
theorem allows_housed (config : Config) (hsteady : host.Steady) :
    Allows (Housed config host) Instruction.Lasts where
  toUpheldAhead := upheldAhead_housed config host
  reset _ hhoused := hhoused.reset
  lasts _ hlasts := hlasts
  sources _ ref record source hhoused hrecord hsource :=
    hsteady record.id source (hhoused.sources ref record source hrecord hsource)

end Engine

namespace Machine

variable {machine : Machine} {config : Config} {host : Host} {ids : List ModuleId}

/-- A new engine has nothing that is not from its host. -/
theorem upholds_rehost (place : Place) (config : Config) (host : Host) :
    ((new place config).act (.rehost host)).Upholds (Engine.Housed config host) Instruction.Lasts where
  engine := Engine.housed_new config host
  bodies _ _ hbody := absurd hbody List.not_mem_nil

/-- **All work ends** over a steady host with finitely many modules. -/
theorem Upholds.exists_isDone (hsteady : host.Steady) (hconfines : config.Confines host ids)
    (hliving : machine.stage.Living)
    (hupholds : machine.Upholds (Engine.Housed config host) Instruction.Lasts) :
    ∃ count, (machine.after count).isDone = true := by
  -- on what is left to do
  induction hleft : machine.left ids using WellFoundedLT.induction generalizing machine with
  | ind left ih =>
      subst hleft
      by_cases hwork : machine.stack = []
      · exact ⟨0, by rw [after_zero, isDone, hwork]; rfl⟩
      · have hallows := Engine.allows_housed config hsteady
        have hupholds' := hupholds.step hallows
        have hreset := reset_not_mem_stepMarks (hupholds.lasts hallows)
        have hids (id : ModuleId) (ref : RecordRef)
            (hlookup : machine.step.session.store.lookup? id = some ref) : id ∈ ids := by
          obtain ⟨_, -, -, hnames⟩ := hupholds'.engine.registered id ref hlookup
          exact hconfines.2 _ hnames
        obtain ⟨count, hdone⟩ := ih _ (left_step_lt hliving hreset hids hwork)
          (machine.chain_step.living hliving) hupholds' rfl
        exact ⟨count + 1, by rwa [after_succ]⟩

/-- The bodies on the stack are those of different modules, so they are no more than these. -/
theorem Upholds.length_running_le (hconfines : config.Confines host ids)
    (hliving : machine.stage.Living)
    (hupholds : machine.Upholds (Engine.Housed config host) Instruction.Lasts) :
    machine.running.length ≤ ids.length := by
  have hsub : machine.running ⊆ ids.filterMap machine.session.store.lookup? := by
    intro ref href
    obtain ⟨frame, hframe, hrunning⟩ := List.mem_filterMap.mp href
    cases frame with
    | body other program =>
        obtain rfl := Option.some.inj hrunning
        obtain ⟨⟨id, hlookup⟩, -⟩ := hupholds.bodies other program hframe
        obtain ⟨_, -, -, hnames⟩ := hupholds.engine.registered id other hlookup
        exact List.mem_filterMap.mpr ⟨id, hconfines.2 _ hnames, hlookup⟩
    | _ => cases hrunning
  exact (List.subperm_of_subset hliving.nodup hsub).length_le.trans (List.length_filterMap_le _ _)

/-- Work that begins with nothing below it comes back. -/
theorem Upholds.exists_comesBack (hsteady : host.Steady) (hconfines : config.Confines host ids)
    (hliving : machine.stage.Living)
    (hupholds : machine.Upholds (Engine.Housed config host) Instruction.Lasts) :
    ∃ count, machine.ComesBack [] count := by
  obtain ⟨count, hdone⟩ := hupholds.exists_isDone hsteady hconfines hliving
  have hlow : (machine.after count).stack.length ≤ ([] : List Frame).length := by
    rw [List.isEmpty_iff.mp hdone]
  obtain ⟨first, -, hback⟩ := Machine.exists_comesBack hlow
  exact ⟨first, hback⟩

/-- No module is forgotten on the way. -/
theorem Upholds.remembers {fact : Engine → Prop} {allowed : Instruction → Prop}
    (hallows : Engine.Allows fact allowed) (hupholds : machine.Upholds fact allowed) (count : Nat) :
    machine.Remembers count := by
  induction count generalizing machine with
  | zero => exact List.not_mem_nil
  | succ count ih =>
      exact remembers_succ.mpr ⟨reset_not_mem_stepMarks (hupholds.lasts hallows),
        ih (hupholds.step hallows)⟩

/-- It gives a reply then. -/
theorem Upholds.exists_returns (hsteady : host.Steady) (hconfines : config.Confines host ids)
    {imports : Imports} {waiters : List Waiter} (hliving : machine.stage.Living)
    (hupholds : machine.Upholds (Engine.Housed config host) Instruction.Lasts)
    (hminds : machine.Minds [] imports waiters) :
    ∃ count session reply, machine.Returns [] count session reply := by
  obtain ⟨count, hback⟩ := hupholds.exists_comesBack hsteady hconfines hliving
  obtain ⟨session, reply, hended, -⟩ := hminds.given hback
  exact ⟨count, session, reply, hback,
    hupholds.remembers (Engine.allows_housed config hsteady) count, hended⟩

section Called

variable {session : Session} (hsteady : host.Steady) (hconfines : config.Confines host ids)
  (hliving : (idle session).stage.Living) (hhoused : session.engine.Housed config host)
include hsteady hconfines hliving hhoused

/-- A call of `evaluate` returns. -/
theorem exists_returns_evaluate (specifier : String) (referrer? : Option ModuleId) :
    ∃ count final reply,
      (enterEvaluate session [] specifier referrer?).Returns [] count final reply := by
  have hallows := Engine.allows_housed config hsteady
  refine Upholds.exists_returns hsteady hconfines ?_ ?_
    (minds_enterEvaluate session [] specifier referrer?)
  · exact (chain_enterEvaluate session [] specifier referrer?).living hliving
  · exact Upholds.enters hallows (fun _ _ hbody => absurd hbody List.not_mem_nil)
      (enters_evaluate session [] specifier referrer?)
      (upheld_enterEvaluate hallows.toUpheldThroughout hhoused [] specifier referrer?)

/-- A call of `require` returns. -/
theorem exists_returns_require (specifier : String) (referrer? : Option ModuleId) :
    ∃ count final reply,
      (enterRequire session [] specifier referrer?).Returns [] count final reply := by
  have hallows := Engine.allows_housed config hsteady
  refine Upholds.exists_returns hsteady hconfines ?_ ?_
    (minds_enterRequire session [] specifier referrer?)
  · exact (chain_enterRequire session [] specifier referrer?).living hliving
  · exact Upholds.enters hallows (fun _ _ hbody => absurd hbody List.not_mem_nil)
      (enters_require session [] specifier referrer?)
      (upheld_enterRequire hallows.toUpheldThroughout hhoused [] specifier referrer?)

end Called

/-- **Over a host with finitely many modules, whose bodies neither forget the modules nor change the
host, every call ends, however modules lead to one another.**  At any time of a run all work that is
on the stack comes to an end, `evaluate` and `require` give a reply, and the building of a graph is
never cut short.  The bodies that run are those of different modules, and no more than there are
modules. -/
theorem every_call_ends (place : Place) (config : Config) (host : Host) (ids : List ModuleId)
    (hsteady : host.Steady) (hconfines : config.Confines host ids) (acts : List Act)
    (hkeeps : ∀ act ∈ acts, act.KeepsHost) :
    let machine := (new place config).perform (.rehost host :: acts)
    (∃ count, (machine.after count).isDone = true) ∧
      (∀ specifier referrer?, ∃ count session reply,
        (enterEvaluate machine.session [] specifier referrer?).after count =
          giving session [] reply) ∧
      (∀ specifier referrer?, ∃ count session reply,
        (enterRequire machine.session [] specifier referrer?).after count =
          giving session [] reply) ∧
      (∀ specifier resolved ref engine,
        machine.session.engine.attempt (Attempt.resolveAndRegister specifier none) =
          (.ok (resolved, ref), engine) →
        Attempt.Builds resolved.id engine
          (machine.session.engine.attempt (Attempt.graphOf specifier))) ∧
      machine.running.Nodup ∧ machine.running.length ≤ ids.length := by
  intro machine
  have hallows := Engine.allows_housed config hsteady
  have hliving : machine.stage.Living := living_perform place config (.rehost host :: acts)
  have hupholds : machine.Upholds (Engine.Housed config host) Instruction.Lasts :=
    (upholds_rehost place config host).perform hallows hkeeps
  -- a call begins with the modules as they are and nothing else to do
  have hidle : (idle machine.session).stage.Living := (machine.chain_act .abandon).living hliving
  refine ⟨hupholds.exists_isDone hsteady hconfines hliving, fun specifier referrer? => ?_,
    fun specifier referrer? => ?_, fun specifier resolved ref engine hresolved => ?_,
    hliving.nodup, hupholds.length_running_le hconfines hliving⟩
  · obtain ⟨count, session, reply, hreturns⟩ := exists_returns_evaluate hsteady hconfines hidle
      hupholds.engine specifier referrer?
    exact ⟨count, session, reply, hreturns.gives⟩
  · obtain ⟨count, session, reply, hreturns⟩ := exists_returns_require hsteady hconfines hidle
      hupholds.engine specifier referrer?
    exact ⟨count, session, reply, hreturns.gives⟩
  · have hhoused := (hallows.register specifier none).after hupholds.engine
    unfold Attempt.graphOf
    rw [Engine.attempt_bind, hresolved]
    rw [hresolved] at hhoused
    exact Attempt.builds_buildGraph hconfines hhoused resolved.id

/-- Two legacy modules that require each other, and a modern one that imports itself and requires
one of them. -/
def tangle : Shelf :=
  let left : Descriptor := .ofBody [.require "/right.cjs" none]
  let right : Descriptor := .ofBody [.require "/left.cjs" none, .require "/self.mjs" none]
  let self : Descriptor := (Source.ofBody [.require "/left.cjs" none]).importOnly "/self.mjs"
  ((Shelf.empty.insert "/left.cjs" left.toSource).insert "/right.cjs" right.toSource).insert
    "/self.mjs" self.toSource

/-- All three bodies run, one inside the other. -/
def tangleBegun : List Act :=
  .call (.require "/left.cjs" none) none :: List.replicate 4 .step

theorem every_call_ends_tangle :
    let ids := [.ofPath "/left.cjs", .ofPath "/right.cjs", .ofPath "/self.mjs"]
    let machine := (new (.shelf .empty) .standard).perform (.rehost tangle.toHost :: tangleBegun)
    tangle.toHost.Steady ∧ Config.standard.Confines tangle.toHost ids ∧
      (∀ act ∈ tangleBegun, act.KeepsHost) ∧ machine.running.length = 3 ∧
      (∃ count, (machine.after count).isDone = true) ∧ machine.running.length ≤ ids.length := by
  have hsteady : tangle.toHost.Steady :=
    Shelf.steady_insert (Shelf.steady_insert (Shelf.steady_insert Shelf.steady_empty _
      (Descriptor.lasts_toSource _)) _ (Descriptor.lasts_toSource _)) _
      (Descriptor.lasts_toSource _)
  have hconfines : Config.standard.Confines tangle.toHost
      [.ofPath "/left.cjs", .ofPath "/right.cjs", .ofPath "/self.mjs"] :=
    (Shelf.covers tangle).confines .standard
  have hkeeps : ∀ act ∈ tangleBegun, act.KeepsHost := by
    intro act hact
    rcases List.mem_cons.mp hact with rfl | hact
    · rfl
    · rw [List.eq_of_mem_replicate hact]
      trivial
  obtain ⟨hends, -, -, -, -, hlength⟩ := every_call_ends (.shelf .empty) .standard tangle.toHost _
    hsteady hconfines tangleBegun hkeeps
  exact ⟨hsteady, hconfines, hkeeps, by decide +kernel, hends, hlength⟩

end Machine

end Linkage
