import Linkage.Proofs.Engine.Accounting
import Linkage.Proofs.Engine.Studying
import Linkage.Proofs.Runs.Prefetching
import Linkage.Proofs.Runs.Upholding

/-!
# Sources in runs

In a run commands are given from outside and by the bodies of modules.  What is upheld by all that an
engine does is upheld by the run if each command that is given upholds it.  So it is with the sources:
whether modules are loaded at once or fetched ahead, and whatever fails and is tried again, the host
gives each source once, also when modules have been replaced in between.

* `Machine.given`, `Machine.commands` : the commands that an act gives, and a run.
* `Engine.UpheldThroughout.perform` : runs of such commands.
* `Machine.sources_are_given_once` : every run in which the modules are not forgotten.
-/

namespace Linkage

/-! ## The commands of a run -/

namespace Machine

/-- The command that a step gives, if it is an instruction of a body that gives one. -/
def stepCommands (machine : Machine) : List Command :=
  match machine.stack, machine.signal with
  | .body ref (instruction :: _) :: _, .go
  | .body ref (instruction :: _) :: _, .reply (.ok _) =>
      match machine.session.store.record? ref with
      | none => []
      | some _ => instruction.command?.toList
  | _, _ => []

/-- The commands that an act gives. -/
def given (machine : Machine) : Act → List Command
  | .step => machine.stepCommands
  | .call command _ => if machine.isDone then [command] else []
  | .conclude _ _ _ | .abandon | .rehost _ => []

/-- The commands that a run gives, in order. -/
def commands (machine : Machine) : List Act → List Command
  | [] => []
  | first :: rest => machine.given first ++ (machine.act first).commands rest

theorem commands_append (machine : Machine) (acts more : List Act) :
    machine.commands (acts ++ more) = machine.commands acts ++ (machine.perform acts).commands more := by
  induction acts generalizing machine with
  | nil => rfl
  | cons first rest ih =>
      rw [List.cons_append, commands, ih, commands, List.append_assoc]
      rfl

theorem Next.mem_stepCommands {machine : Machine} {ref : RecordRef} {record : Record}
    {instruction : Instruction} {rest : Program} {tail : List Frame}
    (hnext : machine.Next ref record instruction rest tail) {command : Command}
    (hgiven : instruction.command? = some command) : command ∈ machine.stepCommands := by
  obtain ⟨session, stack, signal⟩ := machine
  obtain ⟨rfl, hrecord, rfl | ⟨value, rfl⟩⟩ := hnext <;>
    simp [stepCommands, show session.store.record? ref = some record from hrecord, hgiven]

end Machine

namespace Engine.UpheldThroughout

variable {fact : Engine → Prop} (hupheld : Engine.UpheldThroughout fact)
  (hrehost : ∀ (engine : Engine) (host : Host), fact engine → fact { engine with host })
  {machine : Machine}
include hupheld hrehost

theorem act (hfact : fact machine.session.engine) {act : Act}
    (hspares : ∀ command ∈ machine.given act, command.Spares) :
    fact (machine.act act).session.engine := by
  cases act with
  | step =>
      refine Machine.upheld_step hupheld hfact ?_
      intro ref record instruction rest tail hnext command hgiven
      exact hupheld.answer_of_rehost hrehost (hspares command (hnext.mem_stepCommands hgiven))
  | call command save? =>
      unfold Machine.act
      unfold Machine.given at hspares
      dsimp only at hspares ⊢
      split
      · rename_i hdone
        rw [if_pos hdone] at hspares
        have hspared := hspares command (List.mem_singleton_self command)
        refine Machine.upheld_opening hupheld hfact (hupheld.answer_of_rehost hrehost hspared)
          (fun hinspects => ?_) save?
        cases hspared.inspects.symm.trans hinspects
      · exact hfact
  | conclude command save? reply =>
      unfold Machine.act
      dsimp only
      split
      · exact hupheld.same (.of_stirs (machine.session.stirs_closing command save? reply)) hfact
      · exact hfact
  | abandon => exact hfact
  | rehost host => exact hrehost machine.session.engine host hfact

/-- **What is upheld by all that an engine does holds at the end of a run** in which nobody forgets the
modules or has the host give sources for nothing. -/
theorem perform (hfact : fact machine.session.engine) {acts : List Act}
    (hspares : ∀ command ∈ machine.commands acts, command.Spares) :
    fact (machine.perform acts).session.engine := by
  induction acts generalizing machine with
  | nil => exact hfact
  | cons first rest ih =>
      obtain ⟨hfirst, hrest⟩ := List.forall_mem_append.mp hspares
      exact ih (hupheld.act hrehost hfact hfirst) hrest

end Engine.UpheldThroughout

/-! ## Sources -/

/-- Whether a command forgets the modules. -/
def Command.forgets : Command → Bool
  | .reset => true
  | _ => false

theorem Command.spares_iff {command : Command} :
    command.Spares ↔ command.forgets = false ∧ command.inspects = false := by
  refine ⟨fun hspares => ⟨?_, hspares.inspects⟩, fun hspares => ⟨?_, hspares.2⟩⟩
  · cases command with
    | reset => exact absurd rfl hspares.reset
    | _ => rfl
  · rintro rfl
    cases hspares.1

instance (command : Command) : Decidable command.Spares :=
  decidable_of_iff _ Command.spares_iff.symm

namespace Machine

/-- **Every source is given once.**  In every run over modules in memory in which the modules are not
forgotten and nobody else has sources given, whichever modules are replaced: from any state of the run
to any later one no source and no analysis is replaced; each analysis is what is read off the source
that is kept with it, now and at any later time; and the host has given as many sources as there are
records that have one, each the record of a module. -/
theorem sources_are_given_once (shelf : Shelf) (config : Config) (acts more : List Act) :
    let start := new (.shelf shelf) config
    let before := (start.perform acts).session
    let after := (start.perform (acts ++ more)).session
    (∀ command ∈ start.commands (acts ++ more), command.Spares) →
      before.store.Keeps after.store ∧
      (∀ ref record analysis, after.store.record? ref = some record →
        record.analysis? = some analysis → ∃ source, record.source? = some source ∧
          record.ReadsAs after.engine source analysis) ∧
      (∀ ref record, after.store.record? ref = some record →
        after.store.lookup? record.id = some ref) ∧
      after.engine.loads = after.store.loaded ∧
      ∀ found, after.place = .shelf found → after.loadCount = after.store.loaded := by
  intro start before after hspares
  rw [commands_append] at hspares
  obtain ⟨hfirst, hlast⟩ := List.forall_mem_append.mp hspares
  have hrehost (store : Store) (engine : Engine) (host : Host)
      (hfact : engine.Balanced ∧ store.Keeps engine.store) :
      Engine.Balanced { engine with host } ∧ store.Keeps engine.store :=
    ⟨⟨hfact.1.named, hfact.1.registered, hfact.1.loads⟩, hfact.2⟩
  have hbefore := (Engine.keptStepwise_balanced start.session.store).throughout.perform
    (hrehost start.session.store) ⟨Engine.balanced_new shelf.toHost config, .refl _⟩ hfirst
  have hafter := (Engine.keptStepwise_balanced before.store).throughout.perform
    (hrehost before.store) ⟨hbefore.1, .refl _⟩ hlast
  rw [← perform_append] at hafter
  obtain ⟨hbalanced, hkeeps⟩ := hafter
  have hstudied : after.engine.Studied :=
    Engine.upheldAlways_studied.perform (Engine.studied_new shelf.toHost config) (acts ++ more)
  refine ⟨hkeeps, fun ref record analysis hrecord hanalysis => ?_, hbalanced.registered,
    hbalanced.loads, fun found hplace => ?_⟩
  · obtain ⟨source, hsource⟩ := Option.isSome_iff_exists.mp
      (hstudied.sourced ref record hrecord (Option.isSome_iff_exists.mpr ⟨analysis, hanalysis⟩))
    exact ⟨source, hsource, hstudied.read record.id ref record source analysis
      ⟨hbalanced.registered ref record hrecord, hrecord⟩ hsource hanalysis⟩
  · unfold Session.loadCount
    rw [hplace]
    exact hbalanced.loads

/-- All three modules of the ladder are fetched and run. -/
def ladderClimbed : List Act := .call (.importNow "/top.mjs" none) none :: List.replicate 12 .step

/-- Then the last one is replaced, and looked at again. -/
def ladderReplaced : List Act :=
  [.call (.insert "/base.mjs" ((Source.ofBody [.announce]).importOnly "/top.mjs")) none,
    .call (.graph "/base.mjs" []) none, .call (.importNow "/base.mjs" none) none, .step, .step]

/-- Three sources have been given, and the old one is kept. -/
theorem sources_are_given_once_ladder :
    let start := new (.shelf ladder) .standard
    let before := (start.perform ladderClimbed).session
    let after := (start.perform (ladderClimbed ++ ladderReplaced)).session
    (∀ command ∈ start.commands (ladderClimbed ++ ladderReplaced), command.Spares) ∧
      before.store.loaded = 3 ∧ before.store.Keeps after.store ∧ after.engine.loads = 3 ∧
      after.store.loaded = 3 := by
  intro start before after
  have hspares : ∀ command ∈ start.commands (ladderClimbed ++ ladderReplaced), command.Spares := by
    decide +kernel
  have hkeeps :=
    (sources_are_given_once ladder .standard ladderClimbed ladderReplaced hspares).1
  exact ⟨hspares, by decide +kernel, hkeeps, by decide +kernel, by decide +kernel⟩

end Machine

end Linkage
