import Linkage.Proofs.Engine.Prefetching

/-!
# Facts kept step by step

An engine learns of modules in few ways: it remembers an answer, registers a module, keeps a source
for a module that has none, and keeps the analysis of a source that it has just read.  What each of
these keeps is kept by all that an engine does at once and by dynamic imports.

* `Engine.HasRead` : the declarations of a source have just been read.
* `Engine.KeptStepwise` : what each of the steps keeps.
* `Engine.KeptStepwise.throughout` : all that an engine does keeps it.
-/

namespace Linkage

namespace Engine

open Attempt

/-- The declarations of a source have been read just now. -/
def HasRead (engine : Engine) (record : Record) (source : ModuleSource) (analysis : Analysis) : Prop :=
  match record.format with
  | .legacy => analysis = .ofLegacy source
  | .modern => ∃ before : Engine,
      before.attempt (analyzeModern record.id source) = (.ok analysis, engine)

/-- A fact about engines that every step of learning keeps. -/
structure KeptStepwise (fact : Engine → Prop) : Prop where
  named : ∀ engine, fact engine → engine.store.Named
  same : ∀ {engine engine' : Engine}, engine.KnowsSame engine' → fact engine → fact engine'
  resolve : ∀ specifier referrer?, Keeps fact (Attempt.resolve specifier referrer?)
  create : ∀ {engine : Engine} (id : ModuleId) (format : Format), fact engine →
    fact { engine with store := (engine.store.getOrCreate id format).2 }
  source : ∀ {engine : Engine} {ref : RecordRef} {record : Record} (source : ModuleSource),
    fact engine → engine.store.record? ref = some record → record.source? = none →
    fact { engine with
      loads := engine.loads + 1
      store := engine.store.modify ref (fun record => { record with source? := some source }) }
  analysis : ∀ {engine : Engine} {ref : RecordRef} {record : Record} {source : ModuleSource}
    {analysis : Analysis}, fact engine → engine.store.record? ref = some record →
    record.source? = some source → record.analysis? = none →
    engine.HasRead record source analysis →
    fact { engine with
      store := engine.store.modify ref (fun record => { record with analysis? := some analysis }) }

namespace KeptStepwise

variable {fact : Engine → Prop} (hkept : KeptStepwise fact)
include hkept

theorem keeps_getOrCreate (resolved : Resolved) :
    Keeps fact (onStore (·.getOrCreate resolved.id resolved.format)) :=
  .onStore (fun _ hfact => hkept.create resolved.id resolved.format hfact)

theorem keeps_register (specifier : String) (referrer? : Option ModuleId) :
    Keeps fact (resolveAndRegister specifier referrer?) :=
  (hkept.resolve specifier referrer?).seq (fun resolved =>
    (hkept.keeps_getOrCreate resolved).seq (fun _ => .pure (fun _ hfact => hfact)))

theorem triple_fetchSource (ref : RecordRef) (record : Record) :
    Triple (fun engine => fact engine ∧ engine.store.record? ref = some record)
      (fetchSource ref record) (fun _ => fact) fact := by
  intro engine hpre
  rcases attempt_fetchSource_cases engine ref record with
    ⟨_, -, heq⟩ | ⟨hnew, ⟨_, -, heq⟩ | ⟨source, -, heq⟩⟩ <;> rw [heq]
  · exact ⟨fun _ _ => hpre.1, fun _ _ => hpre.1⟩
  · exact ⟨fun _ _ => hpre.1, fun _ _ => hpre.1⟩
  · have hsourced := hkept.source source hpre.1 hpre.2 hnew
    exact ⟨fun _ _ => hsourced, fun _ _ => hsourced⟩

/-- A source is kept of a record that has none. -/
theorem triple_sourceOf (ref : RecordRef) (record : Record) :
    Triple (fun engine => fact engine ∧ engine.store.record? ref = some record)
      (sourceOf ref record)
      (fun source engine => fact engine ∧
        engine.store.record? ref = some { record with source? := some source }) fact := by
  intro engine hpre
  unfold sourceOf
  cases hsource : record.source? with
  | some source =>
      refine ⟨fun found hfound => ⟨hpre.1, ?_⟩, nofun⟩
      obtain rfl : source = found := Except.ok.inj hfound
      rw [attempt_pure, hpre.2, ← hsource]
  | none =>
      dsimp only
      rw [attempt_bind, attempt_get]
      dsimp only
      unfold keepSource
      rw [attempt_bind, attempt_ofExcept]
      cases engine.host.load record.id with
      | error error => exact ⟨nofun, fun _ _ => hpre.1⟩
      | ok source =>
          refine ⟨fun found hfound => ?_, nofun⟩
          obtain rfl : source = found := Except.ok.inj hfound
          exact ⟨hkept.source source hpre.1 hpre.2 hsource, Store.record?_modify_self _ hpre.2⟩

/-- The analysis of a source that has just been read is kept. -/
theorem triple_keepAnalysis (ref : RecordRef) {record : Record} {source : ModuleSource}
    (hnew : record.analysis? = none) (analysis : Analysis) :
    Triple (fun engine => (fact engine ∧
        engine.store.record? ref = some { record with source? := some source }) ∧
        engine.HasRead { record with source? := some source } source analysis)
      (do
        onStore (fun store => ((), store.modify ref (fun record =>
          { record with analysis? := some analysis })))
        return analysis.requested) (fun _ => fact) fact := by
  have hstored : Triple (fun engine => (fact engine ∧
        engine.store.record? ref = some { record with source? := some source }) ∧
        engine.HasRead { record with source? := some source } source analysis)
      (onStore (fun store => ((), store.modify ref (fun record =>
        { record with analysis? := some analysis })))) (fun _ => fact) fact :=
    .onStore (fun _ hpre => hkept.analysis hpre.1.1 hpre.1.2 rfl hnew hpre.2)
  exact hstored.bind (fun _ => .pure (fun _ hfact => hfact))

theorem triple_analyze (ref : RecordRef) (record : Record) :
    Triple (fun engine => fact engine ∧ engine.store.record? ref = some record)
      (analyze ref record) (fun _ => fact) fact := by
  unfold analyze
  split
  · exact .pure (fun _ hpre => hpre.1)
  rename_i hnew
  refine (hkept.triple_sourceOf ref record).bind (fun source => ?_)
  cases hformat : record.format with
  | legacy =>
      refine Triple.bind (.pure (fun _ hpre => ⟨hpre, ?_⟩)) (hkept.triple_keepAnalysis ref hnew)
      unfold HasRead
      rw [show Record.format { record with source? := some source } = .legacy from hformat]
  | modern =>
      have hread : Keeps fact (analyzeModern record.id source) :=
        (triple_analyzeModern source (fun specifier _ => hkept.keeps_register specifier _)).imp
          (fun _ hfact => hfact) (fun _ _ hpost => hpost.1) (fun _ hfact => hfact)
      have hrecord : Keeps (fun engine =>
          engine.store.record? ref = some { record with source? := some source })
          (analyzeModern record.id source) := keeps_record_analyzeModern _ _
      have hboth := (hread.and hrecord).imp (fun _ hpre => hpre) (fun _ _ hpost => hpost)
        (fun _ hfails => hfails.1)
      refine Triple.bind (hboth.also (fun analysis engine =>
        engine.HasRead { record with source? := some source } source analysis) ?_)
        (hkept.triple_keepAnalysis ref hnew)
      intro engine _ analysis hanalysis
      unfold HasRead
      rw [show Record.format { record with source? := some source } = .modern from hformat]
      exact ⟨engine, Prod.ext hanalysis rfl⟩

theorem taught : Taught fact where
  register := hkept.keeps_register
  analyze := hkept.triple_analyze

theorem taughtApart : TaughtApart fact where
  toTaught := hkept.taught
  named := hkept.named
  fetch := hkept.triple_fetchSource

/-- **What every step keeps is kept by all that an engine does.** -/
theorem throughout : UpheldThroughout fact where
  toTaught := hkept.taught
  same := hkept.same
  resolve := hkept.resolve
  load ref record := (hkept.triple_sourceOf ref record).imp (fun _ hpre => hpre)
    (fun _ _ hpost => hpost.1) (fun _ hfails => hfails)
  prefetch := hkept.taughtApart.keeps_prefetch
  join specifier requester? := by
    refine (hkept.resolve specifier requester?).seq (fun resolved => ?_)
    have hjoined := triple_joinOrStart (fun engine _ => hkept.same (.of_imports engine _)) (fun _ hfact => hfact)
      (hkept.keeps_getOrCreate resolved)
    exact Keeps.seq hjoined (fun _ => .pure (fun _ hfact => hfact))

end KeptStepwise

end Engine

end Linkage
