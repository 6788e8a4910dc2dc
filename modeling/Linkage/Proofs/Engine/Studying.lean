import Linkage.Proofs.Engine.Stepping
import Linkage.Proofs.Runs.Upholding

/-!
# Analyses and their sources

A module is analyzed from the source that it keeps, and what its specifiers lead to is remembered.  So
whoever reads the declarations of that source again, at any later time and over whatever host, finds
the analysis that is kept, and learns nothing.

* `Record.ReadsAs` : the declarations of a source are these from now on.
* `Engine.Studied` : every analysis is that of the source that is kept with it.
* `Engine.upheldAlways_studied` : so it is in every run.
* `Engine.Studied.heard`, `Engine.Studied.requestsFound` : a module asks for what its source names, and
  all of it is registered.
-/

namespace Linkage

/-- Whoever reads the declarations of a source from now on finds this analysis, and learns nothing. -/
def Record.ReadsAs (record : Record) (engine : Engine) (source : ModuleSource)
    (analysis : Analysis) : Prop :=
  match record.format with
  | .legacy => analysis = .ofLegacy source
  | .modern => ∀ later : Engine, engine.Retains later →
      later.attempt (Attempt.analyzeModern record.id source) = (.ok analysis, later)

theorem Record.ReadsAs.mono {record record' : Record} {engine engine' : Engine}
    {source : ModuleSource} {analysis : Analysis} (hreads : record.ReadsAs engine source analysis)
    (hid : record'.id = record.id) (hformat : record'.format = record.format)
    (hretains : engine.Retains engine') : record'.ReadsAs engine' source analysis := by
  unfold ReadsAs at hreads ⊢
  rw [hformat, hid]
  cases hmodern : record.format with
  | legacy =>
      rw [hmodern] at hreads
      exact hreads
  | modern =>
      rw [hmodern] at hreads
      exact fun later hlater => hreads later (hretains.trans hlater)

namespace Engine

/-- What has just been read is so from now on. -/
theorem HasRead.readsAs {engine : Engine} {record : Record} {source : ModuleSource}
    {analysis : Analysis} (hread : engine.HasRead record source analysis) :
    record.ReadsAs engine source analysis := by
  unfold HasRead at hread
  unfold Record.ReadsAs
  cases hformat : record.format with
  | legacy =>
      rw [hformat] at hread
      exact hread
  | modern =>
      rw [hformat] at hread
      obtain ⟨before, hbefore⟩ := hread
      intro later hlater
      have hagain := (Attempt.repeats_analyzeModern record.id source before).2 later
      rw [hbefore] at hagain
      exact hagain (.of_ok hlater)

/-- What has been analyzed has a source, and of a module that is registered the analysis is that of
its source. -/
structure Studied (engine : Engine) : Prop where
  named : engine.store.Named
  sourced : ∀ ref record, engine.store.record? ref = some record → record.analysis?.isSome →
    record.source?.isSome
  read : ∀ id ref record source analysis, engine.store.Registered id ref record →
    record.source? = some source → record.analysis? = some analysis →
    record.ReadsAs engine source analysis

variable {engine engine' : Engine}

theorem studied_new (host : Host) (config : Config) : (new host config).Studied where
  named _ _ hlookup := by cases hlookup
  sourced _ _ hrecord := by simp [new, Store.empty, Store.record?] at hrecord
  read _ _ _ _ _ hregistered := by cases hregistered.lookup

namespace Studied

/-- More is remembered, and modules are there that have not been analyzed. -/
theorem of_known (hstudied : engine.Studied) (hnamed : engine'.store.Named)
    (hretains : engine.Retains engine')
    (hrecords : ∀ ref record', engine'.store.record? ref = some record' →
      record'.analysis? = none ∨
      ∃ record, engine.store.record? ref = some record ∧ record.KnownAs record' ∧
        ∀ id, engine'.store.lookup? id = some ref → engine.store.lookup? id = some ref) :
    engine'.Studied where
  named := hnamed
  sourced ref record' hrecord' hanalyzed := by
    rcases hrecords ref record' hrecord' with hnone | ⟨record, hrecord, hknown, -⟩
    · simp [hnone] at hanalyzed
    · rw [hknown.analysis] at hanalyzed
      rw [hknown.source]
      exact hstudied.sourced ref record hrecord hanalyzed
  read id ref record' source analysis hregistered hsource hanalysis := by
    rcases hrecords ref record' hregistered.record with hnone | ⟨record, hrecord, hknown, hlookup⟩
    · cases hnone.symm.trans hanalysis
    · rw [hknown.source] at hsource
      rw [hknown.analysis] at hanalysis
      exact (hstudied.read id ref record source analysis ⟨hlookup id hregistered.lookup, hrecord⟩
        hsource hanalysis).mono hknown.id hknown.format hretains

/-- The host does not matter, nor how many sources it has given. -/
theorem of_same (hstudied : engine.Studied) (host : Host) (loads : Nat) :
    Studied { engine with host, loads } :=
  hstudied.of_known hstudied.named ⟨fun _ _ _ hknown => hknown, fun _ _ hlookup => hlookup⟩
    (fun _ record hrecord => .inr ⟨record, hrecord, .refl record, fun _ hlookup => hlookup⟩)

theorem knowsSame (hstudied : engine.Studied) (hsame : engine.KnowsSame engine') :
    engine'.Studied := by
  refine hstudied.of_known (fun id ref hlookup => ?_) ?_ (fun ref record' hrecord' => ?_)
  · rw [hsame.store.lookup] at hlookup
    obtain ⟨record, hrecord, hid⟩ := hstudied.named id ref hlookup
    obtain ⟨record', hrecord', hknown⟩ := hsame.store.record ref record hrecord
    exact ⟨record', hrecord', hknown.id.trans hid⟩
  · refine ⟨fun _ _ _ hknown => ?_, fun id ref hlookup => (hsame.store.lookup id).trans hlookup⟩
    rwa [hsame.resolver]
  · obtain ⟨record, hrecord, hknown⟩ := hsame.store.back hrecord'
    exact .inr ⟨record, hrecord, hknown, fun id hlookup => (hsame.store.lookup id).symm.trans hlookup⟩

theorem getOrCreate (hstudied : engine.Studied) (id : ModuleId) (format : Format) :
    Studied { engine with store := (engine.store.getOrCreate id format).2 } := by
  have hlearn : engine.store.Learn _ := .register id format
  refine hstudied.of_known (hlearn.named hstudied.named)
    ⟨fun _ _ _ hknown => hknown, fun _ _ hlookup => hlearn.lookup hlookup⟩
    (fun ref record' hrecord' => ?_)
  rcases engine.store.getOrCreate_cases id format with
    ⟨_, -, heq⟩ | ⟨-, heap, fresh, hfresh, -, heq⟩
  · dsimp only at hrecord' ⊢
    rw [heq] at hrecord' ⊢
    exact .inr ⟨record', hrecord', .refl record', fun _ hlookup => hlookup⟩
  · dsimp only at hrecord' ⊢
    rw [heq] at hrecord' ⊢
    rw [Store.record?_register] at hrecord'
    split at hrecord'
    · obtain rfl := Option.some.inj hrecord'
      obtain ⟨_, _, rfl⟩ := hfresh
      exact .inl rfl
    · rename_i hother
      refine .inr ⟨record', hrecord', .refl record', fun other hlookup => ?_⟩
      rw [Store.lookup?_register] at hlookup
      split at hlookup
      · exact absurd (congrArg RecordRef.index (Option.some.inj hlookup)).symm hother
      · exact hlookup

theorem keepSource (hstudied : engine.Studied) {ref : RecordRef} {record : Record}
    (hrecord : engine.store.record? ref = some record) (hnew : record.source? = none)
    (source : ModuleSource) (loads : Nat) : Studied { engine with
      loads
      store := engine.store.modify ref (fun record => { record with source? := some source }) } := by
  have hlearn := Store.Learn.source hrecord hnew source
  refine hstudied.of_known (hlearn.named hstudied.named)
    ⟨fun _ _ _ hknown => hknown, fun _ _ hlookup => hlookup⟩ (fun other found hfound => ?_)
  rw [Store.record?_modify] at hfound
  split at hfound
  · -- what has no source has not been analyzed
    rename_i hsame
    subst hsame
    rw [hrecord] at hfound
    obtain rfl := Option.some.inj hfound
    refine .inl ?_
    rw [← Option.not_isSome_iff_eq_none]
    intro hanalyzed
    have hsourced := hstudied.sourced other record hrecord hanalyzed
    rw [hnew] at hsourced
    cases hsourced
  · exact .inr ⟨found, hfound, .refl found, fun _ hlookup => hlookup⟩

theorem keepAnalysis (hstudied : engine.Studied) {ref : RecordRef} {record : Record}
    {source : ModuleSource} {analysis : Analysis} (hrecord : engine.store.record? ref = some record)
    (hsource : record.source? = some source) (hread : record.ReadsAs engine source analysis) :
    Studied { engine with
      store := engine.store.modify ref (fun record => { record with
        analysis? := some analysis }) } where
  named id other hlookup := by
    obtain ⟨found, hfound, hid⟩ := hstudied.named id other hlookup
    rw [Store.record?_modify, hfound]
    split
    · exact ⟨_, rfl, hid⟩
    · exact ⟨found, rfl, hid⟩
  sourced other found hfound hanalyzed := by
    rw [Store.record?_modify] at hfound
    split at hfound
    · rename_i hsame
      subst hsame
      rw [hrecord] at hfound
      obtain rfl := Option.some.inj hfound
      exact Option.isSome_iff_exists.mpr ⟨source, hsource⟩
    · exact hstudied.sourced other found hfound hanalyzed
  read id other found source' analysis' hregistered hsource' hanalysis' := by
    have hfound := hregistered.record
    rw [Store.record?_modify] at hfound
    split at hfound
    · rename_i hsame
      subst hsame
      rw [hrecord] at hfound
      obtain rfl := Option.some.inj hfound
      obtain rfl := Option.some.inj hanalysis'
      obtain rfl := Option.some.inj (hsource.symm.trans hsource')
      exact hread.mono rfl rfl ⟨fun _ _ _ hknown => hknown, fun _ _ hlookup => hlookup⟩
    · exact (hstudied.read id other found source' analysis' ⟨hregistered.lookup, hfound⟩ hsource'
        hanalysis').mono rfl rfl ⟨fun _ _ _ hknown => hknown, fun _ _ hlookup => hlookup⟩

end Studied

open Attempt

theorem keptStepwise_studied : KeptStepwise Studied where
  named _ hstudied := hstudied.named
  same hsame hstudied := hstudied.knowsSame hsame
  resolve specifier referrer? := .of_after (fun engine hstudied => by
    rw [attempt_resolve]
    refine hstudied.of_known hstudied.named
      ⟨engine.resolver.recalls_resolve _ _ _ _, fun _ _ hlookup => hlookup⟩ ?_
    exact fun ref record hrecord => .inr ⟨record, hrecord, .refl record, fun _ hlookup => hlookup⟩)
  create id format hstudied := hstudied.getOrCreate id format
  source source hstudied hrecord hnew := hstudied.keepSource hrecord hnew source _
  analysis hstudied hrecord hsource _ hread := hstudied.keepAnalysis hrecord hsource hread.readsAs

/-- **A module asks for what its source names,** and remembers the answers. -/
theorem Studied.heard (hstudied : engine.Studied) {id : ModuleId} {ref : RecordRef} {record : Record}
    (hregistered : engine.store.Registered id ref record) (hmodern : record.format = .modern)
    {analysis : Analysis} (hanalysis : record.analysis? = some analysis) :
    ∃ source, record.source? = some source ∧ Heard id source.specifiers analysis engine := by
  obtain ⟨source, hsource⟩ := Option.isSome_iff_exists.mp
    (hstudied.sourced ref record hregistered.record (Option.isSome_iff_exists.mpr ⟨_, hanalysis⟩))
  have hreads := hstudied.read id ref record source analysis hregistered hsource hanalysis
  unfold Record.ReadsAs at hreads
  rw [hmodern] at hreads
  obtain ⟨found, hfound, rfl⟩ := hstudied.named id ref hregistered.lookup
  obtain rfl := Option.some.inj (hregistered.record.symm.trans hfound)
  have hheard := (@triple_analyzeModern (fun _ => True) record.id source
    (fun _ _ => .of_after (fun _ _ => trivial))) engine trivial
  rw [hreads engine (.refl engine)] at hheard
  exact ⟨source, hsource, (hheard.1 analysis rfl).2⟩

/-- **What a module asks for is registered**, since reading its declarations again registers nothing. -/
theorem Studied.requestsFound (hstudied : engine.Studied) : engine.store.RequestsFound := by
  intro id ref record hregistered dependency hdependency
  suffices hlookup : (engine.store.lookup? dependency).isSome by
    obtain ⟨target, htarget⟩ := Option.isSome_iff_exists.mp hlookup
    obtain ⟨found, hfound, -⟩ := hstudied.named dependency target htarget
    rw [Store.Registered.find ⟨htarget, hfound⟩]
    rfl
  unfold Record.requested at hdependency
  cases hanalysis : record.analysis? with
  | none =>
      rw [hanalysis] at hdependency
      cases hdependency
  | some analysis =>
      rw [hanalysis] at hdependency
      obtain ⟨source, hsource⟩ := Option.isSome_iff_exists.mp
        (hstudied.sourced ref record hregistered.record (by rw [hanalysis]; rfl))
      have hreads := hstudied.read id ref record source analysis hregistered hsource hanalysis
      unfold Record.ReadsAs at hreads
      cases hformat : record.format with
      | legacy =>
          rw [hformat] at hreads
          subst hreads
          cases hdependency
      | modern =>
          rw [hformat] at hreads
          have hended := meets_analyzeModern record.id source engine rfl hregistered.record
          rw [hreads engine (.refl engine)] at hended
          exact (hended.ok analysis rfl).2.1 dependency hdependency

/-- **In every run** what is analyzed is read off the source that is kept. -/
theorem upheldAlways_studied : UpheldAlways Studied where
  toUpheldThroughout := keptStepwise_studied.throughout
  recount engine loads hstudied := hstudied.of_same engine.host loads
  reset _ hstudied := ⟨(by rintro _ _ ⟨⟩), hstudied.sourced, fun _ _ _ _ _ hregistered => by
    cases hregistered.lookup⟩
  rehost engine host hstudied := hstudied.of_same host engine.loads

end Engine

end Linkage
