import Linkage.Proofs.Engine.Bounding
import Linkage.Proofs.Engine.Stocking

/-!
# What fetching ahead provides

When the sources of a module have been fetched ahead, all is at hand that its graph needs.  If in turn
a graph can be built over a host that fetches what it loads, then fetching ahead cannot fail: it meets
no module that the graph does not hold, and asks for nothing that building the graph did not ask for.

* `Engine.Studied.stocked` : what has been fetched is at hand.
* `Attempt.stocked_of_prefetch` : fetching ahead provides what a graph needs.
* `Engine.Built` : what is known of an engine that has built a graph.
* `Attempt.prefetch_of_built` : fetching ahead succeeds where building succeeds.
-/

namespace Linkage

open Attempt

/-! ## Provided by fetching -/

section Provided

variable {engine after : Engine} {root : ModuleId} {ref : RecordRef} {record : Record}
  {all : List ModuleId}

/-- Modules that have been fetched are at hand, also those that had been analyzed before. -/
theorem Engine.Studied.stocked (hstudied : engine.Studied)
    (hgathered : ∀ id ∈ all, engine.Gathered all id)
    (hroot : engine.store.Registered root ref record) (hunsettled : record.status.isSettled = false) :
    engine.Stocked root (· ∈ all) := by
  intro id hid
  obtain ⟨other, found, hfound, hcases⟩ := hgathered id hid
  refine ⟨other, found, hfound, ?_⟩
  rcases hcases with hsettled | ⟨source, hsource, hleads⟩
  · refine .inl ⟨?_, hsettled⟩
    rintro rfl
    obtain ⟨-, rfl⟩ := hfound.unique hroot
    cases hsettled.symm.trans hunsettled
  · have hforesees (hmodern : found.format = .modern) :
        ∀ specifier ∈ source.specifiers, engine.Foresees (· ∈ all) id specifier := by
      intro specifier hspecifier
      obtain ⟨resolved, hknown, hmem⟩ := hleads hmodern specifier hspecifier
      obtain ⟨ref', _, hregistered, -⟩ := hgathered resolved.id hmem
      exact ⟨resolved, hknown, hmem, ref', hregistered.lookup⟩
    obtain ⟨same, hsame, hname⟩ := hstudied.named id other hfound.lookup
    obtain rfl := Option.some.inj (hfound.record.symm.trans hsame)
    subst hname
    cases hanalysis : found.analysis? with
    | none => exact .inr (.inr ⟨hanalysis, source, hsource, hforesees⟩)
    | some analysis =>
        refine .inr (.inl ⟨analysis, hanalysis, fun hmodern => ?_⟩)
        obtain ⟨kept, hkept, hheard⟩ := hstudied.heard hfound hmodern hanalysis
        obtain rfl := Option.some.inj (hkept.symm.trans hsource)
        exact within_of_foresees (hforesees hmodern) hheard

namespace Attempt

/-- For a settled module nothing is fetched. -/
theorem attempt_prefetch_of_settled (hregistered : engine.store.Registered root ref record)
    (hsettled : record.status.isSettled = true) :
    engine.attempt (prefetch root) = (.ok (), engine) := by
  have hnone : engine.attempt (fetchLevel [root] [root]) = (.ok ([], [root]), engine) := by
    have hunsettled : engine.attempt (unsettled [root]) = (.ok [], engine) := by
      unfold unsettled
      rw [Engine.attempt_bind, Engine.attempt_get]
      dsimp only
      rw [List.filterMap_cons, hregistered.lookup, hregistered.find]
      dsimp only
      rw [if_pos hsettled]
      rfl
    unfold fetchLevel
    rw [Engine.attempt_bind, hunsettled]
    rfl
  unfold prefetch
  rw [Engine.attempt_bind, Engine.attempt_get]
  dsimp only
  rw [attempt_prefetchLevels_succ _ _ _ (List.cons_ne_nil root []), hnone]
  exact attempt_prefetchLevels_nil _ _ _

/-- **Fetching ahead provides what the graph of its module needs.** -/
theorem stocked_of_prefetch (hstudied : engine.Studied)
    (hregistered : engine.store.Registered root ref record)
    (hunsettled : record.status.isSettled = false)
    (hprefetches : Prefetches root engine (.ok (), after)) :
    engine.Enriched after ∧ ∃ all : List ModuleId, root ∈ all ∧ after.Stocked root (· ∈ all) := by
  obtain ⟨⟨result, engine'⟩, hfetches, hended⟩ := hprefetches
  obtain ⟨hresult, rfl⟩ := Prod.mk.inj hended
  cases result with
  | error error => cases hresult
  | ok all =>
      have hends := hfetches.ends
        (fun start level _ _ => Engine.keptStepwise_studied.taughtApart.fetchable start level)
        hstudied (between_root hstudied.named hregistered.lookup) (fun _ _ => trivial)
      obtain ⟨hstudied', henriched, hseen, -, hgathered⟩ := hends.1 all rfl
      obtain ⟨record', hrecord', hinformed⟩ :=
        henriched.store.enriches.record ref record hregistered.record
      have hlookup' := henriched.store.enriches.lookup root ref hregistered.lookup
      refine ⟨henriched, all, hseen (List.mem_singleton_self root),
        hstudied'.stocked hgathered ⟨hlookup', hrecord'⟩ ?_⟩
      rwa [hinformed.status]

end Attempt

end Provided

/-! ## Fetching where a graph can be built -/

namespace Engine

variable {config : Config} {host : Host} {start built engine : Engine} {order : List ModuleId}
  {id : ModuleId} {ref : RecordRef} {record : Record}

/-- An engine that has built a graph of these modules. -/
structure Built (config : Config) (host : Host) (start : Engine) (order : List ModuleId)
    (built : Engine) : Prop where
  named : start.store.Named
  housed : built.Housed config host
  studied : built.Studied
  enriched : start.Enriched built
  leads : ∀ id ∈ order, built.store.LeadsTo order id

/-- A module that is not settled has been loaded and analyzed when a graph has been built of it. -/
theorem Built.expanded (hbuilt : start.Built config host order built) (hid : id ∈ order)
    (henriched : start.Enriched engine) (hregistered : engine.store.Registered id ref record)
    (hunsettled : record.status.isSettled = false) :
    ∃ ref' record', built.store.Registered id ref' record' ∧ record'.analysis?.isSome ∧
      record'.dependencies ⊆ order := by
  obtain ⟨ref', record', hregistered', hcases⟩ := hbuilt.leads id hid
  refine ⟨ref', record', hregistered', hcases.resolve_left (fun hsettled => ?_)⟩
  rw [hbuilt.enriched.status_eq hbuilt.named henriched hregistered' hregistered, hsettled]
    at hunsettled
  cases hunsettled

/-- The host has given the source that a record has, and would give it again. -/
theorem Housed.loaded (hhoused : engine.Housed config host) (hsame : host.fetch = host.load)
    (hregistered : engine.store.Registered id ref record) {source : ModuleSource}
    (hsource : record.source? = some source) : host.load id = .ok source := by
  obtain ⟨found, hfound, rfl, -⟩ := hhoused.registered id ref hregistered.lookup
  obtain rfl := Option.some.inj (hregistered.record.symm.trans hfound)
  have hgives := hhoused.sources ref record source hregistered.record hsource
  unfold Host.Gives at hgives
  rw [hsame, or_self] at hgives
  exact hgives

/-- A module has the format that the host says, whoever registers it. -/
theorem Housed.format_eq {engine' : Engine} {ref' : RecordRef} {record' : Record}
    (hhoused : engine.Housed config host) (hhoused' : engine'.Housed config host)
    (hregistered : engine.store.Registered id ref record)
    (hregistered' : engine'.store.Registered id ref' record') : record'.format = record.format := by
  obtain ⟨found, hfound, -, hnames⟩ := hhoused.registered id ref hregistered.lookup
  obtain rfl := Option.some.inj (hregistered.record.symm.trans hfound)
  obtain ⟨found', hfound', -, hnames'⟩ := hhoused'.registered id ref' hregistered'.lookup
  obtain rfl := Option.some.inj (hregistered'.record.symm.trans hfound')
  exact hnames'.held.2.trans hnames.held.2.symm

/-- A level of modules of a graph that has been built is fetched without fail, and nothing is learnt
but what was learnt when the graph was built. -/
theorem Built.fetchable (hbuilt : start.Built config host order built)
    (hsame : host.fetch = host.load) {first : Engine} {level : List ModuleId}
    (hlevel : ∀ id ∈ level, id ∈ order) (hfirst : start.Enriched first) :
    Fetchable first level
      (fun engine => Bounded config host start built engine ∧ first.Enriched engine)
      (fun _ => False) (· ∈ order) := by
  refine .of_steps (fun id hid ref record hregistered hunsettled => ?_)
    (fun id hid ref record source hregistered hunsettled hmodern specifier hspecifier => ?_)
  all_goals
    obtain ⟨ref', record', hregistered', hanalyzed, hdependencies⟩ :=
      hbuilt.expanded (hlevel id hid) hfirst hregistered hunsettled
    obtain ⟨analysis, hanalysis⟩ := Option.isSome_iff_exists.mp hanalyzed
    have hsourced := hbuilt.studied.sourced ref' record' hregistered'.record hanalyzed
    obtain ⟨source', hsource'⟩ := Option.isSome_iff_exists.mp hsourced
    have hloaded := hbuilt.housed.loaded hsame hregistered' hsource'
  · -- the host gave the source when the graph was built
    rintro engine ⟨⟨hbounded, hlater⟩, hrecord⟩
    obtain ⟨found, hfound, hname⟩ := hfirst.store.named hbuilt.named id ref hregistered.lookup
    obtain rfl := Option.some.inj (hregistered.record.symm.trans hfound)
    subst hname
    rcases attempt_fetchSource_cases engine ref record with
      ⟨_, -, heq⟩ | ⟨hnew, ⟨_, hfailed, -⟩ | ⟨source, hgiven, heq⟩⟩
    · rw [heq]
      exact ⟨fun _ _ => hbounded, nofun⟩
    · rw [hbounded.housed.place, hsame, hloaded] at hfailed
      cases hfailed
    · rw [hbounded.housed.place] at hgiven
      rw [heq]
      have hthere : engine.store.Registered record.id ref record :=
        ⟨hlater.store.enriches.lookup _ ref hregistered.lookup, hrecord⟩
      exact ⟨fun _ _ => hbounded.keepSource hthere hnew (.inr hgiven)
        ⟨ref', record', hregistered', hsourced⟩ _, nofun⟩
  · -- what the specifier leads to was asked for when the graph was built
    rintro engine ⟨⟨hbounded, hlater⟩, hrecord⟩
    have hthere : engine.store.Registered id ref { record with source? := some source } :=
      ⟨hlater.store.enriches.lookup id ref hregistered.lookup, hrecord⟩
    obtain rfl := Except.ok.inj ((hbounded.housed.loaded hsame hthere rfl).symm.trans hloaded)
    have hmodern' : record'.format = .modern :=
      (hbounded.housed.format_eq hbuilt.housed hthere hregistered').trans hmodern
    obtain ⟨kept, hkept, hheard⟩ := hbuilt.studied.heard hregistered' hmodern' hanalysis
    obtain rfl := Option.some.inj (hkept.symm.trans hsource')
    obtain ⟨resolved, hknown, hasked⟩ := hheard.asked specifier hspecifier
    have hmem : resolved.id ∈ order := hdependencies (by
      unfold Record.dependencies Record.requested
      rw [hmodern', hanalysis]
      exact hasked)
    obtain ⟨target, found, htarget, -⟩ := hbuilt.leads resolved.id hmem
    obtain ⟨given, engine', heq, hnext, -⟩ := hbounded.register hbuilt.housed hknown
      (by rw [htarget.lookup]; rfl)
    rw [heq]
    refine ⟨fun found hfound => ?_, nofun⟩
    obtain rfl := Except.ok.inj hfound
    exact ⟨hnext, hmem⟩

end Engine

namespace Attempt

variable {engine built : Engine} {root : ModuleId} {ref : RecordRef} {graph : Graph}

/-- What is known when a graph has been built. -/
theorem built_of_buildGraph (hstudied : engine.Studied)
    (hhoused : engine.Housed engine.config engine.host)
    (hgraph : engine.attempt (buildGraph root) = (.ok graph, built)) :
    engine.Built engine.config engine.host graph.order built ∧ root ∈ graph.order := by
  have hended := meets_buildGraph root engine rfl trivial
  have hhoused' := ((Engine.upheldAhead_housed engine.config engine.host).toTaught.keeps_buildGraph
    root).after hhoused
  have hstudied' := (Engine.keptStepwise_studied.taught.keeps_buildGraph root).after hstudied
  have henriched := ((Engine.taught_enriched engine).keeps_buildGraph root).after (.refl engine)
  rw [hgraph] at hended hhoused' hstudied' henriched
  obtain ⟨hspans, hroot⟩ := hended.ok graph rfl
  refine ⟨⟨hstudied.named, hhoused', hstudied', henriched, fun id hid => ?_⟩, hroot⟩
  exact (hspans.leads id hid).mono (by simp)

/-- **Where the graph of a module can be built, fetching ahead succeeds**, over a host that fetches what
it loads, and learns nothing but what is learnt when the graph is built. -/
theorem prefetch_of_built (hstudied : engine.Studied)
    (hhoused : engine.Housed engine.config engine.host) (hsame : engine.host.fetch = engine.host.load)
    (hlookup : engine.store.lookup? root = some ref)
    (hgraph : engine.attempt (buildGraph root) = (.ok graph, built))
    (hprefetches : Prefetches root engine (engine.attempt (prefetch root))) :
    ∃ after, engine.attempt (prefetch root) = (.ok (), after) ∧
      Engine.Bounded engine.config engine.host engine built after := by
  obtain ⟨hbuilt, hroot⟩ := built_of_buildGraph hstudied hhoused hgraph
  obtain ⟨⟨result, after⟩, hfetches, hended⟩ := hprefetches
  obtain ⟨hok, hfails⟩ := hfetches.ends
    (fun start level hfact hlevel => hbuilt.fetchable hsame hlevel hfact.enriched)
    (hbuilt.enriched.bounded hhoused hstudied) (between_root hstudied.named hlookup)
    (List.forall_mem_singleton.mpr hroot)
  cases result with
  | error error => exact absurd (hfails error rfl) id
  | ok all => exact ⟨after, hended, (hok all rfl).1⟩

end Attempt

end Linkage
