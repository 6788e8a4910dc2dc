import Linkage.Proofs.Declarations.Recalling
import Linkage.Proofs.Engine.Provisioning
import Linkage.Proofs.Engine.Traversing

/-!
# A graph that another engine has built

When one engine has built the graph of a module over a host, another one that began in the same state
builds it as well, whatever it has learnt in the meantime of the modules of that graph.  It cannot fail,
since the host has already given all that is asked for, it lists the same modules in the same order, and
it learns nothing else.

* `Engine.Built.analyze` : a module of the graph is analyzed.
* `Attempt.Visits.retraced` : a walk over modules of the graph ends with a graph.
* `Store.Traverses.order_eq` : what a walk lists depends only on what modules lead to.
* `Attempt.buildGraph_retraced` : the whole graph.
* `Engine.Finishes` : neither building a graph nor fetching its sources is cut short.
* `Attempt.buildGraph_fetched` : the graph is built as well when its sources have been fetched before.
-/

namespace Linkage

open Attempt

/-! ## Analyzing what has been analyzed -/

namespace Engine

variable {config : Config} {host : Host} {start built engine : Engine} {order : List ModuleId}
  {id : ModuleId} {ref ref' : RecordRef} {record record' : Record}

/-- Over a host that fetches what it loads, all that is known is what the host tells. -/
theorem Housed.foretold (hhoused : engine.Housed config host) (hsame : host.fetch = host.load)
    (hstudied : engine.Studied) : engine.Foretold config host := by
  refine ⟨hhoused, ⟨hhoused.place, fun ref record source hrecord hsource => ?_⟩, hstudied⟩
  have hgives := hhoused.sources ref record source hrecord hsource
  unfold Host.Gives at hgives
  rwa [hsame, or_self] at hgives

/-- Over one host what a module depends on, once it is analyzed, is the same for all. -/
theorem Foretold.dependencies_eq (hforetold : engine.Foretold config host)
    (hforetold' : built.Foretold config host) (hregistered : engine.store.Registered id ref record)
    (hregistered' : built.store.Registered id ref' record') (hanalyzed : record.analysis?.isSome)
    (hanalyzed' : record'.analysis?.isSome) : record.dependencies = record'.dependencies := by
  obtain ⟨_, hfound, hid⟩ := hforetold.2.2.named id ref hregistered.lookup
  obtain rfl := Option.some.inj (hregistered.record.symm.trans hfound)
  obtain ⟨_, hfound', hid'⟩ := hforetold'.2.2.named id ref' hregistered'.lookup
  obtain rfl := Option.some.inj (hregistered'.record.symm.trans hfound')
  obtain ⟨hformat, -, hanalysis⟩ := (hforetold.store id ref record hregistered).unique
    (hforetold'.store id ref' record' hregistered') (hid'.trans hid.symm)
    (hforetold.2.2.sourced ref record hfound hanalyzed)
    (hforetold'.2.2.sourced ref' record' hfound' hanalyzed') hanalyzed hanalyzed'
  unfold Record.dependencies Record.requested
  rw [hformat, hanalysis]

namespace Bounded

variable (hbounded : Bounded config host start built engine)
  (hregistered : engine.store.Registered id ref record)
  (hregistered' : built.store.Registered id ref' record')
include hbounded hregistered hregistered'

/-- The source of a module is loaded that is kept at the limit. -/
theorem sourceOf (hsame : host.fetch = host.load) (hlimit : built.Housed config host)
    {source : ModuleSource} (hsource : record'.source? = some source) :
    ∃ engine', engine.attempt (Attempt.sourceOf ref record) = (.ok source, engine') ∧
      Bounded config host start built engine' ∧
      engine'.store.Registered id ref { record with source? := some source } := by
  obtain ⟨_, hfound, rfl⟩ := hbounded.studied.named id ref hregistered.lookup
  obtain rfl := Option.some.inj (hregistered.record.symm.trans hfound)
  have hload := hlimit.loaded hsame hregistered' hsource
  unfold Attempt.sourceOf
  cases hknown : record.source? with
  | some known =>
      obtain rfl := Except.ok.inj
        ((hbounded.housed.loaded hsame hregistered hknown).symm.trans hload)
      exact ⟨engine, rfl, hbounded, hknown ▸ hregistered⟩
  | none =>
      dsimp only
      rw [attempt_bind, attempt_get]
      dsimp only
      unfold Attempt.keepSource
      rw [attempt_bind, attempt_ofExcept, hbounded.housed.place, hload]
      refine ⟨_, rfl, hbounded.keepSource hregistered hknown (.inl hload) ⟨ref', record',
        hregistered', Option.isSome_iff_exists.mpr ⟨_, hsource⟩⟩ _, hregistered.lookup, ?_⟩
      exact Store.record?_modify_self _ hregistered.record

/-- The declarations of a module are read that is analyzed at the limit. -/
theorem analyzeModern (hsame : host.fetch = host.load) (hlimit : built.Foretold config host)
    {source : ModuleSource} {analysis : Analysis} (hsource : record'.source? = some source)
    (hanalysis : record'.analysis? = some analysis) (hmodern : record'.format = .modern) :
    ∃ engine', engine.attempt (Attempt.analyzeModern record.id source) = (.ok analysis, engine') ∧
      Bounded config host start built engine' ∧ engine'.store.Registered id ref record := by
  obtain ⟨_, hfound, rfl⟩ := hbounded.studied.named id ref hregistered.lookup
  obtain rfl := Option.some.inj (hregistered.record.symm.trans hfound)
  obtain ⟨_, hfound', hid'⟩ := hlimit.2.2.named _ ref' hregistered'.lookup
  obtain rfl := Option.some.inj (hregistered'.record.symm.trans hfound')
  have hforetold' := hlimit.store _ ref' record' hregistered'
  have hreads := (hforetold'.analysis source analysis hsource hanalysis).modern
    (hforetold'.format.symm.trans hmodern)
  rw [hid'] at hreads
  -- every specifier has been answered at the limit
  obtain ⟨kept, hkept, hheard⟩ := hlimit.2.2.heard hregistered' hmodern hanalysis
  obtain rfl : source = kept := Option.some.inj (hsource.symm.trans hkept)
  have hkeeps : ∀ specifier ∈ source.specifiers,
      Keeps (Bounded config host start built) (resolveAndRegister specifier (some record.id)) := by
    refine fun specifier hspecifier => .of_after (fun engine hbounded => ?_)
    obtain ⟨resolved, hknown, hasked⟩ := hheard.asked specifier hspecifier
    obtain ⟨_, htarget⟩ := Option.isSome_iff_exists.mp
      (hlimit.2.2.requestsFound _ ref' record' hregistered' resolved.id (by
        unfold Record.requested
        rw [hanalysis]
        exact hasked))
    obtain ⟨_, hthere⟩ := Store.exists_registered_of_find htarget
    obtain ⟨_, engine', heq, hnext, -⟩ := hbounded.register hlimit.1 hknown
      (by rw [hthere.lookup]; rfl)
    rwa [heq]
  have hread := (triple_analyzeModern source hkeeps) engine hbounded
  have htold := (triple_analyzeModern_reads record.id _ source) engine
    ((hbounded.housed.foretold hsame hbounded.studied).tells record.id)
  have hrecord := (keeps_record_analyzeModern record.id source).after hregistered.record
  have hrecalls := (repeats_analyzeModern record.id source engine).1
  generalize engine.attempt (Attempt.analyzeModern record.id source) = ended
    at hread htold hrecord hrecalls
  obtain ⟨error | found, engine'⟩ := ended
  · exact absurd (htold.2 error rfl) hreads.not_faulty
  · obtain rfl := hreads.unique (htold.1 found rfl)
    exact ⟨engine', rfl, (hread.1 found rfl).1, hrecalls.lookup _ _ hregistered.lookup, hrecord⟩

/-- **A module is analyzed that is analyzed at the limit.** -/
theorem analyze (hsame : host.fetch = host.load) (hlimit : built.Foretold config host)
    (hanalyzed : record'.analysis?.isSome) :
    ∃ engine', engine.attempt (Attempt.analyze ref record) = (.ok record'.dependencies, engine') ∧
      Bounded config host start built engine' := by
  by_cases hknown : record.analysis?.isSome
  · rw [engine.attempt_analyze_of_analyzed ref hknown,
      (hbounded.housed.foretold hsame hbounded.studied).dependencies_eq hlimit hregistered
        hregistered' hknown hanalyzed]
    exact ⟨engine, rfl, hbounded⟩
  have hunread : record.analysis? = none := by simpa using hknown
  obtain ⟨analysis, hanalysis⟩ := Option.isSome_iff_exists.mp hanalyzed
  obtain ⟨source, hsource⟩ := Option.isSome_iff_exists.mp
    (hlimit.2.2.sourced ref' record' hregistered'.record hanalyzed)
  have hformat := hbounded.housed.format_eq hlimit.1 hregistered hregistered'
  obtain ⟨engine', hloaded, hbounded', hthere⟩ :=
    hbounded.sourceOf hregistered hregistered' hsame hlimit.1 hsource
  have hhas : built.store.Has id (·.analysis?.isSome) := ⟨ref', record', hregistered', hanalyzed⟩
  rw [attempt_analyze_of_unread hunread, hloaded]
  dsimp only
  unfold Record.dependencies Record.requested
  rw [hformat, hanalysis]
  cases hmodern : record.format with
  | legacy =>
      have hforetold := hlimit.store _ ref' record' hregistered'
      have hreads := (hforetold.analysis source analysis hsource hanalysis).legacy
        (hforetold.format.symm.trans (hformat.trans hmodern))
      subst hreads
      refine ⟨_, rfl, hbounded'.keepAnalysis hthere rfl hunread (HasRead.readsAs ?_) hhas⟩
      unfold HasRead
      rw [show Record.format { record with source? := some source } = .legacy from hmodern]
  | modern =>
      obtain ⟨engine'', hread, hbounded'', hthere'⟩ := hbounded'.analyzeModern hthere hregistered'
        hsame hlimit hsource hanalysis (hformat.trans hmodern)
      dsimp only at hread ⊢
      rw [hread]
      refine ⟨_, rfl, hbounded''.keepAnalysis hthere' rfl hunread (HasRead.readsAs ?_) hhas⟩
      unfold HasRead
      rw [show Record.format { record with source? := some source } = .modern from hmodern]
      exact ⟨engine', hread⟩

end Bounded

/-- **A module of the graph is analyzed**, and all it depends on is in the graph and registered. -/
theorem Built.analyze (hbuilt : start.Built config host order built) (hsame : host.fetch = host.load)
    (hbounded : Bounded config host start built engine)
    (hregistered : engine.store.Registered id ref record) (hid : id ∈ order)
    (hunsettled : record.status.isSettled = false) :
    ∃ dependencies engine', engine.attempt (Attempt.analyze ref record) =
        (.ok dependencies, engine') ∧ Bounded config host start built engine' ∧
      ∀ dependency ∈ dependencies, dependency ∈ order ∧
        (engine'.store.find? dependency).isSome := by
  obtain ⟨ref', record', hregistered', hanalyzed, hdependencies⟩ :=
    hbuilt.expanded hid hbounded.enriched hregistered hunsettled
  obtain ⟨engine', hended, hbounded'⟩ := hbounded.analyze hregistered hregistered' hsame
    (hbuilt.housed.foretold hsame hbuilt.studied) hanalyzed
  refine ⟨_, engine', hended, hbounded', fun dependency hdependency =>
    ⟨hdependencies hdependency, ?_⟩⟩
  have hmet := meets_analyze_registered engine.host id ref record engine rfl hregistered
  rw [hended] at hmet
  obtain ⟨ref'', record'', hthere, -, hsame⟩ := hmet.ok _ rfl
  rw [hsame] at hdependency
  refine hbounded'.studied.requestsFound id ref'' record'' hthere dependency ?_
  unfold Record.dependencies at hdependency
  split at hdependency
  · exact hdependency
  · cases hdependency

end Engine

/-! ## Walking along a graph -/

namespace Attempt

open Engine

variable {config : Config} {host : Host} {start built engine : Engine} {order : List ModuleId}
  {id : ModuleId}

/-- **A walk over modules of the graph cannot fail**, and learns no more than the graph did. -/
theorem Visits.retraced {above dependencies : List ModuleId} {graph : Graph}
    {ended : Except ModuleError Graph × Engine}
    (hvisits : Visits above id dependencies graph engine ended)
    (hbuilt : start.Built config host order built) (hsame : host.fetch = host.load)
    (hbounded : Bounded config host start built engine)
    (hwithin : ∀ dependency ∈ dependencies, dependency ∈ order ∧
      (engine.store.find? dependency).isSome) :
    (∃ graph', ended.1 = .ok graph') ∧ Bounded config host start built ended.2 := by
  induction hvisits with
  | done => exact ⟨⟨_, rfl⟩, hbounded⟩
  | cycle _ _ ih | listed _ _ _ ih | leaf _ _ _ _ _ ih =>
      exact ih hbounded (List.forall_mem_cons.mp hwithin).2
  | missing _ _ hmissing =>
      obtain ⟨_, hfound⟩ := Option.isSome_iff_exists.mp (hwithin _ List.mem_cons_self).2
      obtain ⟨ref, hregistered⟩ := Store.exists_registered_of_find hfound
      rw [attempt_registered hregistered] at hmissing
      cases hmissing
  | fault _ _ hregistered hunsettled hanalyze =>
      obtain ⟨_, _, hended, -⟩ := hbuilt.analyze hsame hbounded hregistered
        (hwithin _ List.mem_cons_self).1 hunsettled
      rw [hanalyze] at hended
      cases hended
  | down _ _ hregistered hunsettled hanalyze hbelow _ ihbelow ihrest =>
      obtain ⟨_, _, hended, hbounded', hfurther⟩ := hbuilt.analyze hsame hbounded hregistered
        (hwithin _ List.mem_cons_self).1 hunsettled
      rw [hanalyze] at hended
      obtain ⟨hfurther', rfl⟩ := Prod.mk.inj hended
      obtain rfl := Except.ok.inj hfurther'
      refine ihrest (ihbelow hbounded' hfurther).2 (fun other hother => ?_)
      -- what was registered is registered still
      obtain ⟨hmem, hfound⟩ := (List.forall_mem_cons.mp hwithin).2 other hother
      obtain ⟨_, hfound⟩ := Option.isSome_iff_exists.mp hfound
      obtain ⟨ref', hthere⟩ := Store.exists_registered_of_find hfound
      have hrecalls := recalls_analyze hregistered.record
      rw [hanalyze] at hrecalls
      obtain ⟨_, hlater, -⟩ := (hrecalls.trans hbelow.recalls).registered hthere
      exact ⟨hmem, by rw [hlater.find]; rfl⟩
  | stop _ _ hregistered hunsettled hanalyze _ ihbelow =>
      obtain ⟨_, _, hended, hbounded', hfurther⟩ := hbuilt.analyze hsame hbounded hregistered
        (hwithin _ List.mem_cons_self).1 hunsettled
      rw [hanalyze] at hended
      obtain ⟨hfurther', rfl⟩ := Prod.mk.inj hended
      obtain rfl := Except.ok.inj hfurther'
      obtain ⟨⟨_, hok⟩, -⟩ := ihbelow hbounded' hfurther
      cases hok

end Attempt

namespace Store

variable {store store' : Store} {root : ModuleId}

/-- Two stores that agree on which modules a graph expands, and on what these depend. -/
structure ExpandAlike (store store' : Store) (root : ModuleId) : Prop where
  expanded : ∀ id dependencies dependencies', store.Expanded root id dependencies →
    store'.Expanded root id dependencies' → dependencies' = dependencies
  leaf : ∀ id dependencies, store.Leaf root id → ¬ store'.Expanded root id dependencies
  leaf' : ∀ id dependencies, store'.Leaf root id → ¬ store.Expanded root id dependencies

/-- **What a walk lists depends only on what the modules lead to.** -/
theorem Traverses.order_eq (hagree : store.ExpandAlike store' root) {outer dependencies : List ModuleId}
    {id : ModuleId} {graph graph' start ended : Graph}
    (htraverses : store.Traverses root outer id dependencies graph graph')
    (htraverses' : store'.Traverses root outer id dependencies start ended)
    (hstart : start.order = graph.order) : ended.order = graph'.order := by
  induction htraverses generalizing start ended with
  | done =>
      cases htraverses'
      exact hstart
  | cycle hcycle _ ih =>
      cases htraverses' with
      | cycle _ hrest | listed _ hrest => exact ih hrest hstart
      | leaf _ hnot | down hnot => exact absurd hcycle hnot
  | listed hlisted _ ih =>
      cases htraverses' with
      | cycle _ hrest | listed _ hrest => exact ih hrest hstart
      | leaf _ _ hnot | down _ hnot => exact absurd (hstart ▸ hlisted) hnot
  | leaf requested hcycle hlisted hleaf _ ih =>
      cases htraverses' with
      | cycle hthere => exact absurd hthere hcycle
      | listed hthere => exact absurd (hstart ▸ hthere) hlisted
      | leaf _ _ _ _ hrest => exact ih hrest (congrArg (· ++ [_]) hstart)
      | down _ _ hexpanded => exact absurd hexpanded (hagree.leaf _ _ hleaf)
  | down hcycle hlisted hexpanded _ _ ihdown ihrest =>
      cases htraverses' with
      | cycle hthere => exact absurd hthere hcycle
      | listed hthere => exact absurd (hstart ▸ hthere) hlisted
      | leaf _ _ _ hleaf => exact absurd hexpanded (hagree.leaf' _ _ hleaf)
      | down _ _ hexpanded' hdown hrest =>
          obtain rfl := hagree.expanded _ _ _ hexpanded hexpanded'
          exact ihrest hrest (congrArg (· ++ [_]) (ihdown hdown hstart))

end Store

namespace Engine

variable {config : Config} {host : Host} {start engine engine' : Engine} {root : ModuleId}

/-- Engines that have learnt over one host since the start expand the same modules. -/
theorem Enriched.expandAlike (hnamed : start.store.Named) (henriched : start.Enriched engine)
    (henriched' : start.Enriched engine') (hforetold : engine.Foretold config host)
    (hforetold' : engine'.Foretold config host) : engine.store.ExpandAlike engine'.store root where
  expanded := by
    rintro id _ _ ⟨ref, record, hregistered, -, hanalyzed, rfl⟩
      ⟨ref', record', hregistered', -, hanalyzed', rfl⟩
    exact hforetold'.dependencies_eq hforetold hregistered' hregistered hanalyzed' hanalyzed
  leaf := by
    rintro id _ ⟨ref, record, hregistered, hroot, hsettled⟩
      ⟨ref', record', hregistered', hopen, -⟩
    rw [henriched.status_eq hnamed henriched' hregistered hregistered', hsettled] at hopen
    exact hopen.elim hroot (by simp)
  leaf' := by
    rintro id _ ⟨ref', record', hregistered', hroot, hsettled⟩
      ⟨ref, record, hregistered, hopen, -⟩
    rw [← henriched.status_eq hnamed henriched' hregistered hregistered', hsettled] at hopen
    exact hopen.elim hroot (by simp)

/-- Neither the building of the graph of a module is cut short nor the fetching of its sources, nor the
building when they have been fetched. -/
structure Finishes (engine : Engine) (root : ModuleId) : Prop where
  builds : Builds root engine (engine.attempt (buildGraph root))
  prefetches : Prefetches root engine (engine.attempt (prefetch root))
  rebuilds : ∀ after, engine.attempt (prefetch root) = (.ok (), after) →
    Builds root after (after.attempt (buildGraph root))

/-- Over a host with finitely many modules nothing is cut short. -/
theorem finishes_of_confines {ids : List ModuleId} (hconfines : config.Confines host ids)
    (hhoused : engine.Housed config host) (hnamed : engine.store.Named) {ref : RecordRef}
    (hlookup : engine.store.lookup? root = some ref) : engine.Finishes root where
  builds := builds_buildGraph hconfines hhoused root
  prefetches := fetches_prefetch (by rwa [hhoused.settings, hhoused.place]) hnamed hlookup
  rebuilds after hfetched := by
    have hhoused' := ((upheldAhead_housed config host).prefetch root).after hhoused
    rw [hfetched] at hhoused'
    exact builds_buildGraph hconfines hhoused' root

end Engine

namespace Attempt

open Engine

variable {config : Config} {host : Host} {start first built engine : Engine} {root : ModuleId}
  {ref : RecordRef} {record : Record} {graph : Graph}

/-- **The graph that one engine has built is built by any other** that has learnt no more over the same
host since the start. -/
theorem buildGraph_retraced (hsame : host.fetch = host.load) (hnamed : start.store.Named)
    (hfirst : start.Enriched first) (hstudied : first.Studied) (hhoused : first.Housed config host)
    (hgraph : first.attempt (buildGraph root) = (.ok graph, built))
    (hbounded : Bounded config host start built engine)
    (hregistered : engine.store.Registered root ref record)
    (hunsettled : record.status.isSettled = false)
    (hbuilds : Builds root engine (engine.attempt (buildGraph root))) :
    ∃ graph' after, engine.attempt (buildGraph root) = (.ok graph', after) ∧
      graph'.order = graph.order ∧ Bounded config host start built after := by
  obtain ⟨hfirst', hroot⟩ :=
    built_of_buildGraph hstudied (by rwa [hhoused.settings, hhoused.place]) hgraph
  rw [hhoused.settings, hhoused.place] at hfirst'
  have hbuilt : start.Built config host graph.order built :=
    ⟨hnamed, hfirst'.housed, hfirst'.studied, hfirst.trans hfirst'.enriched, hfirst'.leads⟩
  obtain ⟨dependencies, engine', hanalyzed, hbounded', hwithin⟩ :=
    hbuilt.analyze hsame hbounded hregistered hroot hunsettled
  have hends : (∃ graph', (engine.attempt (buildGraph root)).1 = .ok graph') ∧
      Bounded config host start built (engine.attempt (buildGraph root)).2 := by
    generalize engine.attempt (buildGraph root) = ended at hbuilds
    cases hbuilds with
    | missing hmissing =>
        rw [attempt_registered hregistered] at hmissing
        cases hmissing
    | fault hthere hfault =>
        obtain ⟨rfl, rfl⟩ := hthere.unique hregistered
        cases hfault.symm.trans hanalyzed
    | walked hthere hfound hvisits =>
        obtain ⟨rfl, rfl⟩ := hthere.unique hregistered
        obtain ⟨hdependencies, rfl⟩ := Prod.mk.inj (hfound.symm.trans hanalyzed)
        obtain rfl := Except.ok.inj hdependencies
        obtain ⟨⟨_, hok⟩, hafter⟩ := hvisits.retraced hbuilt hsame hbounded' hwithin
        exact ⟨⟨_, by rw [hok]; rfl⟩, hafter⟩
  have htraverses := meets_buildGraph_traverses root engine rfl trivial
  have htraverses' := meets_buildGraph_traverses root first rfl trivial
  rw [hgraph] at htraverses'
  generalize engine.attempt (buildGraph root) = ended at hends htraverses
  obtain ⟨result, after⟩ := ended
  obtain ⟨⟨graph', rfl⟩, hafter⟩ := hends
  refine ⟨graph', after, rfl, ?_, hafter⟩
  -- both walks go along what the modules lead to
  have hagree : built.store.ExpandAlike after.store root := hbuilt.enriched.expandAlike hnamed
    hafter.enriched (hbuilt.housed.foretold hsame hbuilt.studied) (hafter.housed.foretold hsame hafter.studied)
  obtain ⟨_, _, hexpanded, hwalk, rfl⟩ := htraverses'.ok _ rfl
  obtain ⟨_, _, hexpanded', hwalk', rfl⟩ := htraverses.ok _ rfl
  obtain rfl := hagree.expanded _ _ _ hexpanded hexpanded'
  exact congrArg (· ++ [root]) (hwalk.order_eq hagree hwalk' rfl)

/-! ## Building before and after fetching ahead -/

section Fetching

variable {after : Engine} (hsame : host.fetch = host.load) (hstudied : engine.Studied)
  (hhoused : engine.Housed config host) (hregistered : engine.store.Registered root ref record)
  (hunsettled : record.status.isSettled = false) (hfinishes : engine.Finishes root)
include hsame hstudied hhoused hregistered hunsettled hfinishes

/-- A graph that is built when its sources have been fetched is built before as well. -/
theorem buildGraph_of_fetched (hfetched : engine.attempt (prefetch root) = (.ok (), after))
    (hgraph : after.attempt (buildGraph root) = (.ok graph, built)) :
    ∃ graph' built', engine.attempt (buildGraph root) = (.ok graph', built') ∧
      graph'.order = graph.order ∧ Bounded config host engine built built' := by
  obtain ⟨henriched, -⟩ :=
    stocked_of_prefetch hstudied hregistered hunsettled (hfetched ▸ hfinishes.prefetches)
  have hstudied' := (keptStepwise_studied.taughtApart.keeps_prefetch root).after hstudied
  have hhoused' := ((upheldAhead_housed config host).prefetch root).after hhoused
  have hbuilt := ((taught_enriched after).keeps_buildGraph root).after (.refl after)
  rw [hfetched] at hstudied' hhoused'
  rw [hgraph] at hbuilt
  exact buildGraph_retraced hsame hstudied.named henriched hstudied' hhoused' hgraph
    ((henriched.trans hbuilt).bounded hhoused hstudied) hregistered hunsettled hfinishes.builds

/-- **The graph of a module is built as well when its sources have been fetched before**, in the same
order, and both ways the same is learnt. -/
theorem buildGraph_fetched (hgraph : engine.attempt (buildGraph root) = (.ok graph, built)) :
    ∃ after graph' built', engine.attempt (prefetch root) = (.ok (), after) ∧
      after.attempt (buildGraph root) = (.ok graph', built') ∧ graph'.order = graph.order ∧
      Bounded config host engine built built' ∧ Bounded config host engine built' built := by
  obtain ⟨rfl, rfl⟩ := And.intro hhoused.settings hhoused.place
  obtain ⟨after, hfetched, hbounded⟩ :=
    prefetch_of_built hstudied hhoused hsame hregistered.lookup hgraph hfinishes.prefetches
  obtain ⟨record', hrecord', hinformed⟩ :=
    hbounded.enriched.store.enriches.record ref record hregistered.record
  have hregistered' : after.store.Registered root ref record' :=
    ⟨hbounded.enriched.store.enriches.lookup root ref hregistered.lookup, hrecord'⟩
  obtain ⟨graph', built', hgraph', horder, hbounded'⟩ := buildGraph_retraced hsame hstudied.named
    (.refl engine) hstudied hhoused hgraph hbounded hregistered' (by rwa [hinformed.status])
    (hfinishes.rebuilds after hfetched)
  -- and the other way round
  obtain ⟨_, _, hagain, -, hbounded''⟩ := buildGraph_of_fetched hsame hstudied hhoused hregistered
    hunsettled hfinishes hfetched hgraph'
  obtain ⟨-, rfl⟩ := Prod.mk.inj (hagain.symm.trans hgraph)
  exact ⟨after, graph', built', hfetched, hgraph', horder, hbounded', hbounded''⟩

end Fetching

end Attempt

end Linkage
