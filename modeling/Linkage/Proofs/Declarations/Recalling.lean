import Linkage.Proofs.Declarations.Reading
import Linkage.Proofs.Engine.Studying

/-!
# The host tells what is known of a module

While the host stays as it is, the format of a module, its source and its analysis are what the host
and the settings say of it, whatever else the engine has done.  So two engines over one host never
know different things of a module, and it is told beforehand for which modules its declarations ask.

* `Source.Reads.unique` : declarations can be read in one way.
* `Engine.Foretold`, `Engine.upheld_foretold` : all that an engine knows is what its host tells.
* `Record.Foretold.unique` : so two engines over one host know the same.
* `Config.Asks`, `Record.Foretold.mem_dependencies_iff` : for which modules a module asks.
-/

namespace Linkage

open Relation (ReflTransGen TransGen)

/-! ## One way to read declarations -/

theorem ImportItem.Yields.unique {source : ModuleId} {item : ImportItem} {entry entry' : ImportEntry}
    (hyields : item.Yields source entry) (hyields' : item.Yields source entry') : entry' = entry := by
  cases hyields <;> cases hyields' <;> rfl

/-- What stands first of its kind stands there once. -/
theorem eq_of_first {α : Type} {p : α → Prop} {items front front' back back' : List α}
    {item item' : α} (hitems : items = front ++ item :: back)
    (hitems' : items = front' ++ item' :: back') (hitem : p item) (hitem' : p item')
    (hfront : ∀ other ∈ front, ¬ p other) (hfront' : ∀ other ∈ front', ¬ p other) :
    item' = item := by
  classical
  have hfound {front back : List α} {item : α} (hitems : items = front ++ item :: back)
      (hitem : p item) (hfront : ∀ other ∈ front, ¬ p other) :
      items.find? (fun other => decide (p other)) = some item := by
    rw [hitems, List.find?_append, List.find?_eq_none.mpr (by simpa using hfront)]
    simp [hitem]
  exact Option.some.inj ((hfound hitems' hitem' hfront').symm.trans (hfound hitems hitem hfront))

theorem ExportItem.Yields.unique {imports : List ImportEntry} {source? : Option ModuleId}
    {item : ExportItem} {entry entry' : ExportEntry} (hyields : item.Yields imports source? entry)
    (hyields' : item.Yields imports source? entry') : entry' = entry := by
  cases hyields with
  | own name alias? hown =>
      cases hyields' with
      | own => rfl
      | passed _ _ found front back himports hname =>
          exact absurd hname (hown found (himports ▸ List.mem_append_right _ List.mem_cons_self))
  | passed name alias? found front back himports hname hfirst =>
      cases hyields' with
      | own _ _ hown =>
          exact absurd hname (hown found (himports ▸ List.mem_append_right _ List.mem_cons_self))
      | passed _ _ found' front' back' himports' hname' hfirst' =>
          rw [eq_of_first himports himports' hname hname' hfirst hfirst']
  | _ => cases hyields'; rfl

namespace Source

variable {Body : Type} {answer : String → Except ModuleError Resolved} {source : Source Body}
  {analysis analysis' : Analysis}

theorem rightUnique_leads : Relator.RightUnique (Leads answer) := by
  rintro specifier id id' ⟨resolved, hresolved, rfl⟩ ⟨resolved', hresolved', rfl⟩
  rw [Except.ok.inj (hresolved.symm.trans hresolved')]

/-- **Declarations can be read in one way.** -/
theorem Reads.unique (hreads : source.Reads answer analysis)
    (hreads' : source.Reads answer analysis') : analysis' = analysis := by
  have hrequested : analysis'.requested = analysis.requested := by
    obtain ⟨targets, htargets, hasked⟩ := hreads.requested
    obtain ⟨targets', htargets', hasked'⟩ := hreads'.requested
    rw [hasked, hasked', rightUnique_leads.forall₂ htargets htargets']
  have himports : analysis'.imports = analysis.imports := by
    refine Relator.RightUnique.forall₂ ?_ hreads'.imports hreads.imports
    rintro given entry entry' ⟨hleads, hyields⟩ ⟨hleads', hyields'⟩
    rw [rightUnique_leads hleads hleads'] at hyields
    exact hyields'.unique hyields
  have hexports : analysis'.exports = analysis.exports := by
    refine Relator.RightUnique.forall₂ ?_ hreads'.exports (himports ▸ hreads.exports)
    rintro given entry entry' ⟨source?, hlead, hyields⟩ ⟨source?', hlead', hyields'⟩
    have hsame : source? = source?' := by
      generalize given.1 = specifier? at hlead hlead'
      cases hlead with
      | none => cases hlead'; rfl
      | some hleads =>
          cases hlead' with
          | some hleads' => rw [rightUnique_leads hleads hleads']
    exact hyields'.unique (hsame ▸ hyields)
  obtain ⟨requested, imports, exports, hnodup⟩ := analysis
  obtain ⟨requested', imports', exports', hnodup'⟩ := analysis'
  cases hrequested
  cases himports
  cases hexports
  rfl

end Source

/-! ## What the host tells -/

/-- What the declarations of a module say, with the answers that its specifiers get from the host. -/
structure Config.Describes (config : Config) (host : Host) (id : ModuleId) (source : ModuleSource)
    (analysis : Analysis) : Prop where
  legacy : config.formatOf host id = .legacy → analysis = .ofLegacy source
  modern : config.formatOf host id = .modern →
    source.Reads (fun specifier => config.resolve host specifier (some id)) analysis

/-- A module asks for another one: its declarations name it. -/
def Config.Asks (config : Config) (host : Host) (id other : ModuleId) : Prop :=
  config.formatOf host id = .modern ∧ ∃ source, host.load id = .ok source ∧
    ∃ specifier ∈ source.specifiers,
      Source.Leads (fun specifier => config.resolve host specifier (some id)) specifier other

/-- No module that a module leads to leads to itself. -/
def Config.Acyclic (config : Config) (host : Host) (id : ModuleId) : Prop :=
  ∀ other, ReflTransGen (config.Asks host) id other → ¬ TransGen (config.Asks host) other other

theorem Config.Acyclic.of_reached {config : Config} {host : Host} {id other : ModuleId}
    (hacyclic : config.Acyclic host id) (hreached : ReflTransGen (config.Asks host) id other) :
    config.Acyclic host other :=
  fun last hlast => hacyclic last (hreached.trans hlast)

/-- What is known of a module is what the host tells. -/
structure Record.Foretold (config : Config) (host : Host) (record : Record) : Prop where
  format : record.format = config.formatOf host record.id
  source : ∀ source, record.source? = some source → host.load record.id = .ok source
  analysis : ∀ source analysis, record.source? = some source → record.analysis? = some analysis →
    config.Describes host record.id source analysis

namespace Record.Foretold

variable {config : Config} {host : Host} {record record' : Record}

theorem knownAs (hforetold : record.Foretold config host) (hknown : record.KnownAs record') :
    record'.Foretold config host where
  format := by rw [hknown.format, hknown.id, hforetold.format]
  source source hsource := by
    rw [hknown.id]
    exact hforetold.source source (hknown.source.symm.trans hsource)
  analysis source analysis hsource hanalysis := by
    rw [hknown.id]
    exact hforetold.analysis source analysis (hknown.source.symm.trans hsource)
      (hknown.analysis.symm.trans hanalysis)

/-- **Two engines over one host know the same of a module**, once they know it. -/
theorem unique (hforetold : record.Foretold config host) (hforetold' : record'.Foretold config host)
    (hid : record'.id = record.id) (hsource : record.source?.isSome)
    (hsource' : record'.source?.isSome) (hanalysis : record.analysis?.isSome)
    (hanalysis' : record'.analysis?.isSome) :
    record'.format = record.format ∧ record'.source? = record.source? ∧
      record'.analysis? = record.analysis? := by
  obtain ⟨source, hsource⟩ := Option.isSome_iff_exists.mp hsource
  obtain ⟨source', hsource'⟩ := Option.isSome_iff_exists.mp hsource'
  obtain ⟨analysis, hanalysis⟩ := Option.isSome_iff_exists.mp hanalysis
  obtain ⟨analysis', hanalysis'⟩ := Option.isSome_iff_exists.mp hanalysis'
  have hloads := hforetold'.source source' hsource'
  rw [hid, hforetold.source source hsource] at hloads
  obtain rfl := Except.ok.inj hloads
  have hdescribes := hforetold.analysis _ _ hsource hanalysis
  have hdescribes' := hforetold'.analysis _ _ hsource' hanalysis'
  rw [hid] at hdescribes'
  refine ⟨by rw [hforetold.format, hforetold'.format, hid], by rw [hsource, hsource'], ?_⟩
  rw [hanalysis, hanalysis']
  cases hformat : config.formatOf host record.id with
  | legacy => rw [hdescribes.legacy hformat, hdescribes'.legacy hformat]
  | modern => rw [(hdescribes.modern hformat).unique (hdescribes'.modern hformat)]

/-- What a module that has been analyzed depends on is what it asks for. -/
theorem mem_dependencies_iff (hforetold : record.Foretold config host)
    (hsource : record.source?.isSome) (hanalysis : record.analysis?.isSome) {other : ModuleId} :
    other ∈ record.dependencies ↔ config.Asks host record.id other := by
  obtain ⟨source, hsource⟩ := Option.isSome_iff_exists.mp hsource
  obtain ⟨analysis, hanalysis⟩ := Option.isSome_iff_exists.mp hanalysis
  have hdescribes := hforetold.analysis _ _ hsource hanalysis
  have hload := hforetold.source source hsource
  unfold Record.dependencies Config.Asks
  rw [← hforetold.format]
  cases hformat : record.format with
  | legacy => simp
  | modern =>
      obtain ⟨targets, htargets, hrequested⟩ :=
        (hdescribes.modern (hforetold.format.symm.trans hformat)).requested
      simp only [Record.requested, hanalysis, Option.map_some, Option.getD_some, hrequested,
        List.mem_eraseDups, true_and]
      constructor
      · intro hother
        obtain ⟨specifier, hspecifier, hleads⟩ :=
          Source.exists_of_forall₂ (List.Forall₂.flip htargets) hother
        exact ⟨source, hload, specifier, hspecifier, hleads⟩
      · rintro ⟨source', hload', specifier, hspecifier, hleads⟩
        rw [hload] at hload'
        obtain rfl := Except.ok.inj hload'
        obtain ⟨target, htarget, hleads'⟩ := Source.exists_of_forall₂ htargets hspecifier
        rwa [Source.rightUnique_leads hleads hleads']

end Record.Foretold

/-- What is known of the registered modules is what the host tells. -/
def Store.Foretold (config : Config) (host : Host) (store : Store) : Prop :=
  ∀ id ref record, store.Registered id ref record → record.Foretold config host

theorem Store.Foretold.knowsSame {config : Config} {host : Host} {store store' : Store}
    (hforetold : store.Foretold config host) (hsame : store.KnowsSame store') :
    store'.Foretold config host := by
  intro id ref record' hregistered'
  obtain ⟨record, hrecord, hknown⟩ := hsame.back hregistered'.record
  refine Record.Foretold.knownAs (hforetold id ref record ⟨?_, hrecord⟩) hknown
  rw [← hsame.lookup]
  exact hregistered'.lookup

/-! ## Engines -/

namespace Engine

open Attempt

/-- All sources that are kept are those that the host gives at once. -/
structure Loaded (host : Host) (engine : Engine) : Prop where
  place : engine.host = host
  source : ∀ ref record source, engine.store.record? ref = some record →
    record.source? = some source → host.load record.id = .ok source

variable {config : Config} {host : Host} {engine engine' : Engine}

namespace Loaded

theorem knowsSame (hloaded : engine.Loaded host) (hsame : engine.KnowsSame engine') :
    engine'.Loaded host where
  place := hsame.host.trans hloaded.place
  source ref record' source hrecord' hsource := by
    obtain ⟨record, hrecord, hknown⟩ := hsame.store.back hrecord'
    rw [hknown.id]
    exact hloaded.source ref record source hrecord (hknown.source ▸ hsource)

theorem getOrCreate (hloaded : engine.Loaded host) (id : ModuleId) (format : Format)
    (resolver : Resolver) : Loaded host { engine with
      resolver
      store := (engine.store.getOrCreate id format).2 } where
  place := hloaded.place
  source ref record' source hrecord' hsource := by
    rcases (Store.Learn.register id format).back hrecord' with ⟨record, hrecord, hinformed⟩ | hfresh
    · have hsame : record = record' := by
        obtain ⟨other, hother, -⟩ :=
          (Store.Touch.register id format : engine.store.Touch _).record hrecord
        have hkept := Store.record?_getOrCreate id format hrecord
        exact Option.some.inj (hkept.symm.trans hrecord')
      exact hsame ▸ hloaded.source ref record source hrecord (hsame ▸ hsource)
    · obtain ⟨-, id, value?, rfl⟩ := hfresh
      cases hsource

/-- More may be known of a record than its source. -/
theorem modify (hloaded : engine.Loaded host) (ref : RecordRef) {f : Record → Record}
    (hsame : ∀ record : Record, (f record).id = record.id ∧ (f record).source? = record.source?) :
    Loaded host { engine with store := engine.store.modify ref f } where
  place := hloaded.place
  source other record' source hrecord' hsource := by
    rw [Store.record?_modify] at hrecord'
    split at hrecord'
    · obtain ⟨record, hrecord, rfl⟩ := Option.map_eq_some_iff.mp hrecord'
      rw [(hsame record).1]
      exact hloaded.source other record source hrecord ((hsame record).2 ▸ hsource)
    · exact hloaded.source other record' source hrecord' hsource

theorem keepSource (hloaded : engine.Loaded host) {ref : RecordRef} {record : Record}
    (hrecord : engine.store.record? ref = some record) {source : ModuleSource}
    (hload : host.load record.id = .ok source) (loads : Nat) : Loaded host { engine with
      loads
      store := engine.store.modify ref (fun record => { record with source? := some source }) } where
  place := hloaded.place
  source other record' source' hrecord' hsource' := by
    rw [Store.record?_modify] at hrecord'
    split at hrecord'
    · rename_i hsame
      subst hsame
      rw [hrecord] at hrecord'
      obtain rfl := Option.some.inj hrecord'
      obtain rfl := Option.some.inj hsource'
      exact hload
    · exact hloaded.source other record' source' hrecord' hsource'

end Loaded

theorem triple_loaded_sourceOf (host : Host) (ref : RecordRef) (record : Record) :
    Triple (fun engine => engine.Loaded host ∧ engine.store.record? ref = some record)
      (sourceOf ref record) (fun _ => Loaded host) (Loaded host) := by
  unfold sourceOf
  split
  · exact .pure (fun _ hpre => hpre.1)
  · refine .get_bind (fun engine hpre => ?_)
    rw [hpre.1.place]
    rintro _ rfl
    obtain ⟨hloaded, hrecord⟩ := hpre
    unfold Attempt.keepSource
    rw [attempt_bind, attempt_ofExcept]
    cases hload : host.load record.id with
    | error error => exact ⟨fun _ hvalue => (by cases hvalue), fun _ _ => hloaded⟩
    | ok source => exact ⟨fun _ _ => hloaded.keepSource hrecord hload _, fun _ herror => (by cases herror)⟩

theorem keeps_loaded_register (host : Host) (specifier : String) (referrer? : Option ModuleId) :
    Keeps (Loaded host) (resolveAndRegister specifier referrer?) := by
  intro engine hloaded
  rcases attempt_resolveAndRegister_cases engine specifier referrer? with
    ⟨error, -, -, hended⟩ | ⟨resolved, -, hended⟩
  · rw [hended]
    exact ⟨fun _ hvalue => (by cases hvalue), fun _ _ => hloaded⟩
  · rw [hended]
    exact ⟨fun _ _ => hloaded.getOrCreate _ _ _, fun _ herror => (by cases herror)⟩

/-- While the host stays the same, the sources that it gives at once are all that is kept. -/
theorem upheld_loaded (host : Host) : Upheld (Loaded host) where
  register := keeps_loaded_register host
  analyze ref record := by
    unfold analyze
    split
    · exact .pure (fun _ hpre => hpre.1)
    · have hnoted (analysis : Analysis) : Keeps (Loaded host) (do
          onStore (fun store => ((), store.modify ref (fun record =>
            { record with analysis? := some analysis })))
          return analysis.requested) := by
        refine Keeps.seq (.onStore (fun engine hloaded => ?_))
          (fun _ => .pure (fun _ hloaded => hloaded))
        exact hloaded.modify ref (fun _ => ⟨rfl, rfl⟩)
      refine (triple_loaded_sourceOf host ref record).bind (fun source => ?_)
      split
      · exact Triple.bind (Triple.pure (fun _ hloaded => hloaded)) hnoted
      · have hread : Keeps (Loaded host) (analyzeModern record.id source) :=
          (triple_analyzeModern source (fun specifier _ =>
            keeps_loaded_register host specifier _)).imp (fun _ hpre => hpre)
            (fun _ _ hpost => hpost.1) (fun _ hfails => hfails)
        exact hread.bind hnoted
  same hsame hloaded := hloaded.knowsSame hsame
  resolve specifier referrer? := by
    intro engine hloaded
    rw [attempt_resolve]
    exact ⟨fun _ _ => ⟨hloaded.place, hloaded.source⟩, fun _ _ => ⟨hloaded.place, hloaded.source⟩⟩
  load := triple_loaded_sourceOf host

/-- All that an engine knows of its modules is what its host tells. -/
def Foretold (config : Config) (host : Host) (engine : Engine) : Prop :=
  engine.Housed config host ∧ engine.Loaded host ∧ engine.Studied

theorem foretold_new (config : Config) (host : Host) : (new host config).Foretold config host :=
  ⟨housed_new config host, ⟨rfl, fun _ _ _ hrecord => by cases hrecord⟩, studied_new host config⟩

/-- A resolver answers as the host does. -/
theorem Housed.resolve_eq (hhoused : engine.Housed config host) (specifier : String)
    (referrer? : Option ModuleId) :
    (engine.resolver.resolve config host specifier referrer?).1 =
      config.resolve host specifier referrer? := by
  cases hknown : engine.resolver.remembered? specifier referrer? with
  | none =>
      rw [Resolver.resolve_of_unknown hknown]
      cases config.resolve host specifier referrer? <;> rfl
  | some resolved =>
      rw [Resolver.resolve_of_remembered hknown]
      refine ((hhoused.resolve specifier referrer?).1 resolved ?_).symm
      rw [Resolver.resolve_of_remembered hknown]

namespace Foretold

theorem tells (hforetold : engine.Foretold config host) (id : ModuleId) :
    Attempt.Tells id (fun specifier => config.resolve host specifier (some id)) engine := by
  obtain ⟨hhoused, -⟩ := hforetold
  intro specifier
  rw [hhoused.settings, hhoused.place]
  exact hhoused.resolve_eq specifier (some id)

/-- **All that is known of the modules is what the host tells.** -/
theorem store (hforetold : engine.Foretold config host) : engine.store.Foretold config host := by
  have htells := hforetold.tells
  obtain ⟨hhoused, hloaded, hstudied⟩ := hforetold
  intro id ref record hregistered
  obtain ⟨found, hfound, hid, hnames⟩ := hhoused.registered id ref hregistered.lookup
  obtain rfl := Option.some.inj (hfound.symm.trans hregistered.record)
  subst hid
  have hformat : found.format = config.formatOf host found.id := hnames.held.2
  refine ⟨hformat, fun source => hloaded.source ref found source hfound,
    fun source analysis hsource hanalysis => ?_⟩
  have hreads := hstudied.read _ _ _ _ _ hregistered hsource hanalysis
  unfold Record.ReadsAs at hreads
  refine ⟨fun hlegacy => ?_, fun hmodern => ?_⟩
  · rw [hformat.trans hlegacy] at hreads
    exact hreads
  · rw [hformat.trans hmodern] at hreads
    exact (triple_analyzeModern_reads found.id _ source engine (htells found.id)).1 analysis
      (by rw [hreads engine (.refl engine)])

end Foretold

end Engine

/-- What is known of an attempt twice over. -/
theorem Attempt.Triple.both {α : Type} {action : Attempt α} {pre pre' fails fails' : Engine → Prop}
    {post post' : α → Engine → Prop} (htriple : Triple pre action post fails)
    (htriple' : Triple pre' action post' fails') :
    Triple (fun engine => pre engine ∧ pre' engine) action
      (fun value engine => post value engine ∧ post' value engine)
      (fun engine => fails engine ∧ fails' engine) :=
  fun engine hpre =>
    ⟨fun value hvalue => ⟨(htriple engine hpre.1).1 value hvalue,
        (htriple' engine hpre.2).1 value hvalue⟩,
      fun error herror => ⟨(htriple engine hpre.1).2 error herror,
        (htriple' engine hpre.2).2 error herror⟩⟩

namespace Engine

theorem Upheld.and {fact fact' : Engine → Prop} (hupheld : Upheld fact) (hupheld' : Upheld fact') :
    Upheld (fun engine => fact engine ∧ fact' engine) where
  register specifier referrer? :=
    (hupheld.register specifier referrer?).both (hupheld'.register specifier referrer?)
  analyze ref record := ((hupheld.analyze ref record).both (hupheld'.analyze ref record)).weaken
    (fun _ hpre => ⟨⟨hpre.1.1, hpre.2⟩, hpre.1.2, hpre.2⟩)
  same hsame hfacts := ⟨hupheld.same hsame hfacts.1, hupheld'.same hsame hfacts.2⟩
  resolve specifier referrer? :=
    (hupheld.resolve specifier referrer?).both (hupheld'.resolve specifier referrer?)
  load ref record := ((hupheld.load ref record).both (hupheld'.load ref record)).weaken
    (fun _ hpre => ⟨⟨hpre.1.1, hpre.2⟩, hpre.1.2, hpre.2⟩)

/-- **While the host stays as it is, all that an engine knows is what the host tells.** -/
theorem upheld_foretold (config : Config) (host : Host) : Upheld (Foretold config host) :=
  (upheldAhead_housed config host).toUpheld.and
    ((upheld_loaded host).and upheldAlways_studied.toUpheld)

end Engine

end Linkage
