import Linkage.Proofs.Engine.Importing
import Linkage.Proofs.Engine.Triples
import Linkage.Proofs.Linking.Passes
import Linkage.Proofs.Store.Access
import Linkage.Session.Machine

/-!
# Facts about what an engine knows

Linking modules and running bodies change nothing of which modules an engine knows, of their sources
and of their declarations.  A fact about these is upheld by all that an engine does if it is upheld
by the few attempts that learn something: to resolve, to register, to load, and to analyze.

* `Store.KnowsSame` : a store knows the same of its modules as another.
* `Engine.Taught` : what resolving, registering and analyzing keep, building a graph keeps.
* `Engine.TaughtAhead` : what fetching keeps besides, fetching ahead keeps.
* `Engine.Upheld`, `Engine.UpheldThroughout` : what learning keeps, at once and in dynamic imports.
* `Engine.UpheldAhead` : what is kept however many sources the host gives.
* `Engine.Upheld.keeps_prepare`, `Engine.Upheld.keeps_startLegacy`, `Engine.TaughtAhead.keeps_prefetch`
  : so the larger attempts keep it.
-/

namespace Linkage

/-- What is known of two records is the same, the course of the module apart. -/
structure Record.KnownAs (record record' : Record) : Prop where
  id : record'.id = record.id
  format : record'.format = record.format
  source : record'.source? = record.source?
  analysis : record'.analysis? = record.analysis?

theorem Record.KnownAs.refl (record : Record) : record.KnownAs record := ⟨rfl, rfl, rfl, rfl⟩

theorem Record.KnownAs.trans {record record' record'' : Record} (hfirst : record.KnownAs record')
    (hsecond : record'.KnownAs record'') : record.KnownAs record'' :=
  ⟨hsecond.id.trans hfirst.id, hsecond.format.trans hfirst.format,
    hsecond.source.trans hfirst.source, hsecond.analysis.trans hfirst.analysis⟩

namespace Store

/-- The same modules are registered, and the same is known of each. -/
structure KnowsSame (store store' : Store) : Prop where
  lookup : ∀ id, store'.lookup? id = store.lookup? id
  record : ∀ ref record, store.record? ref = some record →
    ∃ record', store'.record? ref = some record' ∧ record.KnownAs record'
  none : ∀ ref, store.record? ref = none → store'.record? ref = none

namespace KnowsSame

variable {store store' store'' : Store}

theorem refl (store : Store) : store.KnowsSame store :=
  ⟨fun _ => rfl, fun _ record hrecord => ⟨record, hrecord, .refl record⟩, fun _ hnone => hnone⟩

theorem trans (hfirst : store.KnowsSame store') (hsecond : store'.KnowsSame store'') :
    store.KnowsSame store'' where
  lookup id := (hsecond.lookup id).trans (hfirst.lookup id)
  record ref record hrecord := by
    obtain ⟨record', hrecord', hknown⟩ := hfirst.record ref record hrecord
    obtain ⟨record'', hrecord'', hknown'⟩ := hsecond.record ref record' hrecord'
    exact ⟨record'', hrecord'', hknown.trans hknown'⟩
  none ref hnone := hsecond.none ref (hfirst.none ref hnone)

/-- A record that is there was there. -/
theorem back (hsame : store.KnowsSame store') {ref : RecordRef} {record' : Record}
    (hrecord' : store'.record? ref = some record') :
    ∃ record, store.record? ref = some record ∧ record.KnownAs record' := by
  cases hrecord : store.record? ref with
  | none =>
      rw [hsame.none ref hrecord] at hrecord'
      cases hrecord'
  | some record =>
      obtain ⟨found, hfound, hknown⟩ := hsame.record ref record hrecord
      obtain rfl := Option.some.inj (hfound.symm.trans hrecord')
      exact ⟨record, rfl, hknown⟩

theorem of_same (hlookup : ∀ id, store'.lookup? id = store.lookup? id)
    (hrecord : ∀ ref, store'.record? ref = store.record? ref) : store.KnowsSame store' :=
  ⟨hlookup, fun ref record hfound => ⟨record, by rw [hrecord, hfound], .refl record⟩,
    fun ref hnone => by rw [hrecord, hnone]⟩

theorem of_modify (ref : RecordRef) {f : Record → Record}
    (hknown : ∀ record : Record, record.KnownAs (f record)) : store.KnowsSame (store.modify ref f) := by
  refine ⟨fun _ => rfl, fun other record hrecord => ?_, fun other hnone => ?_⟩
  · rw [record?_modify, hrecord]
    split
    · exact ⟨f record, rfl, hknown record⟩
    · exact ⟨record, rfl, .refl record⟩
  · simp [record?_modify, hnone]

theorem of_rebinds {refs : List RecordRef} (hrebinds : Rebinds refs store store') :
    store.KnowsSame store' where
  lookup := hrebinds.lookup
  record ref record hrecord := by
    obtain ⟨status, environment, hrecord'⟩ := hrebinds.record ref record hrecord
    exact ⟨_, hrecord', rfl, rfl, rfl, rfl⟩
  none := hrebinds.none

theorem of_stir (hstir : store.Stir store') : store.KnowsSame store' := by
  cases hstir with
  | heap heap => exact .of_same (fun _ => rfl) (fun _ => rfl)
  | space id requester? => exact .of_same (by simp) (by simp)
  | write cell value => exact .of_same (fun _ => rfl) (by simp)

theorem of_stirs (hstirs : store.Stirs store') : store.KnowsSame store' := by
  induction hstirs with
  | refl => exact .refl store
  | tail _ hstir ih => exact ih.trans (.of_stir hstir)

/-- What a body does through its scope. -/
theorem of_works {ref : RecordRef} (hworks : Relation.ReflTransGen (Works ref) store store') :
    store.KnowsSame store' := by
  induction hworks with
  | refl => exact .refl store
  | tail _ hwork ih =>
      cases hwork with
      | stir hstir => exact ih.trans (.of_stir hstir)
      | exports value =>
          refine ih.trans (.of_modify ref (fun record => ⟨rfl, ?_, rfl, rfl⟩))
          unfold Record.format
          rw [Option.isSome_map]
      | declare hnew howner => exact ih.trans (.of_rebinds (.of_declare _ _ _ _))

theorem of_status (ref : RecordRef) (status : Status) :
    store.KnowsSame (store.setStatus ref status) :=
  .of_modify ref (fun _ => ⟨rfl, rfl, rfl, rfl⟩)

end KnowsSame

end Store

/-- The engine knows the same, and takes it from the same host. -/
structure Engine.KnowsSame (engine engine' : Engine) : Prop where
  config : engine'.config = engine.config
  host : engine'.host = engine.host
  resolver : engine'.resolver = engine.resolver
  store : engine.store.KnowsSame engine'.store
  loads : engine'.loads = engine.loads

/-- The dynamic imports do not matter to what is known. -/
theorem Engine.KnowsSame.of_imports (engine : Engine) (imports : Imports) :
    engine.KnowsSame { engine with imports } := ⟨rfl, rfl, rfl, .refl _, rfl⟩

/-- A fact about engines that is upheld by all that they learn of modules. -/
structure Engine.Taught (fact : Engine → Prop) : Prop where
  register : ∀ specifier referrer?,
    Attempt.Keeps fact (Attempt.resolveAndRegister specifier referrer?)
  analyze : ∀ ref record, Attempt.Triple
    (fun engine => fact engine ∧ engine.store.record? ref = some record)
    (Attempt.analyze ref record) (fun _ => fact) fact

/-- A fact about engines that is upheld by all that engines do at once. -/
structure Engine.Upheld (fact : Engine → Prop) : Prop extends Engine.Taught fact where
  same : ∀ {engine engine' : Engine}, engine.KnowsSame engine' → fact engine → fact engine'
  resolve : ∀ specifier referrer?, Attempt.Keeps fact (Attempt.resolve specifier referrer?)
  load : ∀ ref record, Attempt.Triple
    (fun engine => fact engine ∧ engine.store.record? ref = some record)
    (Attempt.sourceOf ref record) (fun _ => fact) fact

/-- A record is there for a module, with the analysis it was known to have. -/
def Store.RecordOf (store : Store) (ref : RecordRef) (known : Record) : Prop :=
  ∃ record, store.record? ref = some record ∧ record.id = known.id ∧
    record.analysis? = known.analysis?

/-- A fact about engines that is also upheld when sources are fetched ahead.  A source is fetched for a
record as it was found some time before. -/
structure Engine.TaughtAhead (fact : Engine → Prop) : Prop extends Engine.Taught fact where
  fetch : ∀ {before : Engine} {ref record}, fact before →
    before.store.record? ref = some record → Attempt.Triple
    (fun engine => fact engine ∧ engine.store.RecordOf ref record)
    (Attempt.fetchSource ref record) (fun _ => fact) fact

/-- A fact about engines that is also upheld by dynamic imports. -/
structure Engine.UpheldThroughout (fact : Engine → Prop) : Prop extends Engine.Upheld fact where
  prefetch : ∀ root, Attempt.Keeps fact (Attempt.prefetch root)
  join : ∀ specifier requester?, Attempt.Keeps fact (Attempt.beginImport specifier requester?)

/-- Such a fact, for which it does not matter how many sources the host has given. -/
structure Engine.UpheldAhead (fact : Engine → Prop) : Prop extends Engine.UpheldThroughout fact where
  recount : ∀ (engine : Engine) (loads : Nat), fact engine → fact { engine with loads }

namespace Attempt

variable {α β : Type} {pre fails : Engine → Prop} {fact : Engine → Prop}

/-- Looking for a record changes nothing. -/
theorem triple_registered (id : ModuleId) : Triple fact (registered id)
    (fun found engine => fact engine ∧ engine.store.Registered id found.1 found.2) fact := by
  unfold registered
  refine .get_bind (fun engine hfact => ?_)
  dsimp only
  cases hlookup : engine.store.lookup? id with
  | none =>
      refine .throw ?_
      rintro _ rfl
      exact hfact
  | some ref =>
      cases hfind : engine.store.find? id with
      | none =>
          refine .throw ?_
          rintro _ rfl
          exact hfact
      | some record =>
          refine .pure ?_
          rintro _ rfl
          obtain ⟨ref', hregistered⟩ := Store.exists_registered_of_find hfind
          obtain rfl := Option.some.inj (hlookup.symm.trans hregistered.lookup)
          exact ⟨hfact, hregistered⟩

/-- A record that was found when a fact held, and is still there. -/
def Found (fact : Engine → Prop) (entry : RecordRef × Record) (engine : Engine) : Prop :=
  (∃ before, fact before ∧ before.store.record? entry.1 = some entry.2) ∧
    engine.store.RecordOf entry.1 entry.2

/-- The records looked up are there. -/
theorem triple_unsettled (ids : List ModuleId) : Triple fact (unsettled ids)
    (fun records engine => fact engine ∧ ∀ entry ∈ records, Found fact entry engine) fact := by
  unfold unsettled
  refine .get_bind (fun engine hfact => .pure ?_)
  rintro _ rfl
  refine ⟨hfact, fun entry hentry => ?_⟩
  obtain ⟨id, -, hfound⟩ := List.mem_filterMap.mp hentry
  split at hfound
  · rename_i ref record hlookup hfind
    split at hfound
    · cases hfound
    · obtain rfl := Option.some.inj hfound
      rw [Store.find?, hlookup] at hfind
      exact ⟨⟨_, hfact, hfind⟩, record, hfind, rfl, rfl⟩
  · cases hfound

/-- A dynamic import registers its module at most, and starts a pipeline. -/
theorem triple_joinOrStart {resolved : Resolved}
    (himports : ∀ (engine : Engine) (imports : Imports),
      fact engine → fact { engine with imports })
    (hpre : ∀ engine, pre engine → fact engine)
    (hcreate : Triple pre (onStore (·.getOrCreate resolved.id resolved.format)) (fun _ => fact) fact) :
    Triple pre (joinOrStart resolved) (fun _ => fact) fact := by
  unfold joinOrStart
  refine .get_bind (fun engine hengine => ?_)
  split
  · refine .pure ?_
    rintro _ rfl
    exact hpre _ hengine
  · refine (hcreate.weaken ?_).bind (fun ref => .get_bind (fun engine' hfact' => ?_))
    · rintro _ rfl
      exact hengine
    · split
      · refine .pure ?_
        rintro _ rfl
        exact hfact'
      · exact (Triple.set (himports engine' _ hfact')).bind
          (fun _ => .pure (fun _ hfact => hfact))

/-- A fold keeps what each of its steps keeps. -/
theorem Keeps.foldlM {γ : Type} {f : β → γ → Attempt β} (items : List γ) (start : β)
    (hstep : ∀ value, ∀ item ∈ items, Keeps fact (f value item)) :
    Keeps fact (items.foldlM f start) := by
  induction items generalizing start with
  | nil => exact .pure (fun _ hfact => hfact)
  | cons item rest ih =>
      rw [List.foldlM_cons]
      exact (hstep start item List.mem_cons_self).bind
        (fun value => ih value (fun value other hother =>
          hstep value other (List.mem_cons_of_mem _ hother)))

/-- A record stays the record of its module, with its analysis, while sources are fetched. -/
theorem keeps_recordOf (ref other : RecordRef) (record known : Record) :
    Keeps (fun engine => engine.store.RecordOf other known) (fetchSource ref record) := by
  unfold fetchSource
  split
  · refine .get_bind (fun _ hknown => ?_)
    rintro engine rfl
    unfold keepSource
    rw [Engine.attempt_bind, Engine.attempt_bind, Engine.attempt_ofExcept]
    cases engine.host.fetch record.id with
    | error error => exact ⟨fun _ hvalue => (by cases hvalue), fun _ _ => hknown⟩
    | ok source =>
        refine ⟨fun _ _ => ?_, fun _ herror => (by cases herror)⟩
        obtain ⟨found, hfound, hid, hanalysis⟩ := hknown
        show Store.RecordOf (engine.store.modify ref _) other known
        rw [Store.RecordOf, Store.record?_modify, hfound]
        split
        · exact ⟨_, rfl, hid, hanalysis⟩
        · exact ⟨found, rfl, hid, hanalysis⟩
  · exact .pure (fun _ hknown => hknown)

theorem keeps_found (ref : RecordRef) (record : Record) (entry : RecordRef × Record) :
    Keeps (Found fact entry) (fetchSource ref record) := by
  intro engine hfound
  have hkept := keeps_recordOf ref entry.1 record entry.2 engine hfound.2
  exact ⟨fun value hvalue => ⟨hfound.1, hkept.1 value hvalue⟩,
    fun error herror => ⟨hfound.1, hkept.2 error herror⟩⟩

end Attempt

namespace Engine

open Attempt

variable {fact : Engine → Prop}

theorem KnowsSame.of_store {engine : Engine} {store : Store} (hsame : engine.store.KnowsSame store) :
    engine.KnowsSame { engine with store } :=
  ⟨rfl, rfl, rfl, hsame, rfl⟩

namespace Taught

variable (htaught : Taught fact)
include htaught

theorem keeps_walk (fuel : Nat) (above : List ModuleId) (id : ModuleId)
    (dependencies : List ModuleId) (graph : Graph) :
    Keeps fact (walk fuel above id dependencies graph) := by
  -- on the fuel, since a dependency is walked with one less
  induction fuel generalizing above id dependencies graph with
  | zero => exact .throw (fun _ hfact => hfact)
  | succ fuel ih =>
      unfold walk
      refine Triple.bind (Keeps.foldlM _ _ (fun graph dependency _ => ?_))
        (fun _ => .pure (fun _ hfact => hfact))
      split
      · exact .pure (fun _ hfact => hfact)
      split
      · exact .pure (fun _ hfact => hfact)
      refine (triple_registered dependency).bind (fun found => ?_)
      dsimp only
      split
      · exact .pure (fun _ hpost => hpost.1)
      · refine ((htaught.analyze found.1 found.2).weaken (fun _ hpost => ?_)).bind
          (fun further => ih (dependency :: above) dependency further graph)
        exact ⟨hpost.1, hpost.2.record⟩

theorem keeps_buildGraph (root : ModuleId) : Keeps fact (buildGraph root) := by
  unfold buildGraph
  refine (triple_registered root).bind (fun found => ?_)
  refine ((htaught.analyze found.1 found.2).weaken (fun _ hpost => ?_)).bind (fun dependencies => ?_)
  · exact ⟨hpost.1, hpost.2.record⟩
  · refine .get_bind (fun engine hfact => (htaught.keeps_walk _ _ _ _ _).weaken ?_)
    rintro _ rfl
    exact hfact

theorem keeps_graphOf (specifier : String) : Keeps fact (graphOf specifier) :=
  (htaught.register specifier none).bind (fun found => htaught.keeps_buildGraph found.1.id)

/-- To prepare a run is to build its graph and to link it. -/
theorem keeps_prepare (hlink : ∀ order, Keeps fact (tryStore (·.link order))) (root : ModuleId) :
    Keeps fact (prepare root) :=
  (htaught.keeps_buildGraph root).bind (fun graph =>
    (hlink graph.order).bind (fun _ => .pure (fun _ hfact => hfact)))

/-- To start a legacy module is to analyze it, to load it, and to begin. -/
theorem keeps_startLegacy {ref : RecordRef}
    (hload : ∀ record, Triple (fun engine => fact engine ∧ engine.store.record? ref = some record)
      (sourceOf ref record) (fun _ => fact) fact)
    (hbegin : Keeps fact (onStore (fun store => ((), store.modify ref (fun record =>
      { record with
        status := .evaluating
        exports? := record.exports?.map (fun exports => { exports with started := true }) }))))) :
    Keeps fact (startLegacy ref) := by
  unfold startLegacy
  refine .get_bind (fun engine hfact => ?_)
  cases hrecord : engine.store.record? ref with
  | none =>
      refine .pure ?_
      rintro _ rfl
      exact hfact
  | some record =>
      refine ((htaught.analyze ref record).weaken ?_).bind
        (fun _ => .get_bind (fun engine' hfact' => ?_))
      · rintro _ rfl
        exact ⟨hfact, hrecord⟩
      cases hrecord' : engine'.store.record? ref with
      | none =>
          refine .pure ?_
          rintro _ rfl
          exact hfact'
      | some record' =>
          refine ((hload record').weaken ?_).bind (fun source => ?_)
          · rintro _ rfl
            exact ⟨hfact', hrecord'⟩
          exact hbegin.bind (fun _ => .pure (fun _ hfact => hfact))

end Taught

/-- A dynamic import that is over gives the namespace of its module. -/
theorem keeps_concludeImport {target : ModuleId} {requester? : Option ModuleId}
    (hspace : Keeps fact (tryStore (·.namespace_ target requester?))) :
    Keeps fact (concludeImport target requester?) := by
  unfold concludeImport
  refine (triple_registered target).bind (fun found => ?_)
  dsimp only
  split
  · exact .throw (fun _ hpost => hpost.1)
  · exact hspace.weaken (fun _ hpost => hpost.1)

namespace Upheld

variable (hupheld : Upheld fact)
include hupheld

/-- A change of the store that leaves what is known alone. -/
theorem keeps_onStore {α : Type} {f : Store → α × Store}
    (hsame : ∀ store : Store, store.KnowsSame (f store).2) : Keeps fact (onStore f) :=
  .onStore (fun _ hfact => hupheld.same (.of_store (hsame _)) hfact)

theorem keeps_tryStore {α : Type} {f : Store → Except ModuleError α × Store}
    (hsame : ∀ store : Store, store.KnowsSame (f store).2) : Keeps fact (tryStore f) :=
  (hupheld.keeps_onStore hsame).bind (fun _ => .ofExcept (fun _ _ _ hfact => hfact)
    (fun _ hfact => hfact))

theorem keeps_prepare (root : ModuleId) : Keeps fact (prepare root) :=
  hupheld.toTaught.keeps_prepare (fun order =>
    hupheld.keeps_tryStore (fun store => .of_rebinds (store.rebinds_link order))) root

theorem keeps_startLegacy (ref : RecordRef) : Keeps fact (startLegacy ref) := by
  refine hupheld.toTaught.keeps_startLegacy (hupheld.load ref)
    (hupheld.keeps_onStore (fun _ => .of_modify ref (fun record => ⟨rfl, ?_, rfl, rfl⟩)))
  unfold Record.format
  rw [Option.isSome_map]

theorem keeps_concludeImport (target : ModuleId) (requester? : Option ModuleId) :
    Keeps fact (concludeImport target requester?) :=
  Engine.keeps_concludeImport
    (hupheld.keeps_tryStore (fun _ => .of_stir (.space target requester?)))

end Upheld

namespace TaughtAhead

variable (htaught : TaughtAhead fact)
include htaught

theorem keeps_nextLevel (ref : RecordRef) (record : Record) (found seen : List ModuleId) :
    Keeps fact (nextLevel ref record found seen) := by
  unfold nextLevel
  split
  · exact .pure (fun _ hfact => hfact)
  refine .get_bind (fun engine hfact => ?_)
  split
  · refine .pure ?_
    rintro _ rfl
    exact hfact
  · refine (Keeps.foldlM _ _ (fun known specifier _ => ?_)).weaken ?_
    · refine (htaught.register specifier (some record.id)).bind (fun answer => ?_)
      dsimp only
      split
      · exact .pure (fun _ hfact => hfact)
      · exact .pure (fun _ hfact => hfact)
    · rintro _ rfl
      exact hfact

/-- The records that are fetched are there, and they stay while others are fetched. -/
theorem triple_fetchAll (records : List (RecordRef × Record)) :
    Triple (fun engine => fact engine ∧ ∀ entry ∈ records, Found fact entry engine)
      (records.forM (fun (ref, record) => fetchSource ref record)) (fun _ => fact) fact := by
  have hall : Keeps (fun engine => fact engine ∧ ∀ entry ∈ records, Found fact entry engine)
      (records.forM (fun (ref, record) => fetchSource ref record)) := by
    refine Triple.forM records (fun entry hentry engine hpre => ?_)
    obtain ⟨⟨before, hbefore, hfound⟩, hrecord⟩ := hpre.2 entry hentry
    have hothers : Keeps (fun engine => ∀ other ∈ records, Found fact other engine)
        (fetchSource entry.1 entry.2) :=
      Keeps.all records (fun other _ => keeps_found entry.1 entry.2 other)
    exact ((htaught.fetch hbefore hfound).and hothers) engine ⟨⟨hpre.1, hrecord⟩, hpre.2⟩
  exact hall.imp (fun _ hpre => hpre) (fun _ _ hpost => hpost.1) (fun _ hfails => hfails.1)

theorem keeps_prefetchLevels (fuel : Nat) (level seen : List ModuleId) :
    Keeps fact (prefetchLevels fuel level seen) := by
  -- on the number of levels
  induction fuel generalizing level seen with
  | zero => exact .pure (fun _ hfact => hfact)
  | succ fuel ih =>
      unfold prefetchLevels
      split
      · exact .pure (fun _ hfact => hfact)
      refine (triple_unsettled level).bind (fun records => ?_)
      refine (htaught.triple_fetchAll records).bind (fun _ => ?_)
      refine Triple.bind (Keeps.foldlM records _ (fun known entry _ => ?_))
        (fun next => ih next.1 next.2)
      exact htaught.keeps_nextLevel entry.1 entry.2 known.1 known.2

theorem keeps_prefetch (root : ModuleId) : Keeps fact (prefetch root) := by
  unfold prefetch
  refine .get_bind (fun engine hfact => (htaught.keeps_prefetchLevels _ _ _).weaken ?_)
  rintro _ rfl
  exact hfact

end TaughtAhead

end Engine

end Linkage
