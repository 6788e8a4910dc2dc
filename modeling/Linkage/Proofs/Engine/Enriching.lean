import Linkage.Proofs.Engine.Repeating
import Linkage.Proofs.Store.Touch

/-!
# Building a graph only learns

Building a graph does no more to a store than to register modules, to keep their sources, and to
analyze them.  So resolving, registering, loading and analyzing add to what an engine knows of
modules, and whatever else it has stays as it is: how far modules have come, what is bound in them, the
objects and cells, the namespaces, the dynamic imports.

* `Store.Learn` : one change of a store.
* `Record.Informed`, `Learn.informed` : what becomes of a record.
* `Learn.back`, `Learns.lookup_back` : where a record comes from.
* `Store.Enriches` : a store of which more is known.
* `Engine.Enriched`, `Engine.taught_enriched` : what building a graph does to an engine.
-/

namespace Linkage

/-- A record of which more may be known. -/
structure Record.Informed (record record' : Record) : Prop where
  shape : record' = { record with source? := record'.source?, analysis? := record'.analysis? }
  source : ∀ source, record.source? = some source → record'.source? = some source
  analysis : ∀ analysis, record.analysis? = some analysis → record'.analysis? = some analysis

namespace Record.Informed

variable {record record' record'' : Record}

theorem refl (record : Record) : record.Informed record :=
  ⟨rfl, fun _ hsource => hsource, fun _ hanalysis => hanalysis⟩

theorem trans (hfirst : record.Informed record') (hsecond : record'.Informed record'') :
    record.Informed record'' where
  shape := by rw [hsecond.shape, hfirst.shape]
  source source hsource := hsecond.source source (hfirst.source source hsource)
  analysis analysis hanalysis := hsecond.analysis analysis (hfirst.analysis analysis hanalysis)

theorem id (hinformed : record.Informed record') : record'.id = record.id := by
  rw [hinformed.shape]

theorem status (hinformed : record.Informed record') : record'.status = record.status := by
  rw [hinformed.shape]

theorem environment (hinformed : record.Informed record') :
    record'.environment = record.environment := by
  rw [hinformed.shape]

theorem exports (hinformed : record.Informed record') : record'.exports? = record.exports? := by
  rw [hinformed.shape]

theorem format (hinformed : record.Informed record') : record'.format = record.format := by
  rw [hinformed.shape]
  rfl

/-- A record of which all is known stays as it is. -/
theorem eq_self (hinformed : record.Informed record') (hsource : record.source?.isSome)
    (hanalysis : record.analysis?.isSome) : record' = record := by
  obtain ⟨source, hsource⟩ := Option.isSome_iff_exists.mp hsource
  obtain ⟨analysis, hanalysis⟩ := Option.isSome_iff_exists.mp hanalysis
  rw [hinformed.shape, hinformed.source source hsource, hinformed.analysis analysis hanalysis,
    ← hsource, ← hanalysis]

end Record.Informed

namespace Store

/-- Something more is known of the modules. -/
inductive Learn (store : Store) : Store → Prop
  | register (id : ModuleId) (format : Format) : Learn store (store.getOrCreate id format).2
  | source {ref : RecordRef} {record : Record} (hrecord : store.record? ref = some record)
      (hnew : record.source? = none) (source : ModuleSource) :
      Learn store (store.modify ref (fun record => { record with source? := some source }))
  | analysis {ref : RecordRef} {record : Record} (hrecord : store.record? ref = some record)
      (hnew : record.analysis? = none) (analysis : Analysis) :
      Learn store (store.modify ref (fun record => { record with analysis? := some analysis }))

/-- Any number of such changes. -/
abbrev Learns : Store → Store → Prop := Relation.ReflTransGen Learn

variable {store store' : Store} {id : ModuleId} {ref : RecordRef}

namespace Learn

/-- A record stays, and no less is known of it. -/
theorem informed (hlearn : store.Learn store') {record : Record}
    (hrecord : store.record? ref = some record) :
    ∃ record', store'.record? ref = some record' ∧ record.Informed record' := by
  have hmodify : ∀ {changed : RecordRef} {f : Record → Record},
      (∀ record, store.record? changed = some record → record.Informed (f record)) →
      ∃ record', (store.modify changed f).record? ref = some record' ∧ record.Informed record' := by
    intro changed f hinformed
    by_cases href : ref = changed
    · subst href
      exact ⟨f record, record?_modify_self f hrecord, hinformed record hrecord⟩
    · exact ⟨record, by rw [record?_modify_ne href, hrecord], .refl record⟩
  -- what is learnt of a record was not known
  cases hlearn with
  | register other format => exact ⟨record, record?_getOrCreate other format hrecord, .refl record⟩
  | source hknown hnew source =>
      refine hmodify (fun found hfound => ⟨rfl, fun old hold => ?_, fun _ hanalysis => hanalysis⟩)
      obtain rfl := Option.some.inj (hknown.symm.trans hfound)
      rw [hnew] at hold
      cases hold
  | analysis hknown hnew analysis =>
      refine hmodify (fun found hfound => ⟨rfl, fun _ hsource => hsource, fun old hold => ?_⟩)
      obtain rfl := Option.some.inj (hknown.symm.trans hfound)
      rw [hnew] at hold
      cases hold

theorem lookup (hlearn : store.Learn store') (hlookup : store.lookup? id = some ref) :
    store'.lookup? id = some ref := by
  cases hlearn with
  | register other format => exact lookup?_getOrCreate_of_lookup format hlookup
  | source | analysis => exact hlookup

/-- A module that is registered now was registered, or it is the one that is registered anew. -/
theorem back (hlearn : store.Learn store') {record' : Record}
    (hrecord' : store'.record? ref = some record') :
    (∃ record, store.record? ref = some record ∧ record.Informed record') ∨
      (store.record? ref = none ∧ record'.IsFresh) := by
  cases hrecord : store.record? ref with
  | some record =>
      obtain ⟨found, hfound, hinformed⟩ := hlearn.informed hrecord
      obtain rfl := Option.some.inj (hfound.symm.trans hrecord')
      exact .inl ⟨record, rfl, hinformed⟩
  | none =>
      refine .inr ⟨rfl, ?_⟩
      cases hlearn with
      | source | analysis => simp [record?_modify, hrecord] at hrecord'
      | register other format =>
          rcases store.getOrCreate_cases other format with
            ⟨_, -, heq⟩ | ⟨-, heap, fresh, hfresh, -, heq⟩
          · simp [heq, hrecord] at hrecord'
          · rw [heq, record?_register] at hrecord'
            split at hrecord'
            · exact Option.some.inj hrecord' ▸ hfresh
            · cases hrecord.symm.trans hrecord'

/-- A module was registered with its record, or the record is new. -/
theorem lookup_back (hlearn : store.Learn store') (hlookup' : store'.lookup? id = some ref) :
    store.lookup? id = some ref ∨ store.record? ref = none := by
  cases hlearn with
  | source | analysis => exact .inl hlookup'
  | register other format =>
      rcases store.getOrCreate_cases other format with ⟨_, -, heq⟩ | ⟨-, heap, fresh, -, -, heq⟩
      · exact .inl (by rwa [heq] at hlookup')
      · rw [heq, lookup?_register] at hlookup'
        split at hlookup'
        · obtain rfl := Option.some.inj hlookup'
          exact .inr (Array.getElem?_eq_none (Nat.le_refl _))
        · exact .inl hlookup'

end Learn

theorem Learns.lookup_back (hlearns : store.Learns store')
    (hlookup' : store'.lookup? id = some ref) :
    store.lookup? id = some ref ∨ store.record? ref = none := by
  induction hlearns using Relation.ReflTransGen.head_induction_on with
  | refl => exact .inl hlookup'
  | head hlearn _ ih =>
      rcases ih with hlookup | hnone
      · exact hlearn.lookup_back hlookup
      · -- a record that is not there now was not there before
        refine .inr ?_
        rw [← Option.not_isSome_iff_eq_none]
        intro hsome
        obtain ⟨record, hrecord⟩ := Option.isSome_iff_exists.mp hsome
        obtain ⟨record', hrecord', -⟩ := hlearn.informed hrecord
        cases hnone.symm.trans hrecord'

end Store

/-! ## Engines that have learnt -/

namespace Store

/-- Nothing has happened to a store but that more is known of its modules: records are there that were
not, of modules that have not come far, and records have a source or an analysis that had none. -/
structure Enriches (store next : Store) : Prop where
  record : ∀ ref record, store.record? ref = some record →
    ∃ record', next.record? ref = some record' ∧ record.Informed record'
  back : ∀ ref record', next.record? ref = some record' →
    (∃ record, store.record? ref = some record ∧ record.Informed record') ∨
      store.record? ref = none ∧ ∃ fresh : Record, fresh.IsFresh ∧ fresh.Informed record'
  lookup : ∀ id ref, store.lookup? id = some ref → next.lookup? id = some ref
  object : ∀ index < store.heap.size, next.heap.objects[index]? = store.heap.objects[index]?
  size : store.heap.size ≤ next.heap.size
  cells : next.cells = store.cells
  namespaces : next.namespaces = store.namespaces
  issued : next.issued = store.issued
  closed : next.closed = store.closed

variable {store next last : Store}

theorem Enriches.refl (store : Store) : store.Enriches store where
  record _ record hrecord := ⟨record, hrecord, .refl record⟩
  back _ record hrecord := .inl ⟨record, hrecord, .refl record⟩
  lookup _ _ hlookup := hlookup
  object _ _ := rfl
  size := Nat.le_refl _
  cells := rfl
  namespaces := rfl
  issued := rfl
  closed := rfl

theorem Enriches.trans (hnext : store.Enriches next) (hlast : next.Enriches last) :
    store.Enriches last where
  record ref record hrecord := by
    obtain ⟨record', hrecord', hinformed⟩ := hnext.record ref record hrecord
    obtain ⟨record'', hrecord'', hinformed'⟩ := hlast.record ref record' hrecord'
    exact ⟨record'', hrecord'', hinformed.trans hinformed'⟩
  back ref record'' hrecord'' := by
    rcases hlast.back ref record'' hrecord'' with ⟨record', hrecord', hinformed'⟩ | ⟨hnone, hnew⟩
    · rcases hnext.back ref record' hrecord' with
        ⟨record, hrecord, hinformed⟩ | ⟨hnone, fresh, hfresh, hinformed⟩
      · exact .inl ⟨record, hrecord, hinformed.trans hinformed'⟩
      · exact .inr ⟨hnone, fresh, hfresh, hinformed.trans hinformed'⟩
    · refine .inr ⟨?_, hnew⟩
      rw [← Option.not_isSome_iff_eq_none]
      intro hsome
      obtain ⟨record, hrecord⟩ := Option.isSome_iff_exists.mp hsome
      obtain ⟨record', hrecord', -⟩ := hnext.record ref record hrecord
      cases hnone.symm.trans hrecord'
  lookup id ref hlookup := hlast.lookup id ref (hnext.lookup id ref hlookup)
  object index hindex :=
    (hlast.object index (Nat.lt_of_lt_of_le hindex hnext.size)).trans (hnext.object index hindex)
  size := Nat.le_trans hnext.size hlast.size
  cells := hlast.cells.trans hnext.cells
  namespaces := hlast.namespaces.trans hnext.namespaces
  issued := hlast.issued.trans hnext.issued
  closed := hlast.closed.trans hnext.closed

/-- A module that is registered may get an object of its own, after all others. -/
theorem heap_getOrCreate (store : Store) (id : ModuleId) (format : Format) :
    (store.getOrCreate id format).2.heap = store.heap ∨
      (store.getOrCreate id format).2.heap = (store.heap.alloc {}).2 := by
  unfold getOrCreate
  cases store.lookup? id with
  | some ref => exact .inl rfl
  | none =>
      cases format with
      | modern => exact .inl rfl
      | legacy => exact .inr rfl

theorem Learn.enriches (hlearn : store.Learn next) : store.Enriches next := by
  have hrecord : ∀ ref record, store.record? ref = some record →
      ∃ record', next.record? ref = some record' ∧ record.Informed record' :=
    fun _ _ hrecord => hlearn.informed hrecord
  have hback : ∀ ref record', next.record? ref = some record' →
      (∃ record, store.record? ref = some record ∧ record.Informed record') ∨
        store.record? ref = none ∧ ∃ fresh : Record, fresh.IsFresh ∧ fresh.Informed record' :=
    fun _ record' hrecord' => (hlearn.back hrecord').imp id
      (fun hnew => ⟨hnew.1, record', hnew.2, .refl record'⟩)
  have hlookup : ∀ id ref, store.lookup? id = some ref → next.lookup? id = some ref :=
    fun _ _ hlookup => hlearn.lookup hlookup
  cases hlearn with
  | source | analysis =>
      exact ⟨hrecord, hback, hlookup, fun _ _ => rfl, Nat.le_refl _, rfl, rfl, rfl, rfl⟩
  | register id format =>
      have hheap : (∀ index < store.heap.size,
            (store.getOrCreate id format).2.heap.objects[index]? = store.heap.objects[index]?) ∧
          store.heap.size ≤ (store.getOrCreate id format).2.heap.size := by
        rcases store.heap_getOrCreate id format with heq | heq
        · rw [heq]
          exact ⟨fun _ _ => rfl, Nat.le_refl _⟩
        · rw [heq]
          refine ⟨fun index hindex => ?_, ?_⟩
          · show (store.heap.objects.push {})[index]? = store.heap.objects[index]?
            rw [Array.getElem?_push]
            exact if_neg (Nat.ne_of_lt hindex)
          · show store.heap.objects.size ≤ (store.heap.objects.push {}).size
            rw [Array.size_push]
            omega
      obtain ⟨hobject, hsize⟩ := hheap
      rcases store.getOrCreate_cases id format with ⟨_, -, heq⟩ | ⟨-, _, _, -, -, heq⟩
      · rw [heq]
        exact .refl store
      · rw [heq] at hrecord hback hlookup hobject hsize ⊢
        exact ⟨hrecord, hback, hlookup, hobject, hsize, rfl, rfl, rfl, rfl⟩

/-- Different modules still have different records. -/
theorem Learn.named (hlearn : store.Learn next) (hnamed : store.Named) : next.Named := by
  intro id ref hlookup
  have hkept : ∀ {found : RecordRef}, store.lookup? id = some found →
      ∃ record, next.record? found = some record ∧ record.id = id := by
    intro found hfound
    obtain ⟨record, hrecord, hid⟩ := hnamed id found hfound
    obtain ⟨record', hrecord', hinformed⟩ := hlearn.informed hrecord
    exact ⟨record', hrecord', hinformed.id.trans hid⟩
  cases hlearn with
  | source | analysis => exact hkept hlookup
  | register other format =>
      rcases store.getOrCreate_cases other format with
        ⟨_, -, heq⟩ | ⟨-, heap, fresh, -, hid, heq⟩ <;> rw [heq] at hlookup hkept ⊢
      · exact hkept hlookup
      · rw [lookup?_register] at hlookup
        split at hlookup
        · rename_i hsame
          obtain rfl := Option.some.inj hlookup
          exact ⟨fresh, by rw [record?_register, if_pos rfl], hsame.symm⟩
        · exact hkept hlookup

theorem Learns.named (hlearns : store.Learns next) (hnamed : store.Named) : next.Named := by
  induction hlearns with
  | refl => exact hnamed
  | tail _ hlearn ih => exact hlearn.named ih

theorem Learns.enriches (hlearns : store.Learns next) : store.Enriches next := by
  induction hlearns with
  | refl => exact .refl store
  | tail _ hlearn ih => exact ih.trans hlearn.enriches

end Store

namespace Engine

/-- An engine that has only learnt of modules since. -/
structure Enriched (start engine : Engine) : Prop where
  frame : engine = { start with
    resolver := engine.resolver
    store := engine.store
    loads := engine.loads }
  store : start.store.Learns engine.store
  resolver : start.resolver.Recalls engine.resolver

namespace Enriched

variable {start engine : Engine}

theorem refl (engine : Engine) : engine.Enriched engine := ⟨rfl, .refl, fun _ _ _ hknown => hknown⟩

theorem register (henriched : start.Enriched engine) (specifier : String)
    (referrer? : Option ModuleId) :
    start.Enriched (engine.attempt (Attempt.resolveAndRegister specifier referrer?)).2 := by
  rcases engine.attempt_resolveAndRegister_cases specifier referrer? with
    ⟨error, -, -, heq⟩ | ⟨resolved, -, heq⟩
  · rwa [heq]
  · rw [heq]
    refine ⟨?_, henriched.store.tail (.register resolved.id resolved.format), ?_⟩
    · rw [henriched.frame]
    · exact fun _ _ _ hknown => engine.resolver.recalls_resolve _ _ _ _ _ _ _
        (henriched.resolver _ _ _ hknown)

theorem modify (henriched : start.Enriched engine) {ref : RecordRef} {f : Record → Record}
    (loads : Nat) (hlearn : engine.store.Learn (engine.store.modify ref f)) :
    start.Enriched { engine with loads, store := engine.store.modify ref f } := by
  refine ⟨?_, henriched.store.tail hlearn, henriched.resolver⟩
  rw [henriched.frame]

/-- Nothing that an engine had is lost. -/
theorem retains (henriched : start.Enriched engine) : start.Retains engine :=
  ⟨henriched.resolver, henriched.store.enriches.lookup⟩

theorem trans {later : Engine} (hfirst : start.Enriched engine) (hsecond : engine.Enriched later) :
    start.Enriched later where
  frame := by rw [hsecond.frame, hfirst.frame]
  store := hfirst.store.trans hsecond.store
  resolver _ _ _ hknown := hsecond.resolver _ _ _ (hfirst.resolver _ _ _ hknown)

/-- A module has come as far in all engines that have only learnt since the start. -/
theorem status_eq {engine' : Engine} (hnamed : start.store.Named) (henriched : start.Enriched engine)
    (henriched' : start.Enriched engine') {id : ModuleId} {ref ref' : RecordRef}
    {record record' : Record} (hregistered : engine.store.Registered id ref record)
    (hregistered' : engine'.store.Registered id ref' record') : record'.status = record.status := by
  by_cases hbefore : ∃ before, start.store.lookup? id = some before
  · obtain ⟨before, hlookup⟩ := hbefore
    obtain ⟨found, hfound, -⟩ := hnamed id before hlookup
    have hlater {later : Engine} {other : RecordRef} {later' : Record}
        (henriched : start.Enriched later) (hthere : later.store.Registered id other later') :
        later'.status = found.status := by
      obtain rfl := Option.some.inj
        (hthere.lookup.symm.trans (henriched.store.enriches.lookup id before hlookup))
      obtain ⟨_, hrecord, hinformed⟩ := henriched.store.enriches.record _ _ hfound
      obtain rfl := Option.some.inj (hrecord.symm.trans hthere.record)
      exact hinformed.status
    rw [hlater henriched hregistered, hlater henriched' hregistered']
  · -- a module that was not registered has a fresh record in each of them
    have hlater {later : Engine} {other : RecordRef} {later' : Record}
        (henriched : start.Enriched later) (hthere : later.store.Registered id other later') :
        later'.status = .unlinked := by
      have hnone := (henriched.store.lookup_back hthere.lookup).resolve_left
        (fun hlookup => hbefore ⟨other, hlookup⟩)
      rcases henriched.store.enriches.back other later' hthere.record with
        ⟨_, hrecord, -⟩ | ⟨-, fresh, ⟨_, _, rfl⟩, hinformed⟩
      · cases hnone.symm.trans hrecord
      · exact hinformed.status
    rw [hlater henriched hregistered, hlater henriched' hregistered']

end Enriched

open Attempt

variable {start : Engine}

/-- A source is kept of a record that has none. -/
theorem triple_enriched_sourceOf (ref : RecordRef) (record : Record) :
    Triple (fun engine => start.Enriched engine ∧ engine.store.record? ref = some record)
      (sourceOf ref record)
      (fun source engine => start.Enriched engine ∧
        engine.store.record? ref = some { record with source? := some source })
      start.Enriched := by
  unfold sourceOf
  cases hsource : record.source? with
  | some source =>
      refine .pure (fun engine hpre => ⟨hpre.1, ?_⟩)
      rw [hpre.2, ← hsource]
  | none =>
      refine .get_bind (fun _ hpre => ?_)
      rintro engine rfl
      obtain ⟨henriched, hrecord⟩ := hpre
      unfold keepSource
      rw [attempt_bind, attempt_ofExcept]
      cases engine.host.load record.id with
      | error error => exact ⟨fun _ hvalue => (by cases hvalue), fun _ _ => henriched⟩
      | ok source =>
          refine ⟨fun found hfound => ?_, fun _ herror => (by cases herror)⟩
          obtain rfl := Except.ok.inj hfound
          exact ⟨henriched.modify _ (.source hrecord hsource source),
            Store.record?_modify_self _ hrecord⟩

/-- The analysis of a module that has none is kept. -/
theorem triple_enriched_keepAnalysis (ref : RecordRef) {record : Record}
    (hnew : record.analysis? = none) (analysis : Analysis) :
    Triple (fun engine => start.Enriched engine ∧ engine.store.record? ref = some record)
      (do
        onStore (fun store => ((), store.modify ref (fun record =>
          { record with analysis? := some analysis })))
        return analysis.requested) (fun _ => start.Enriched) start.Enriched := by
  have hkept : Triple (fun engine => start.Enriched engine ∧
      engine.store.record? ref = some record)
      (onStore (fun store => ((), store.modify ref (fun record =>
        { record with analysis? := some analysis }))))
      (fun _ => start.Enriched) start.Enriched :=
    .onStore (fun engine hpre => hpre.1.modify engine.loads (.analysis hpre.2 hnew analysis))
  exact hkept.bind (fun _ => .pure (fun _ henriched => henriched))

theorem triple_enriched_analyze (ref : RecordRef) (record : Record) :
    Triple (fun engine => start.Enriched engine ∧ engine.store.record? ref = some record)
      (analyze ref record) (fun _ => start.Enriched) start.Enriched := by
  unfold analyze
  split
  · exact .pure (fun _ hpre => hpre.1)
  rename_i hnew
  refine (triple_enriched_sourceOf ref record).bind (fun source => ?_)
  have hnoted :=
    @triple_enriched_keepAnalysis start ref { record with source? := some source } hnew
  cases record.format with
  | legacy => exact Triple.bind (.pure (fun _ hpre => hpre)) hnoted
  | modern =>
      have hkept : Keeps start.Enriched (analyzeModern record.id source) :=
        (triple_analyzeModern source (fun specifier _ => .of_after (fun _ henriched =>
          henriched.register specifier (some record.id)))).imp (fun _ hpre => hpre)
          (fun _ _ hpost => hpost.1) (fun _ hfails => hfails)
      exact ((hkept.and (keeps_record_analyzeModern record.id source)).imp (fun _ hpre => hpre)
        (fun _ _ hpost => hpost) (fun _ hfails => hfails.1)).bind hnoted

/-- **Resolving, registering and analyzing only learn.** -/
theorem taught_enriched (start : Engine) : Taught start.Enriched where
  register specifier referrer? :=
    .of_after (fun _ henriched => henriched.register specifier referrer?)
  analyze := triple_enriched_analyze

/-- What learning and keeping a source leave true of a store stays true while modules are taught, also
when sources are fetched ahead. -/
theorem taughtAhead_of_learns {fact : Store → Prop}
    (hlearns : ∀ {store store' : Store}, store.Learns store' → fact store → fact store')
    (hsource : ∀ {store : Store} (ref : RecordRef) (source : ModuleSource), fact store →
      fact (store.modify ref (fun record => { record with source? := some source }))) :
    TaughtAhead (fun engine => fact engine.store) where
  register specifier referrer? := .of_after (fun engine hfact =>
    hlearns ((Enriched.refl engine).register specifier referrer?).store hfact)
  analyze asked record engine hpre := by
    have hlearnt := ((triple_enriched_analyze asked record).after ⟨.refl engine, hpre.2⟩).store
    exact ⟨fun _ _ => hlearns hlearnt hpre.1, fun _ _ => hlearns hlearnt hpre.1⟩
  fetch {_ asked record} _ _ := by
    have hfetched : Keeps (fun engine => fact engine.store) (fetchSource asked record) := by
      refine .of_after (fun engine hfact => ?_)
      unfold fetchSource
      split
      · rw [attempt_bind, attempt_get]
        dsimp only
        rw [attempt_bind]
        unfold keepSource
        rw [attempt_bind, attempt_ofExcept]
        cases engine.host.fetch record.id with
        | error error => exact hfact
        | ok source => exact hsource asked source hfact
      · exact hfact
    exact hfetched.weaken (fun _ hpre => hpre.1)

/-- The source that is loaded for a record is kept there, and nothing else happens. -/
theorem triple_sourceOf_of_learns {fact : Store → Prop}
    (hlearns : ∀ {store store' : Store}, store.Learns store' → fact store → fact store')
    (ref : RecordRef) (record : Record) :
    Triple (fun engine => fact engine.store ∧ engine.store.record? ref = some record)
      (sourceOf ref record) (fun _ engine => fact engine.store) (fun engine => fact engine.store) := by
  intro engine hpre
  have hlearnt := ((triple_enriched_sourceOf ref record).imp (fun _ hpre => hpre)
    (fun _ _ hpost => hpost.1) (fun _ hfails => hfails) |>.after ⟨.refl engine, hpre.2⟩).store
  exact ⟨fun _ _ => hlearns hlearnt hpre.1, fun _ _ => hlearns hlearnt hpre.1⟩

end Engine

end Linkage
