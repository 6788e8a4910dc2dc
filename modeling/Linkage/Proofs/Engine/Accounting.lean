import Linkage.Proofs.Engine.Stepping

/-!
# Every source is given once

A source is kept of a record that has none, whether it is loaded when the record is analyzed or fetched
ahead, and an analysis of a record that has a source and no analysis.  So neither is ever replaced, and
the host has given as many sources as there are records that have one.

* `Store.sources`, `Store.loaded` : the sources that are kept, and how many they are.
* `Engine.Balanced` : each record is registered, and each source that was given is kept.
* `Store.Keeps` : what is kept is not replaced.
* `Engine.keptStepwise_balanced` : every step keeps both.
-/

namespace Linkage

namespace Store

variable {store next : Store} {ref : RecordRef} {record : Record}

/-- The source of each record, if it has one. -/
def sources (store : Store) : List (Option ModuleSource) := store.records.toList.map (·.source?)

/-- How many records have a source. -/
def loaded (store : Store) : Nat := store.sources.countP Option.isSome

theorem getElem?_sources (store : Store) (index : Nat) :
    store.sources[index]? = (store.record? ⟨index⟩).map (·.source?) := by
  unfold sources record?
  rw [List.getElem?_map, Array.getElem?_toList]

/-- The sources are the same if those of all records are. -/
theorem sources_eq (hsame : ∀ ref, (next.record? ref).map (·.source?) =
    (store.record? ref).map (·.source?)) : next.sources = store.sources := by
  refine List.ext_getElem? (fun index => ?_)
  rw [getElem?_sources, getElem?_sources, hsame]

/-- A record that is changed otherwise keeps its source. -/
theorem sources_modify (ref : RecordRef) {f : Record → Record}
    (hsame : ∀ record : Record, (f record).source? = record.source?) :
    (store.modify ref f).sources = store.sources := by
  refine sources_eq (fun other => ?_)
  rw [record?_modify]
  split
  · cases store.record? other <;> simp [hsame]
  · rfl

theorem KnowsSame.sources (hsame : store.KnowsSame next) : next.sources = store.sources := by
  refine sources_eq (fun ref => ?_)
  cases hrecord : store.record? ref with
  | none => rw [hsame.none ref hrecord]
  | some record =>
      obtain ⟨record', hrecord', hknown⟩ := hsame.record ref record hrecord
      rw [hrecord', Option.map_some, Option.map_some, hknown.source]

/-- A module that is registered has no source yet. -/
theorem loaded_getOrCreate (store : Store) (id : ModuleId) (format : Format) :
    (store.getOrCreate id format).2.loaded = store.loaded := by
  rcases store.getOrCreate_cases id format with ⟨_, -, heq⟩ | ⟨-, heap, fresh, hfresh, -, heq⟩
  · rw [heq]
  · obtain ⟨_, _, rfl⟩ := hfresh
    rw [heq]
    show List.countP _ (List.map _ (store.records.push _).toList) = _
    rw [Array.toList_push, List.map_append, List.countP_append]
    rfl

/-- One record more has a source. -/
theorem loaded_keepSource (hrecord : store.record? ref = some record) (hnew : record.source? = none)
    (source : ModuleSource) :
    (store.modify ref (fun record => { record with source? := some source })).loaded =
      store.loaded + 1 := by
  have hset : (store.modify ref (fun record => { record with source? := some source })).sources =
      store.sources.set ref.index (some source) := by
    refine List.ext_getElem? (fun index => ?_)
    have hlength : ref.index < store.sources.length := by
      rw [sources, List.length_map]
      exact (Array.getElem?_eq_some_iff.mp hrecord).1
    rw [getElem?_sources, record?_modify, List.getElem?_set, if_pos hlength, getElem?_sources]
    by_cases hindex : ref.index = index
    · subst hindex
      rw [if_pos rfl, if_pos rfl, hrecord]
      rfl
    · rw [if_neg hindex, if_neg (fun hsame => hindex (congrArg RecordRef.index hsame).symm)]
  have hbefore : store.sources[ref.index]? = some none := by
    rw [getElem?_sources, hrecord, Option.map_some, hnew]
  obtain ⟨hlength, hbefore⟩ := List.getElem?_eq_some_iff.mp hbefore
  unfold loaded
  rw [hset, List.countP_set hlength, hbefore]
  rfl

/-- A source or an analysis that a record has is not replaced. -/
structure Keeps (store next : Store) : Prop where
  record : ∀ ref record, store.record? ref = some record → ∃ record',
    next.record? ref = some record' ∧ record'.id = record.id ∧ record'.format = record.format ∧
      (∀ source, record.source? = some source → record'.source? = some source) ∧
      ∀ analysis, record.analysis? = some analysis → record'.analysis? = some analysis

namespace Keeps

theorem refl (store : Store) : store.Keeps store :=
  ⟨fun _ record hrecord => ⟨record, hrecord, rfl, rfl, fun _ hsource => hsource,
    fun _ hanalysis => hanalysis⟩⟩

theorem trans {last : Store} (hnext : store.Keeps next) (hlast : next.Keeps last) :
    store.Keeps last := by
  refine ⟨fun ref record hrecord => ?_⟩
  obtain ⟨record', hrecord', hid, hformat, hsource, hanalysis⟩ := hnext.record ref record hrecord
  obtain ⟨record'', hrecord'', hid', hformat', hsource', hanalysis'⟩ :=
    hlast.record ref record' hrecord'
  exact ⟨record'', hrecord'', hid'.trans hid, hformat'.trans hformat,
    fun source hfound => hsource' source (hsource source hfound),
    fun analysis hfound => hanalysis' analysis (hanalysis analysis hfound)⟩

theorem of_knowsSame (hsame : store.KnowsSame next) : store.Keeps next := by
  refine ⟨fun ref record hrecord => ?_⟩
  obtain ⟨record', hrecord', hknown⟩ := hsame.record ref record hrecord
  exact ⟨record', hrecord', hknown.id, hknown.format, fun _ hfound => hknown.source.trans hfound,
    fun _ hfound => hknown.analysis.trans hfound⟩

theorem of_learn (hlearn : store.Learn next) : store.Keeps next := by
  refine ⟨fun ref record hrecord => ?_⟩
  obtain ⟨record', hrecord', hinformed⟩ := hlearn.informed hrecord
  exact ⟨record', hrecord', hinformed.id, hinformed.format, hinformed.source, hinformed.analysis⟩

end Keeps

end Store

namespace Engine

variable {start engine engine' : Engine}

/-- Each record is that of a module, and the host has given as many sources as records have. -/
structure Balanced (engine : Engine) : Prop where
  named : engine.store.Named
  registered : ∀ ref record, engine.store.record? ref = some record →
    engine.store.lookup? record.id = some ref
  loads : engine.loads = engine.store.loaded

theorem balanced_new (host : Host) (config : Config) : (new host config).Balanced where
  named _ _ hlookup := by cases hlookup
  registered _ _ hrecord := by simp [new, Store.empty, Store.record?] at hrecord
  loads := rfl

namespace Balanced

theorem knowsSame (hbalanced : engine.Balanced) (hsame : engine.KnowsSame engine') :
    engine'.Balanced where
  named id ref hlookup := by
    rw [hsame.store.lookup] at hlookup
    obtain ⟨record, hrecord, hid⟩ := hbalanced.named id ref hlookup
    obtain ⟨record', hrecord', hknown⟩ := hsame.store.record ref record hrecord
    exact ⟨record', hrecord', hknown.id.trans hid⟩
  registered ref record' hrecord' := by
    obtain ⟨record, hrecord, hknown⟩ := hsame.store.back hrecord'
    rw [hsame.store.lookup, hknown.id]
    exact hbalanced.registered ref record hrecord
  loads := by
    rw [hsame.loads, hbalanced.loads, Store.loaded, Store.loaded, hsame.store.sources]

theorem getOrCreate (hbalanced : engine.Balanced) (id : ModuleId) (format : Format) :
    Balanced { engine with store := (engine.store.getOrCreate id format).2 } where
  named := (Store.Learn.register id format).named hbalanced.named
  registered ref record hrecord := by
    dsimp only at hrecord ⊢
    rcases engine.store.getOrCreate_cases id format with
      ⟨_, -, heq⟩ | ⟨hnone, heap, fresh, -, hid, heq⟩
    · rw [heq] at hrecord ⊢
      exact hbalanced.registered ref record hrecord
    · rw [heq, Store.record?_register] at hrecord
      rw [heq, Store.lookup?_register]
      split at hrecord
      · obtain rfl := Option.some.inj hrecord
        rename_i hindex
        rw [if_pos rfl, ← show ref.index = engine.store.records.size from hindex]
      · have hlookup : engine.store.lookup? record.id = some ref :=
          hbalanced.registered ref record hrecord
        rw [if_neg (fun hsame => ?_)]
        · exact hlookup
        · rw [hsame, hid, hnone] at hlookup
          cases hlookup
  loads := hbalanced.loads.trans (Store.loaded_getOrCreate _ _ _).symm

/-- More may be known of a record. -/
theorem modify (hbalanced : engine.Balanced) (ref : RecordRef) {f : Record → Record} {loads : Nat}
    (hid : ∀ record : Record, (f record).id = record.id)
    (hloads : loads = (engine.store.modify ref f).loaded) :
    Balanced { engine with loads, store := engine.store.modify ref f } where
  named id other hlookup := by
    obtain ⟨record, hrecord, hname⟩ := hbalanced.named id other hlookup
    rw [Store.record?_modify, hrecord]
    split
    · exact ⟨f record, rfl, (hid record).trans hname⟩
    · exact ⟨record, rfl, hname⟩
  registered other found hfound := by
    rw [Store.record?_modify] at hfound
    split at hfound
    · obtain ⟨record, hrecord, rfl⟩ := Option.map_eq_some_iff.mp hfound
      rw [hid]
      exact hbalanced.registered other record hrecord
    · exact hbalanced.registered other found hfound
  loads := hloads

end Balanced

open Attempt

/-- **With every step the account stays balanced**, and nothing that was kept is replaced. -/
theorem keptStepwise_balanced (store : Store) :
    KeptStepwise (fun engine => engine.Balanced ∧ store.Keeps engine.store) where
  named _ hfact := hfact.1.named
  same hsame hfact := ⟨hfact.1.knowsSame hsame, hfact.2.trans (.of_knowsSame hsame.store)⟩
  resolve specifier referrer? := .of_after (fun engine hfact => by
    rw [attempt_resolve]
    exact ⟨⟨hfact.1.named, hfact.1.registered, hfact.1.loads⟩, hfact.2⟩)
  create id format hfact :=
    ⟨hfact.1.getOrCreate id format, hfact.2.trans (.of_learn (.register id format))⟩
  source source hfact hrecord hnew := by
    refine ⟨hfact.1.modify _ (fun _ => rfl) ?_, hfact.2.trans (.of_learn (.source hrecord hnew source))⟩
    rw [Store.loaded_keepSource hrecord hnew source, hfact.1.loads]
  analysis {engine ref _ _ analysis} hfact hrecord _ hnew _ := by
    have hsources : (engine.store.modify ref (fun record => { record with
        analysis? := some analysis })).sources = engine.store.sources :=
      Store.sources_modify ref (fun _ => rfl)
    refine ⟨hfact.1.modify _ (fun _ => rfl) ?_,
      hfact.2.trans (.of_learn (.analysis hrecord hnew analysis))⟩
    rw [hfact.1.loads, Store.loaded, Store.loaded, hsources]

end Engine

end Linkage
