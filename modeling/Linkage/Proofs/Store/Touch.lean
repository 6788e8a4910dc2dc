import Linkage.Proofs.Store.Updates
import Mathlib.Logic.Relation

/-!
# Changes that leave the course of every module alone

Most of what an engine does to its store neither starts, links nor ends a module: objects are made,
namespaces are cached, slots get values, modules are registered, sources are kept, declarations are
analyzed.  `Store.Touch` is one such change.  What a record was before, it is afterwards up to
`Record.Touched`; a record that was not there is fresh.

* `Analysis.Sound` : an analysis asks for every module it names, and no exported local name is
  imported, `defaultLocal` apart.
* `Touch.record`, `Touch.lookup`, `Touch.cell` : what stays.
* `Store.Stir` : a change that leaves even what is known of the modules alone.
* `Touch.record_back`, `Touch.lookup_back`, `Touch.analysis_back` : where what is there came from.
-/

namespace Linkage

/-- The module that an export entry takes something from. -/
def ExportEntry.source? : ExportEntry → Option ModuleId
  | own _ _ => none
  | indirect _ source _ | star source => some source

/-- Every module named by an entry is asked for, and a local name that is exported is not the local
name of an import; only the name of a default export is not looked at. -/
structure Analysis.Sound (analysis : Analysis) : Prop where
  imports : ∀ entry ∈ analysis.imports, entry.source ∈ analysis.requested
  exports : ∀ entry ∈ analysis.exports, ∀ source, entry.source? = some source →
    source ∈ analysis.requested
  own : ∀ as_ name, .own as_ name ∈ analysis.exports → name ≠ defaultLocal →
    ∀ entry ∈ analysis.imports, entry.as_ ≠ name

/-- A record of which nothing is known but its module and format. -/
def Record.IsFresh (record : Record) : Prop :=
  ∃ (id : ModuleId) (value? : Option Value),
    record = { Record.modern id with exports? := value?.map (⟨·, false⟩) }

/-- What a record may become while the course of its module stands still. -/
structure Record.Touched (record record' : Record) : Prop where
  id : record'.id = record.id
  status : record'.status = record.status
  environment : record'.environment = record.environment
  error : record'.error? = record.error?
  poison : record'.poison? = record.poison?
  started : record'.exports?.map (·.started) = record.exports?.map (·.started)
  source : record.source?.isSome → record'.source?.isSome
  analysis : ∀ analysis, record.analysis? = some analysis → record'.analysis? = some analysis

namespace Record.Touched

variable {record record' record'' : Record}

theorem refl (record : Record) : record.Touched record :=
  ⟨rfl, rfl, rfl, rfl, rfl, rfl, fun hsource => hsource, fun _ hanalysis => hanalysis⟩

theorem trans (hfirst : record.Touched record') (hsecond : record'.Touched record'') :
    record.Touched record'' where
  id := hsecond.id.trans hfirst.id
  status := hsecond.status.trans hfirst.status
  environment := hsecond.environment.trans hfirst.environment
  error := hsecond.error.trans hfirst.error
  poison := hsecond.poison.trans hfirst.poison
  started := hsecond.started.trans hfirst.started
  source hsource := hsecond.source (hfirst.source hsource)
  analysis analysis hanalysis := hsecond.analysis analysis (hfirst.analysis analysis hanalysis)

theorem format (htouched : record.Touched record') : record'.format = record.format := by
  have hstarted := congrArg Option.isSome htouched.started
  rw [Option.isSome_map, Option.isSome_map] at hstarted
  simp only [Record.format, hstarted]

theorem analyzed (htouched : record.Touched record') (hanalyzed : record.analysis?.isSome) :
    record'.analysis? = record.analysis? := by
  obtain ⟨analysis, hanalysis⟩ := Option.isSome_iff_exists.mp hanalyzed
  rw [hanalysis, htouched.analysis analysis hanalysis]

end Record.Touched

namespace Store

/-- A change that neither starts, links nor ends a module. -/
inductive Touch (store : Store) : Store → Prop
  | heap (heap : Heap) : Touch store { store with heap }
  | space (id : ModuleId) (requester? : Option ModuleId) :
      Touch store (store.namespace_ id requester?).2
  | write (cell : CellRef) (value : Value) : Touch store (store.writeCell cell value)
  | exports (ref : RecordRef) (value : Value) :
      Touch store (store.modify ref (fun record =>
        { record with exports? := record.exports?.map (fun exports => { exports with value }) }))
  | register (id : ModuleId) (format : Format) : Touch store (store.getOrCreate id format).2
  | source (ref : RecordRef) (source : ModuleSource) :
      Touch store (store.modify ref (fun record => { record with source? := some source }))
  | analysis {ref : RecordRef} {record : Record} (analysis : Analysis)
      (hrecord : store.record? ref = some record) (hnew : record.analysis? = none)
      (hsource : record.source?.isSome) (hsound : analysis.Sound)
      (hknown : ∀ id ∈ analysis.requested, (store.lookup? id).isSome) :
      Touch store (store.modify ref (fun record => { record with analysis? := some analysis }))

/-- Any number of such changes. -/
abbrev Touches : Store → Store → Prop := Relation.ReflTransGen Touch

/-- A change of values alone: objects, cached namespaces, and slots. -/
inductive Stir (store : Store) : Store → Prop
  | heap (heap : Heap) : Stir store { store with heap }
  | space (id : ModuleId) (requester? : Option ModuleId) :
      Stir store (store.namespace_ id requester?).2
  | write (cell : CellRef) (value : Value) : Stir store (store.writeCell cell value)

/-- Any number of such changes. -/
abbrev Stirs : Store → Store → Prop := Relation.ReflTransGen Stir

theorem Stir.touch {store store' : Store} (hstir : store.Stir store') : store.Touch store' := by
  cases hstir with
  | heap heap => exact .heap heap
  | space id requester? => exact .space id requester?
  | write cell value => exact .write cell value

theorem Stirs.touches {store store' : Store} (hstirs : store.Stirs store') :
    store.Touches store' := by
  induction hstirs with
  | refl => exact .refl
  | tail _ hstir ih => exact ih.tail hstir.touch

/-- A fold does to a store what each of its steps does. -/
theorem reaches_foldl {σ γ : Type} {change : Store → Store → Prop} (view : σ → Store)
    {f : σ → γ → σ} (hstep : ∀ state item,
      Relation.ReflTransGen change (view state) (view (f state item))) (items : List γ)
    (start : σ) : Relation.ReflTransGen change (view start) (view (items.foldl f start)) := by
  induction items generalizing start with
  | nil => exact .refl
  | cons item rest ih =>
      rw [List.foldl_cons]
      exact (hstep start item).trans (ih (f start item))

variable {store store' : Store}

/-- A module that is not registered gets a fresh record. -/
theorem getOrCreate_cases (store : Store) (id : ModuleId) (format : Format) :
    (∃ ref, store.lookup? id = some ref ∧ store.getOrCreate id format = (ref, store)) ∨
    (store.lookup? id = none ∧ ∃ heap record, record.IsFresh ∧ record.id = id ∧
      store.getOrCreate id format = register { store with heap } record) := by
  unfold getOrCreate
  cases hlookup : store.lookup? id with
  | some ref => exact .inl ⟨ref, rfl, rfl⟩
  | none =>
      refine .inr ⟨rfl, ?_⟩
      cases format with
      | modern => exact ⟨store.heap, .modern id, ⟨id, none, rfl⟩, rfl, rfl⟩
      | legacy =>
          exact ⟨(store.heap.alloc {}).2, .legacy id (.object (store.heap.alloc {}).1),
            ⟨id, some _, rfl⟩, rfl, rfl⟩

/-- A module that is registered stays as it is. -/
theorem getOrCreate_of_lookup {id : ModuleId} {ref : RecordRef} (format : Format)
    (hlookup : store.lookup? id = some ref) : store.getOrCreate id format = (ref, store) := by
  unfold getOrCreate
  rw [hlookup]

/-- The module is registered afterwards. -/
theorem lookup?_getOrCreate (store : Store) (id : ModuleId) (format : Format) :
    (store.getOrCreate id format).2.lookup? id = some (store.getOrCreate id format).1 := by
  rcases store.getOrCreate_cases id format with
    ⟨ref, hlookup, heq⟩ | ⟨hlookup, heap, record, hfresh, rfl, heq⟩
  · rw [heq, hlookup]
  · rw [heq, lookup?_register, if_pos rfl]
    rfl

theorem record?_getOrCreate {ref : RecordRef} {record : Record} (id : ModuleId) (format : Format)
    (hrecord : store.record? ref = some record) :
    (store.getOrCreate id format).2.record? ref = some record := by
  rcases store.getOrCreate_cases id format with
    ⟨_, hlookup, heq⟩ | ⟨hlookup, heap, fresh, hfresh, rfl, heq⟩
  · rw [heq, hrecord]
  · rw [heq]
    exact record?_register_of_record hrecord

theorem lookup?_getOrCreate_of_lookup {id other : ModuleId} {ref : RecordRef} (format : Format)
    (hlookup : store.lookup? other = some ref) :
    (store.getOrCreate id format).2.lookup? other = some ref := by
  rcases store.getOrCreate_cases id format with
    ⟨_, -, heq⟩ | ⟨hnone, heap, fresh, hfresh, rfl, heq⟩
  · rw [heq, hlookup]
  · rw [heq, lookup?_register]
    -- the module registered now was not registered, so it is another one
    have hne : other ≠ fresh.id := by
      rintro rfl
      simp [hlookup] at hnone
    rw [if_neg hne]
    exact hlookup

/-- Changing one record changes it only as far as `f` does. -/
theorem record_modify {f : Record → Record} {ref other : RecordRef} {record : Record}
    (htouched : other = ref → record.Touched (f record))
    (hrecord : store.record? other = some record) :
    ∃ record', (store.modify ref f).record? other = some record' ∧ record.Touched record' := by
  by_cases href : other = ref
  · subst href
    exact ⟨f record, record?_modify_self f hrecord, htouched rfl⟩
  · exact ⟨record, by rw [record?_modify_ne href, hrecord], .refl record⟩

namespace Touch

/-- A record stays, and so do its module, its course, and its analysis once there is one. -/
theorem record (htouch : store.Touch store') {ref : RecordRef} {record : Record}
    (hrecord : store.record? ref = some record) :
    ∃ record', store'.record? ref = some record' ∧ record.Touched record' := by
  cases htouch with
  | heap heap => exact ⟨record, hrecord, .refl record⟩
  | space id requester? => exact ⟨record, by simpa using hrecord, .refl record⟩
  | write cell value => exact ⟨record, by simpa using hrecord, .refl record⟩
  | exports changed value =>
      refine record_modify (fun _ => ⟨rfl, rfl, rfl, rfl, rfl, ?_, fun h => h, fun _ h => h⟩)
        hrecord
      rw [Option.map_map]
      rfl
  | register id format => exact ⟨record, record?_getOrCreate id format hrecord, .refl record⟩
  | source changed source =>
      exact record_modify (fun _ => ⟨rfl, rfl, rfl, rfl, rfl, rfl, fun _ => rfl, fun _ h => h⟩)
        hrecord
  | analysis analysis hbefore hnew hsource hsound hknown =>
      refine record_modify (fun href => ⟨rfl, rfl, rfl, rfl, rfl, rfl, fun h => h, ?_⟩) hrecord
      -- there was no analysis, so none is lost
      subst href
      intro old hold
      obtain rfl := Option.some.inj (hbefore.symm.trans hrecord)
      simp [hnew] at hold

theorem lookup (htouch : store.Touch store') {id : ModuleId} {ref : RecordRef}
    (hlookup : store.lookup? id = some ref) : store'.lookup? id = some ref := by
  cases htouch with
  | register other format => exact lookup?_getOrCreate_of_lookup format hlookup
  | heap | write | exports | source | analysis => exact hlookup
  | space => simpa using hlookup

/-- A cell stays with its owner; only its value may change. -/
theorem cell (htouch : store.Touch store') {ref : CellRef} {cell : Cell}
    (hcell : store.cell? ref = some cell) :
    ∃ value?, store'.cell? ref = some { cell with value? } := by
  cases htouch with
  | heap | exports | source | analysis => exact ⟨cell.value?, hcell⟩
  | space => exact ⟨cell.value?, by simpa using hcell⟩
  | write written value =>
      rw [cell?_writeCell, hcell]
      split
      · exact ⟨some value, rfl⟩
      · exact ⟨cell.value?, rfl⟩
  | register id format =>
      refine ⟨cell.value?, ?_⟩
      rcases store.getOrCreate_cases id format with
        ⟨_, -, heq⟩ | ⟨-, heap, fresh, -, -, heq⟩
      · rw [heq, hcell]
      · rw [heq, cell?_register, cell?_heap, hcell]

/-- A record comes from a record, or it is fresh. -/
theorem record_back (htouch : store.Touch store') {ref : RecordRef} {record' : Record}
    (hrecord' : store'.record? ref = some record') :
    (∃ record, store.record? ref = some record ∧ record.Touched record') ∨
      (store.record? ref = none ∧ record'.IsFresh) := by
  cases hrecord : store.record? ref with
  | some record =>
      obtain ⟨found, hfound, htouched⟩ := htouch.record hrecord
      obtain rfl := Option.some.inj (hfound.symm.trans hrecord')
      exact .inl ⟨record, rfl, htouched⟩
  | none =>
      refine .inr ⟨rfl, ?_⟩
      -- only registering a module makes a record
      cases htouch with
      | heap | write => simp [hrecord] at hrecord'
      | space => simp [hrecord] at hrecord'
      | exports | source | analysis => simp [record?_modify, hrecord] at hrecord'
      | register id format =>
          rcases store.getOrCreate_cases id format with
            ⟨_, -, heq⟩ | ⟨-, heap, fresh, hfresh, -, heq⟩
          · simp [heq, hrecord] at hrecord'
          · rw [heq, record?_register] at hrecord'
            split at hrecord'
            · exact Option.some.inj hrecord' ▸ hfresh
            · simp [hrecord] at hrecord'

/-- A module was registered, or it is now with a fresh record. -/
theorem lookup_back (htouch : store.Touch store') {id : ModuleId} {ref : RecordRef}
    (hlookup' : store'.lookup? id = some ref) :
    store.lookup? id = some ref ∨
      ∃ record', store'.record? ref = some record' ∧ record'.id = id ∧ record'.IsFresh := by
  cases htouch with
  | heap | write | exports | source | analysis => exact .inl hlookup'
  | space => exact .inl (by simpa using hlookup')
  | register other format =>
      rcases store.getOrCreate_cases other format with
        ⟨_, -, heq⟩ | ⟨-, heap, fresh, hfresh, rfl, heq⟩
      · exact .inl (by rwa [heq] at hlookup')
      · rw [heq, lookup?_register] at hlookup'
        split at hlookup'
        · rename_i hid
          subst hid
          obtain rfl := Option.some.inj hlookup'
          refine .inr ⟨fresh, ?_, rfl, hfresh⟩
          rw [heq, record?_register, if_pos rfl]
        · exact .inl hlookup'

/-- An analysis was there before, or it is sound, of a module with a source, and asks only for
modules that are registered. -/
theorem analysis_back (htouch : store.Touch store') {ref : RecordRef} {record record' : Record}
    {analysis : Analysis} (hrecord : store.record? ref = some record)
    (hrecord' : store'.record? ref = some record') (hanalysis : record'.analysis? = some analysis) :
    record.analysis? = some analysis ∨ record.analysis? = none ∧ record.source?.isSome ∧
      analysis.Sound ∧ ∀ id ∈ analysis.requested, (store.lookup? id).isSome := by
  cases htouch with
  | heap | write =>
      obtain rfl := Option.some.inj (hrecord.symm.trans hrecord')
      exact .inl hanalysis
  | space =>
      obtain rfl := Option.some.inj (hrecord.symm.trans (by simpa using hrecord'))
      exact .inl hanalysis
  | register id format =>
      obtain rfl := Option.some.inj ((record?_getOrCreate id format hrecord).symm.trans hrecord')
      exact .inl hanalysis
  | exports changed value | source changed source =>
      rw [record?_modify, hrecord] at hrecord'
      split at hrecord'
      · obtain rfl := Option.some.inj hrecord'
        exact .inl hanalysis
      · obtain rfl := Option.some.inj hrecord'
        exact .inl hanalysis
  | analysis added hbefore hnew hsource hsound hknown =>
      rw [record?_modify, hrecord] at hrecord'
      split at hrecord'
      · rename_i href
        subst href
        obtain rfl := Option.some.inj (hbefore.symm.trans hrecord)
        obtain rfl := Option.some.inj hrecord'
        obtain rfl := Option.some.inj hanalysis
        exact .inr ⟨hnew, hsource, hsound, hknown⟩
      · obtain rfl := Option.some.inj hrecord'
        exact .inl hanalysis

end Touch

theorem touches_record (htouches : store.Touches store') {ref : RecordRef} {record : Record}
    (hrecord : store.record? ref = some record) :
    ∃ record', store'.record? ref = some record' ∧ record.Touched record' := by
  induction htouches with
  | refl => exact ⟨record, hrecord, .refl record⟩
  | tail _ htouch ih =>
      obtain ⟨middle, hmiddle, htouched⟩ := ih
      obtain ⟨record', hrecord', htouched'⟩ := htouch.record hmiddle
      exact ⟨record', hrecord', htouched.trans htouched'⟩

theorem touches_lookup (htouches : store.Touches store') {id : ModuleId} {ref : RecordRef}
    (hlookup : store.lookup? id = some ref) : store'.lookup? id = some ref := by
  induction htouches with
  | refl => exact hlookup
  | tail _ htouch ih => exact htouch.lookup ih

end Store

end Linkage
