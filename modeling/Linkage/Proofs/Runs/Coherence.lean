import Linkage.Proofs.Runs.Advancing

/-!
# What a status promises of a record

A modern module that is not linked has an empty environment; one that is linked has been analyzed,
its imports are bound, and it owns the local names it exports.  The exports value of a legacy module
is there from the moment its body begins.

* `Store.Bound`, `Store.Coherent` : the promises.
* `Change.coherent` : every change keeps them.
* `Store.SparesDefault` : the local name that no import should have.
-/

namespace Linkage

namespace Store

/-- What linking has done for a record, or analyzing for a legacy one. -/
structure Bound (store : Store) (record : Record) : Prop where
  analyzed : record.analysis?.isSome
  imports : record.format = .modern →
    ∀ entry ∈ record.imports, (record.environment.find? entry.as_).isSome
  owns : record.format = .modern → ∀ name, OwnName record.exportEntries name →
    (∀ entry ∈ record.imports, entry.as_ ≠ name) → store.Owns record name

/-- What a status promises of a record. -/
structure Coherent (store : Store) (record : Record) : Prop where
  started : ∀ exports, record.exports? = some exports →
    (exports.started = true ↔ record.status ≠ .unlinked)
  empty : record.format = .modern → record.status = .unlinked → record.environment = {}
  sound : ∀ analysis, record.analysis? = some analysis → analysis.Sound
  sourced : record.analysis?.isSome → record.source?.isSome
  linked : record.status.hasLinked = true → store.Bound record

variable {store store' : Store}

theorem coherent_of_isFresh {record : Record} (hfresh : record.IsFresh) :
    store.Coherent record := by
  obtain ⟨id, value?, rfl⟩ := hfresh
  refine ⟨?_, fun _ _ => rfl, nofun, nofun, nofun⟩
  intro exports hexports
  obtain ⟨value, -, rfl⟩ := Option.map_eq_some_iff.mp hexports
  exact ⟨nofun, fun hnot => absurd rfl hnot⟩

theorem OwnsCell.advances {record record' : Record} {name : String} {cell : CellRef}
    (howns : store.OwnsCell record name cell) (hstore : store.Advances store')
    (hrecord : record.Advances record') (hlinked : record.status.hasLinked = true) :
    store'.OwnsCell record' name cell := by
  obtain ⟨hbound, found, hfound, howner⟩ := howns
  obtain ⟨value?, hfound'⟩ := hstore.cell cell found hfound
  exact ⟨hrecord.bound hlinked name _ hbound, _, hfound', howner.trans hrecord.id.symm⟩

theorem Bound.advances {record record' : Record} (hbound : store.Bound record)
    (hstore : store.Advances store') (hrecord : record.Advances record')
    (hlinked : record.status.hasLinked = true) : store'.Bound record' := by
  have hsame := hrecord.analyzed hbound.analyzed
  have himports : record'.imports = record.imports := by rw [Record.imports, hsame]; rfl
  have hentries : record'.exportEntries = record.exportEntries := by
    rw [Record.exportEntries, hsame]
    rfl
  refine ⟨?_, ?_, ?_⟩
  · rw [hsame]
    exact hbound.analyzed
  · intro hmodern entry hentry
    rw [himports] at hentry
    obtain ⟨binding, hbinding⟩ := Option.isSome_iff_exists.mp
      (hbound.imports (hrecord.format ▸ hmodern) entry hentry)
    rw [hrecord.bound hlinked _ _ hbinding]
    rfl
  · intro hmodern name hname hapart
    rw [hentries] at hname
    rw [himports] at hapart
    obtain ⟨cell, howns⟩ := hbound.owns (hrecord.format ▸ hmodern) name hname hapart
    exact ⟨cell, howns.advances hstore hrecord hlinked⟩

namespace Coherent

variable {record record' : Record}

/-- Whatever becomes of the store around it, a record stays coherent. -/
theorem mono (hcoherent : store.Coherent record) (hstore : store.Advances store') :
    store'.Coherent record :=
  { hcoherent with
    linked := fun hlinked => (hcoherent.linked hlinked).advances hstore (.refl record) hlinked }

/-- A linked record stays coherent whatever becomes of it. -/
theorem of_linked (hcoherent : store.Coherent record) (hlinked : record.status.hasLinked = true)
    (hstore : store.Advances store') (hrecord : record.Advances record')
    (hexports : record'.exports? = record.exports?) : store'.Coherent record' := by
  have hbound := hcoherent.linked hlinked
  have hsame := hrecord.analyzed hbound.analyzed
  -- being linked rules out being unlinked, which settles the first two promises
  have hunlinked : ∀ status : Status, status.hasLinked = true → status ≠ .unlinked := by
    rintro _ hnot rfl
    cases hnot
  refine ⟨fun exports hfound => ?_, fun _ hnot => ?_, fun analysis hanalysis => ?_, fun _ => ?_,
    fun _ => hbound.advances hstore hrecord hlinked⟩
  · rw [hexports] at hfound
    exact iff_of_true ((hcoherent.started exports hfound).mpr (hunlinked _ hlinked))
      (hunlinked _ (hrecord.linked hlinked))
  · exact absurd hnot (hunlinked _ (hrecord.linked hlinked))
  · exact hcoherent.sound analysis (hsame ▸ hanalysis)
  · exact hrecord.source (hcoherent.sourced hbound.analyzed)

/-- A record stays coherent however the store is touched. -/
theorem touch (hcoherent : store.Coherent record) (htouch : store.Touch store') {ref : RecordRef}
    (hrecord : store.record? ref = some record) (hrecord' : store'.record? ref = some record')
    (htouched : record.Touched record') : store'.Coherent record' := by
  refine ⟨fun exports' hexports' => ?_, fun hmodern hunlinked => ?_, fun analysis hanalysis => ?_,
    fun hanalyzed => ?_, fun hlinked => ?_⟩
  · have hstarted := htouched.started
    rw [hexports', Option.map_some] at hstarted
    obtain ⟨exports, hexports, hsame⟩ := Option.map_eq_some_iff.mp hstarted.symm
    rw [← hsame, htouched.status]
    exact hcoherent.started exports hexports
  · rw [htouched.environment]
    exact hcoherent.empty (htouched.format ▸ hmodern) (htouched.status ▸ hunlinked)
  · -- an analysis that is new was made from a source and is sound
    rcases htouch.analysis_back hrecord hrecord' hanalysis with hbefore | ⟨-, -, hsound, -⟩
    · exact hcoherent.sound analysis hbefore
    · exact hsound
  · obtain ⟨analysis, hanalysis⟩ := Option.isSome_iff_exists.mp hanalyzed
    refine htouched.source ?_
    rcases htouch.analysis_back hrecord hrecord' hanalysis with hbefore | ⟨-, hsource, -⟩
    · exact hcoherent.sourced (by rw [hbefore]; rfl)
    · exact hsource
  · rw [htouched.status] at hlinked
    exact (hcoherent.linked hlinked).advances htouch.advances (.of_touched htouched) hlinked

/-- A record that linking has taken to its end is coherent. -/
theorem of_linksAll {refs : List RecordRef} (hcoherent : store.Coherent record)
    (hlinks : LinksAll refs store store') {ref : RecordRef} (href : ref ∈ refs)
    (hrecord : store.record? ref = some record) (hmodern : record.format = .modern)
    (hanalyzed : record.analysis?.isSome) (hrecord' : store'.record? ref = some record') :
    store'.Coherent record' := by
  obtain ⟨environment, hfound, himports, howns⟩ := hlinks.linked ref href record hrecord
  obtain rfl := Option.some.inj (hfound.symm.trans hrecord')
  refine ⟨fun exports hexports => ?_, fun _ => nofun, hcoherent.sound, hcoherent.sourced,
    fun _ => ⟨hanalyzed, fun _ => himports, fun _ => howns⟩⟩
  -- only legacy modules have an exports value
  have hlegacy : record.format = .legacy := by
    rw [Record.format, show record.exports? = some exports from hexports]
    rfl
  rw [hmodern] at hlegacy
  cases hlegacy

/-- A record that linking has put back is coherent. -/
theorem of_linksNone {refs : List RecordRef} (hcoherent : store.Coherent record)
    (hlinks : LinksNone refs store store') {ref : RecordRef} (href : ref ∈ refs)
    (hrecord : store.record? ref = some record) (hunlinked : record.status = .unlinked)
    (hrecord' : store'.record? ref = some record') : store'.Coherent record' := by
  obtain rfl := Option.some.inj ((hlinks.undone ref href record hrecord).symm.trans hrecord')
  refine ⟨fun exports hexports => ?_, fun _ _ => rfl, hcoherent.sound, hcoherent.sourced, nofun⟩
  have hstarted := hcoherent.started exports hexports
  rwa [hunlinked] at hstarted

end Coherent

/-- Changing one record that is linked leaves all records coherent. -/
theorem coherent_of_linked {changed : RecordRef}
    (hcoherent : ∀ ref record, store.record? ref = some record → store.Coherent record)
    (hstore : store.Advances store') (hlinked : (store.statuses changed).hasLinked = true)
    (hother : ∀ ref, ref ≠ changed → store'.record? ref = store.record? ref)
    (hexports : ∀ record record', store.record? changed = some record →
      store'.record? changed = some record' → record'.exports? = record.exports?)
    (ref : RecordRef) (record' : Record) (hrecord' : store'.record? ref = some record') :
    store'.Coherent record' := by
  -- the other records are as they were, in a store that has advanced
  by_cases href : ref = changed
  · subst href
    have hunlinked : store.statuses ref ≠ .unlinked := by
      intro hnot
      rw [hnot] at hlinked
      cases hlinked
    obtain ⟨record, hrecord, hstatus⟩ := exists_record_of_statuses hunlinked
    obtain ⟨found, hfound, hadvances⟩ := hstore.record ref record hrecord
    obtain rfl := Option.some.inj (hfound.symm.trans hrecord')
    exact (hcoherent ref record hrecord).of_linked (hstatus ▸ hlinked) hstore hadvances
      (hexports record found hrecord hrecord')
  · rw [hother ref href] at hrecord'
    exact (hcoherent ref record' hrecord').mono hstore

theorem coherent_modify {changed : RecordRef} {f : Record → Record}
    (hcoherent : ∀ ref record, store.record? ref = some record → store.Coherent record)
    (hstore : store.Advances (store.modify changed f))
    (hlinked : (store.statuses changed).hasLinked = true)
    (hexports : ∀ record, (f record).exports? = record.exports?) (ref : RecordRef)
    (record' : Record) (hrecord' : (store.modify changed f).record? ref = some record') :
    (store.modify changed f).Coherent record' := by
  refine coherent_of_linked hcoherent hstore hlinked (fun _ hne => record?_modify_ne hne f)
    (fun record found hrecord hfound => ?_) ref record' hrecord'
  rw [record?_modify_self f hrecord] at hfound
  rw [← Option.some.inj hfound, hexports]

/-- Linking leaves every record coherent. -/
theorem coherent_link {order : List ModuleId} (hnamed : store.Named) (hspans : store.Spans order)
    (hcoherent : ∀ ref record, store.record? ref = some record → store.Coherent record)
    (ref : RecordRef) (record' : Record)
    (hrecord' : (store.link order).2.record? ref = some record') :
    (store.link order).2.Coherent record' := by
  have hnodup := nodup_pendingLinks hnamed hspans.nodup
  have hstore : store.Advances (store.link order).2 := advances_link hnodup
  cases hrecord : store.record? ref with
  | none => simp [(rebinds_link store order).none ref hrecord] at hrecord'
  | some record =>
      by_cases hpending : ref ∈ store.pendingLinks order
      · obtain ⟨id, hid, found, hregistered, hmodern, hunlinked⟩ := mem_pendingLinks.mp hpending
        obtain rfl := Option.some.inj (hregistered.record.symm.trans hrecord)
        -- a listed module that is not settled has been analyzed
        have hanalyzed : found.analysis?.isSome := by
          obtain ⟨ref', record', hregistered', hleads⟩ := hspans.leads id hid
          obtain ⟨-, rfl⟩ := hregistered.unique hregistered'
          rcases hleads with hsettled | ⟨hanalyzed, -⟩
          · rw [hunlinked] at hsettled
            cases hsettled
          · exact hanalyzed
        have hfound := hcoherent ref found hrecord
        rcases link_cases hnodup with ⟨_, -, -, hlinks⟩ | ⟨_, -, -, hlinks⟩
        · exact hfound.of_linksAll hlinks hpending hrecord hmodern hanalyzed hrecord'
        · exact hfound.of_linksNone hlinks hpending hrecord hunlinked hrecord'
      · rw [(rebinds_link store order).other ref hpending] at hrecord'
        exact (hcoherent ref record' hrecord').mono hstore

end Store

/-- A record whose body runs, or for which a required module is awaited, is linked. -/
theorem Stage.Living.hasLinked {stage : Stage} (hliving : stage.Living) {ref : RecordRef}
    (href : ref ∈ stage.running ∨ ref ∈ stage.awaiting) :
    (stage.store.statuses ref).hasLinked = true := by
  rcases href with hrunning | hawaiting
  · rw [hliving.running ref hrunning]
    rfl
  · have hbegun := hliving.awaiting ref hawaiting
    cases hstatus : stage.store.statuses ref <;> simp_all [Status.hasBegun, Status.hasLinked]

namespace Change

variable {stage stage' : Stage} {marks : List Mark}

theorem coherent (hchange : Change stage marks stage') (hliving : stage.Living)
    (hcoherent : ∀ ref record, stage.store.record? ref = some record →
      stage.store.Coherent record) (ref : RecordRef) (record' : Record)
    (hrecord' : stage'.store.record? ref = some record') : stage'.store.Coherent record' := by
  have hstore := hchange.advances hliving
  cases hchange with
  | touch htouch =>
      rcases htouch.record_back hrecord' with ⟨record, hrecord, htouched⟩ | ⟨-, hfresh⟩
      · exact (hcoherent ref record hrecord).touch htouch hrecord hrecord' htouched
      · exact Store.coherent_of_isFresh hfresh
  | declare href hnew howner =>
      refine Store.coherent_of_linked hcoherent hstore (hliving.hasLinked href) (fun _ hne => ?_)
        (fun record record' hrecord hrecord' => ?_) ref record' hrecord'
      · rw [Store.record?_declare, if_neg hne]
      · obtain ⟨environment, hfound⟩ := Store.record?_declare_of_record _ _ hrecord
        rw [← Option.some.inj (hfound.symm.trans hrecord')]
  | link hspans => exact Store.coherent_link hliving.named hspans hcoherent ref record' hrecord'
  | beginModern hrecord hmodern hlinked hsource =>
      refine Store.coherent_modify hcoherent hstore ?_ (fun _ => rfl) ref record' hrecord'
      rw [Store.statuses_of_record hrecord, hlinked]
      rfl
  | beginLegacy hrecord hlegacy hstatus hsettled hanalysis hsource =>
      rw [Store.record?_modify] at hrecord'
      split at hrecord'
      · rename_i href
        subst href
        rw [hrecord] at hrecord'
        obtain rfl := Option.some.inj hrecord'
        have hbefore := hcoherent _ _ hrecord
        refine ⟨fun exports hexports => ?_, fun _ => nofun, hbefore.sound, hbefore.sourced,
          fun _ => ⟨hanalysis, fun hmodern => ?_, fun hmodern => ?_⟩⟩
        · obtain ⟨_, -, rfl⟩ := Option.map_eq_some_iff.mp hexports
          exact iff_of_true rfl nofun
        · rw [Record.format_begin, hlegacy] at hmodern
          cases hmodern
        · rw [Record.format_begin, hlegacy] at hmodern
          cases hmodern
      · exact (hcoherent ref record' hrecord').mono hstore
  | finish =>
      have hevaluating := hliving.running _ List.mem_cons_self
      exact Store.coherent_modify hcoherent hstore (by rw [hevaluating]; rfl) (fun _ => rfl) ref
        record' hrecord'
  | fail error =>
      have hevaluating := hliving.running _ List.mem_cons_self
      exact Store.coherent_modify hcoherent hstore (by rw [hevaluating]; rfl) (fun _ => rfl) ref
        record' hrecord'
  | await | resume | absent | abandon => exact hcoherent ref record' hrecord'
  | reset => exact (hcoherent ref record' hrecord').mono hstore

end Change

/-- No import declaration uses the local name of default exports. -/
def Store.SparesDefault (store : Store) : Prop :=
  ∀ record ∈ store.records, ∀ entry ∈ record.imports, entry.as_ ≠ defaultLocal

theorem Store.SparesDefault.record {store : Store} (hspares : store.SparesDefault)
    {ref : RecordRef} {record : Record} (hrecord : store.record? ref = some record) :
    ∀ entry ∈ record.imports, entry.as_ ≠ defaultLocal :=
  hspares record (Array.mem_of_getElem? hrecord)

/-- Imports do not change once they are known, so every record has those it has later, or none. -/
theorem Store.Advances.imports_back {store store' : Store} (hadvances : store.Advances store') :
    ∀ record ∈ store.records, record.imports = [] ∨
      ∃ record' ∈ store'.records, record'.imports = record.imports := by
  intro record hmem
  obtain ⟨index, hindex⟩ := Array.mem_iff_getElem?.mp hmem
  obtain ⟨record', hrecord', hrecord⟩ := hadvances.record ⟨index⟩ record hindex
  cases hanalysis : record.analysis? with
  | none => exact .inl (by rw [Record.imports, hanalysis]; rfl)
  | some analysis =>
      refine .inr ⟨record', Array.mem_of_getElem? hrecord', ?_⟩
      rw [Record.imports, Record.imports, hanalysis, hrecord.analysis analysis hanalysis]

/-- If no import uses the local name of default exports at the end, none did before. -/
theorem Store.SparesDefault.back {store store' : Store} (hspares : store'.SparesDefault)
    (hadvances : store.Advances store') : store.SparesDefault := by
  intro record hmem entry hentry
  rcases hadvances.imports_back record hmem with hnone | ⟨record', hmem', hsame⟩
  · rw [hnone] at hentry
    cases hentry
  · exact hspares record' hmem' entry (hsame ▸ hentry)

namespace Store.Coherent

variable {store : Store} {record : Record}

theorem source_of_import (hcoherent : store.Coherent record) {entry : ImportEntry}
    (hentry : entry ∈ record.imports) : entry.source ∈ record.requested := by
  cases hanalysis : record.analysis? with
  | none => simp [Record.imports, hanalysis] at hentry
  | some analysis =>
      rw [Record.imports, hanalysis] at hentry
      rw [Record.requested, hanalysis]
      exact (hcoherent.sound analysis hanalysis).imports entry hentry

theorem source_of_export (hcoherent : store.Coherent record) {entry : ExportEntry}
    (hentry : entry ∈ record.exportEntries) {source : ModuleId}
    (hsource : entry.source? = some source) : source ∈ record.requested := by
  cases hanalysis : record.analysis? with
  | none => simp [Record.exportEntries, hanalysis] at hentry
  | some analysis =>
      rw [Record.exportEntries, hanalysis] at hentry
      rw [Record.requested, hanalysis]
      exact (hcoherent.sound analysis hanalysis).exports entry hentry source hsource

/-- If no import uses the local name of default exports, none uses a local name that is exported. -/
theorem apart (hcoherent : store.Coherent record)
    (hspares : ∀ entry ∈ record.imports, entry.as_ ≠ defaultLocal) {name : String}
    (hname : OwnName record.exportEntries name) : ∀ entry ∈ record.imports, entry.as_ ≠ name := by
  intro entry hentry hsame
  have hname' : name ≠ defaultLocal := hsame ▸ hspares entry hentry
  obtain ⟨as_, hown⟩ := hname
  cases hanalysis : record.analysis? with
  | none => simp [Record.imports, hanalysis] at hentry
  | some analysis =>
      rw [Record.exportEntries, hanalysis] at hown
      rw [Record.imports, hanalysis] at hentry
      exact (hcoherent.sound analysis hanalysis).own as_ name hown hname' entry hentry hsame

/-- If no import uses the local name of default exports, a linked record owns every local name it
exports. -/
theorem owns (hcoherent : store.Coherent record)
    (hspares : ∀ entry ∈ record.imports, entry.as_ ≠ defaultLocal)
    (hmodern : record.format = .modern) (hlinked : record.status.hasLinked = true) {name : String}
    (hname : OwnName record.exportEntries name) : store.Owns record name :=
  (hcoherent.linked hlinked).owns hmodern name hname (hcoherent.apart hspares hname)

end Store.Coherent

end Linkage
