import Linkage.Proofs.Runs.LifeCycle

/-!
# What stays

Along a run a record keeps its module, its format, its source and its analysis; once it has been
linked it stays so, and every name then bound in it goes on to refer to the same slot.  Cells keep
their owners.  Modules keep their records until all modules are forgotten.

* `Store.Advances` : what a store may become.
* `Chain.advances`, `Chain.lookup` : every run.
-/

namespace Linkage

/-- Whether a module has been linked; for a legacy module, whether its body has begun. -/
def Status.hasLinked : Status → Bool
  | unlinked | linking => false
  | _ => true

theorem Status.hasLinked_of_isSettled {status : Status} (hsettled : status.isSettled = true) :
    status.hasLinked = true := by
  cases status <;> simp_all [isSettled, hasLinked]

theorem Status.hasLinked_of_hasBegun {status : Status} (hbegun : status.hasBegun = true) :
    status.hasLinked = true := by
  cases status <;> simp_all [hasBegun, hasLinked]

theorem Status.hasBegun_of_isSettled {status : Status} (hsettled : status.isSettled = true) :
    status.hasBegun = true := by
  cases status <;> simp_all [isSettled, hasBegun]

/-- What a record may become. -/
structure Record.Advances (record record' : Record) : Prop where
  id : record'.id = record.id
  format : record'.format = record.format
  source : record.source?.isSome → record'.source?.isSome
  analysis : ∀ analysis, record.analysis? = some analysis → record'.analysis? = some analysis
  linked : record.status.hasLinked = true → record'.status.hasLinked = true
  bound : record.status.hasLinked = true → ∀ name binding,
    record.environment.find? name = some binding → record'.environment.find? name = some binding

namespace Record.Advances

variable {record record' record'' : Record}

theorem refl (record : Record) : record.Advances record :=
  ⟨rfl, rfl, fun h => h, fun _ h => h, fun h => h, fun _ _ _ h => h⟩

theorem trans (hfirst : record.Advances record') (hsecond : record'.Advances record'') :
    record.Advances record'' where
  id := hsecond.id.trans hfirst.id
  format := hsecond.format.trans hfirst.format
  source hsource := hsecond.source (hfirst.source hsource)
  analysis analysis hanalysis := hsecond.analysis analysis (hfirst.analysis analysis hanalysis)
  linked hlinked := hsecond.linked (hfirst.linked hlinked)
  bound hlinked name binding hbound :=
    hsecond.bound (hfirst.linked hlinked) name binding (hfirst.bound hlinked name binding hbound)

theorem of_touched (htouched : record.Touched record') : record.Advances record' where
  id := htouched.id
  format := htouched.format
  source := htouched.source
  analysis := htouched.analysis
  linked hlinked := by rwa [htouched.status]
  bound _ name binding hbound := by rwa [htouched.environment]

/-- An analysis once made is the analysis for good. -/
theorem analyzed (hadvances : record.Advances record') (hanalyzed : record.analysis?.isSome) :
    record'.analysis? = record.analysis? := by
  obtain ⟨analysis, hanalysis⟩ := Option.isSome_iff_exists.mp hanalyzed
  rw [hanalysis, hadvances.analysis analysis hanalysis]

end Record.Advances

namespace Store

/-- What a store may become. -/
structure Advances (store store' : Store) : Prop where
  record : ∀ ref record, store.record? ref = some record →
    ∃ record', store'.record? ref = some record' ∧ record.Advances record'
  cell : ∀ ref cell, store.cell? ref = some cell →
    ∃ value?, store'.cell? ref = some { cell with value? }

variable {store store' store'' : Store}

theorem Advances.refl (store : Store) : store.Advances store :=
  ⟨fun _ record hrecord => ⟨record, hrecord, .refl record⟩,
    fun _ cell hcell => ⟨cell.value?, hcell⟩⟩

theorem Advances.trans (hfirst : store.Advances store') (hsecond : store'.Advances store'') :
    store.Advances store'' where
  record ref record hrecord := by
    obtain ⟨record', hrecord', hadvances⟩ := hfirst.record ref record hrecord
    obtain ⟨record'', hrecord'', hadvances'⟩ := hsecond.record ref record' hrecord'
    exact ⟨record'', hrecord'', hadvances.trans hadvances'⟩
  cell ref cell hcell := by
    obtain ⟨value?, hcell'⟩ := hfirst.cell ref cell hcell
    obtain ⟨value?', hcell''⟩ := hsecond.cell ref _ hcell'
    exact ⟨value?', hcell''⟩

theorem Touch.advances (htouch : store.Touch store') : store.Advances store' where
  record ref record hrecord := by
    obtain ⟨record', hrecord', htouched⟩ := htouch.record hrecord
    exact ⟨record', hrecord', .of_touched htouched⟩
  cell ref cell hcell := htouch.cell hcell

/-- Changing one record. -/
theorem advances_modify {ref : RecordRef} {f : Record → Record}
    (hadvances : ∀ record, store.record? ref = some record → record.Advances (f record)) :
    store.Advances (store.modify ref f) where
  record other record hrecord := by
    by_cases href : other = ref
    · subst href
      exact ⟨f record, record?_modify_self f hrecord, hadvances record hrecord⟩
    · exact ⟨record, by rw [record?_modify_ne href, hrecord], .refl record⟩
  cell other cell hcell := ⟨cell.value?, hcell⟩

/-- A fresh name hides no other. -/
theorem advances_declare {ref : RecordRef} (owner : ModuleId) {name : String}
    (hnew : store.binding? ref name = none) : store.Advances (store.declare ref owner name).2 where
  record other record hrecord := by
    rw [record?_declare, hrecord]
    by_cases href : other = ref
    · subst href
      rw [if_pos rfl]
      refine ⟨_, rfl, rfl, rfl, fun h => h, fun _ h => h, fun h => h, ?_⟩
      intro _ bound binding hbound
      -- the name declared was bound to nothing, so it is not one that is bound
      have hne : bound ≠ name := by
        rintro rfl
        rw [binding?, hrecord, Option.bind_some, hbound] at hnew
        cases hnew
      rwa [Table.find?_insert_ne _ hne]
    · rw [if_neg href]
      exact ⟨record, rfl, .refl record⟩
  cell other cell hcell := ⟨cell.value?, cell?_declare_of_cell hcell⟩

/-- Linking takes only modules that have not been linked. -/
theorem advances_link {order : List ModuleId} (hnodup : (store.pendingLinks order).Nodup) :
    store.Advances (store.link order).2 where
  record ref record hrecord := by
    rcases link_record hnodup hrecord with ⟨-, hkept⟩ | ⟨hpending, environment, hended⟩
    · exact ⟨record, hkept, .refl record⟩
    · obtain ⟨_, -, found, hregistered, -, hunlinked⟩ := mem_pendingLinks.mp hpending
      obtain rfl := Option.some.inj (hregistered.record.symm.trans hrecord)
      -- what is promised of linked modules is not asked of one that is taken
      have hnot : found.status.hasLinked ≠ true := by
        rw [hunlinked]
        decide
      exact ⟨_, hended, rfl, rfl, fun h => h, fun _ h => h, fun h => absurd h hnot,
        fun h => absurd h hnot⟩
  cell ref cell hcell := ⟨cell.value?, (rebinds_link store order).cell ref cell hcell⟩

end Store

namespace Change

variable {stage stage' : Stage} {marks : List Mark}

theorem advances (hchange : Change stage marks stage') (hliving : stage.Living) :
    stage.store.Advances stage'.store := by
  cases hchange with
  | touch htouch => exact htouch.advances
  | declare href hnew howner => exact Store.advances_declare _ hnew
  | link hspans =>
      exact Store.advances_link (Store.nodup_pendingLinks hliving.named hspans.nodup)
  | beginModern | finish | fail =>
      exact Store.advances_modify (fun _ _ =>
        ⟨rfl, rfl, fun h => h, fun _ h => h, fun _ => rfl, fun _ _ _ h => h⟩)
  | beginLegacy =>
      exact Store.advances_modify (fun record _ =>
        ⟨rfl, record.format_begin, fun h => h, fun _ h => h, fun _ => rfl, fun _ _ _ h => h⟩)
  | reset =>
      exact ⟨fun _ record hrecord => ⟨record, hrecord, .refl record⟩,
        fun _ cell hcell => ⟨cell.value?, hcell⟩⟩
  | await | resume | absent | abandon => exact .refl _

/-- Modules keep their records, or all are forgotten. -/
theorem lookup_or_reset (hchange : Change stage marks stage') :
    (∀ id ref, stage.store.lookup? id = some ref → stage'.store.lookup? id = some ref) ∨
      marks = [.reset] ∧ ∀ id, stage'.store.lookup? id = none := by
  cases hchange with
  | touch htouch => exact .inl (fun _ _ => htouch.lookup)
  | link hspans => exact .inl (fun _ _ hlookup => by rwa [(Store.rebinds_link _ _).lookup])
  | reset => exact .inr ⟨rfl, fun _ => rfl⟩
  | _ => exact .inl (fun _ _ hlookup => hlookup)

/-- Only forgetting all modules takes a module its record. -/
theorem lookup (hchange : Change stage marks stage') (hreset : .reset ∉ marks) {id : ModuleId}
    {ref : RecordRef} (hlookup : stage.store.lookup? id = some ref) :
    stage'.store.lookup? id = some ref := by
  rcases hchange.lookup_or_reset with hkept | ⟨rfl, -⟩
  · exact hkept id ref hlookup
  · exact absurd List.mem_cons_self hreset

end Change

namespace Chain

variable {stage stage' : Stage} {marks : List Mark}

theorem advances (hchain : Chain stage marks stage') (hliving : stage.Living) :
    stage.store.Advances stage'.store := by
  induction hchain with
  | refl => exact .refl _
  | tail hbefore hchange ih => exact ih.trans (hchange.advances (hbefore.living hliving))

theorem lookup (hchain : Chain stage marks stage') (hreset : .reset ∉ marks) {id : ModuleId}
    {ref : RecordRef} (hlookup : stage.store.lookup? id = some ref) :
    stage'.store.lookup? id = some ref := by
  induction hchain with
  | refl => exact hlookup
  | tail _ hchange ih =>
      rw [List.mem_append, not_or] at hreset
      exact hchange.lookup hreset.2 (ih hreset.1)

end Chain

end Linkage
