import Linkage.Proofs.Runs.Cells
import Linkage.Proofs.Runs.LiveBindings
import Linkage.Proofs.Runs.Settling

/-!
# A body that has failed spoils what its module owns

The error of a failed body is kept twice: the record shows it, and it spoils the slots of the
record.  The two are the same in every state of every run, and once they are there they stay, so
whoever reads such a slot is given this error ever after.

* `Store.HasFailed`, `Chain.hasFailed` : a record that has failed stays so.
* `Store.SlotOf`, `Store.SlotOf.advances` : a slot stays one of its record.
* `Store.Spoils`, `Store.HasFailed.spoils` : all reads of the slots of a record that has failed.
-/

namespace Linkage

/-- The error that a record shows is the one that spoils its slots. -/
def Record.Agrees (record : Record) : Prop := record.poison? = record.error?

namespace Store

/-- The body of a record has failed with this error. -/
def HasFailed (store : Store) (ref : RecordRef) (error : ModuleError) : Prop :=
  ∃ record, store.record? ref = some record ∧ record.status = .errored ∧
    record.error? = some error ∧ record.poison? = some error

/-- The slots of a record: its cells, the exports value of a legacy module and its properties. -/
inductive SlotOf (store : Store) (ref : RecordRef) : Binding → Prop
  | cell {cell : CellRef} {found : Cell} (hfound : store.cell? cell = some found)
      (howner : found.record = ref) : SlotOf store ref (.cell cell)
  | exports (property? : Option String) : SlotOf store ref (.exports ref property?)

/-- Whoever reads a slot of the record is given the error: by the name of an import or of the
module itself, through a namespace, by a binding that was kept, and also after a cell is written. -/
structure Spoils (store : Store) (ref : RecordRef) (error : ModuleError) : Prop where
  slot : ∀ binding requester?, store.SlotOf ref binding →
    store.read binding requester? = (.error error, store)
  written : ∀ cell value requester?, store.SlotOf ref (.cell cell) →
    (store.writeCell cell value).read (.cell cell) requester? =
      (.error error, store.writeCell cell value)
  scope : ∀ reader name binding, store.binding? reader name = some binding →
    store.SlotOf ref binding → store.access (Scope.read reader name) = (.error error, store)
  space : ∀ found name binding, store.isAttached found = true →
    store.resolveExport found.id name = .found binding → store.SlotOf ref binding →
    store.readName found name = (.error error, store)
  live : ∀ kept : LiveBinding, store.SlotOf ref kept.binding →
    store.access kept.read = (.error error, store)

variable {store store' : Store} {ref : RecordRef} {error : ModuleError}

theorem HasFailed.writeCell (hfailed : store.HasFailed ref error) (cell : CellRef) (value : Value) :
    (store.writeCell cell value).HasFailed ref error := hfailed

/-- A slot of a record that has failed cannot be read. -/
theorem HasFailed.read (hfailed : store.HasFailed ref error) {binding : Binding}
    (hslot : store.SlotOf ref binding) (requester? : Option ModuleId) :
    store.read binding requester? = (.error error, store) := by
  obtain ⟨record, hrecord, -, -, hpoison⟩ := hfailed
  cases hslot with
  | cell hfound howner =>
      subst howner
      rw [Store.read, readCell, hfound]
      dsimp only
      rw [hrecord, Option.bind_some, hpoison]
  | exports property? =>
      rw [Store.read, readExports, hrecord]
      dsimp only
      rw [hpoison]

theorem SlotOf.advances {binding : Binding} (hslot : store.SlotOf ref binding)
    (hadvances : store.Advances store') : store'.SlotOf ref binding := by
  cases hslot with
  | cell hfound howner =>
      obtain ⟨value?, hfound'⟩ := hadvances.cell _ _ hfound
      exact .cell hfound' howner
  | exports property? => exact .exports property?

theorem HasFailed.spoils (hfailed : store.HasFailed ref error) : store.Spoils ref error where
  slot _ requester? hslot := hfailed.read hslot requester?
  written cell value requester? hslot := by
    refine (hfailed.writeCell cell value).read ?_ requester?
    cases hslot with
    | @cell _ found hfound howner =>
        have hwritten : (store.writeCell cell value).cell? cell =
            some { found with value? := some value } := by
          rw [cell?_writeCell, if_pos rfl, hfound]
          rfl
        exact .cell hwritten howner
  scope reader name binding hbound hslot := by
    obtain ⟨record, hrecord⟩ : ∃ record, store.record? reader = some record := by
      cases hrecord : store.record? reader with
      | some record => exact ⟨record, rfl⟩
      | none => simp [binding?, hrecord] at hbound
    rw [Scope.access_read reader hrecord hbound, hfailed.read hslot]
  space found name binding hattached hresolved hslot := by
    rw [readName_of_found hattached hresolved, hfailed.read hslot]
  live kept hslot := hfailed.read hslot (some kept.requester)

end Store

namespace Change

variable {stage stage' : Stage} {marks : List Mark}

theorem agrees (hchange : Change stage marks stage') (hliving : stage.Living)
    (htells : ∀ ref record, stage.store.record? ref = some record → record.Tells)
    (hagrees : ∀ ref record, stage.store.record? ref = some record → record.Agrees)
    {ref : RecordRef} {record' : Record} (hrecord' : stage'.store.record? ref = some record') :
    record'.Agrees := by
  cases hchange.error_back hliving hrecord' with
  | fresh _ hfresh =>
      obtain ⟨id, value?, rfl⟩ := hfresh
      rfl
  | kept hrecord herror hpoison =>
      rw [Record.Agrees, herror, hpoison]
      exact hagrees ref _ hrecord
  | @failed record hrecord hevaluating error heq =>
      subst heq
      -- a body that is running has no error yet, so its own is the one that is kept
      have hnone : record.poison? = none := by
        refine (hagrees ref record hrecord).trans (Option.not_isSome_iff_eq_none.mp ?_)
        rw [(htells ref record hrecord).eq, hevaluating]
        exact nofun
      simp [Record.Agrees, Record.fail, hnone]

theorem hasFailed (hchange : Change stage marks stage') (hliving : stage.Living) {ref : RecordRef}
    {error : ModuleError} (hfailed : stage.store.HasFailed ref error) :
    stage'.store.HasFailed ref error := by
  obtain ⟨record, hrecord, herrored, herror, hpoison⟩ := hfailed
  obtain ⟨record', hrecord', -, -⟩ := hchange.keepsRecords ref record hrecord
  refine ⟨record', hrecord', ?_⟩
  cases hchange.error_back hliving hrecord' with
  | fresh hnone => cases hnone.symm.trans hrecord
  | kept hbefore herror' hpoison' hstatus =>
      obtain rfl := Option.some.inj (hbefore.symm.trans hrecord)
      exact ⟨hstatus.mpr herrored, herror'.trans herror, hpoison'.trans hpoison⟩
  | failed hbefore hevaluating =>
      obtain rfl := Option.some.inj (hbefore.symm.trans hrecord)
      cases hevaluating.symm.trans herrored

end Change

namespace Chain

variable {stage stage' : Stage} {marks : List Mark}

theorem agrees (hchain : Chain stage marks stage') (hliving : stage.Living)
    (htells : ∀ ref record, stage.store.record? ref = some record → record.Tells)
    (hagrees : ∀ ref record, stage.store.record? ref = some record → record.Agrees) :
    ∀ ref record, stage'.store.record? ref = some record → record.Agrees := by
  induction hchain with
  | refl => exact hagrees
  | tail hbefore hchange ih =>
      exact fun _ _ hrecord =>
        hchange.agrees (hbefore.living hliving) (hbefore.tells hliving htells) ih hrecord

/-- A record that has failed stays so, with its error. -/
theorem hasFailed (hchain : Chain stage marks stage') (hliving : stage.Living) {ref : RecordRef}
    {error : ModuleError} (hfailed : stage.store.HasFailed ref error) :
    stage'.store.HasFailed ref error := by
  induction hchain with
  | refl => exact hfailed
  | tail hbefore hchange ih => exact hchange.hasFailed (hbefore.living hliving) ih

/-- The body of a record that has failed does not begin again. -/
theorem not_mem_begun_of_hasFailed (hchain : Chain stage marks stage') (hliving : stage.Living)
    {ref : RecordRef} {error : ModuleError} (hfailed : stage.store.HasFailed ref error) :
    ref ∉ begun marks := by
  obtain ⟨record, hrecord, herrored, -⟩ := hfailed
  refine (hchain.orderly hliving).not_mem_begun ?_
  rw [Store.statuses_of_record hrecord, herrored]
  rfl

end Chain

namespace Machine

theorem agrees_perform (place : Place) (config : Config) (acts : List Act) :
    ∀ ref record, ((new place config).perform acts).session.store.record? ref = some record →
      record.Agrees := by
  refine ((new place config).chain_perform acts).agrees (living_new place config)
    (tells_perform place config []) (fun ref record hrecord => ?_)
  cases hrecord

/-- A record that shows an error has failed with it. -/
theorem hasFailed_perform (place : Place) (config : Config) (acts : List Act) {ref : RecordRef}
    {record : Record} {error : ModuleError}
    (hrecord : ((new place config).perform acts).session.store.record? ref = some record)
    (herror : record.error? = some error) :
    ((new place config).perform acts).session.store.HasFailed ref error := by
  refine ⟨record, hrecord, ?_, herror, ?_⟩
  · exact (tells_perform place config acts ref record hrecord).mp (by rw [herror]; rfl)
  · exact (agrees_perform place config acts ref record hrecord).trans herror

theorem rooted_perform (place : Place) (config : Config) (acts : List Act) :
    ((new place config).perform acts).session.store.Rooted := by
  refine ((new place config).chain_perform acts).rooted (living_new place config)
    (fun ref record hrecord => ?_)
  cases hrecord

end Machine

end Linkage
