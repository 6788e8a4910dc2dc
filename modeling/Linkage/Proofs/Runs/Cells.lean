import Linkage.Proofs.Exports.Search
import Linkage.Proofs.Runs.LifeCycle

/-!
# Records own the cells they have declared

A module owns a slot if a local name of it refers to a cell that carries its identifier.  Such a
cell has been declared by the very record, also after modules were forgotten and a module of the
same identifier was made anew, so it is spoilt when the body of that record fails.

* `Store.Rooted` : the invariant.
* `Store.rooted_link` : linking keeps it.
* `Chain.rooted` : every run keeps it.
-/

namespace Linkage

namespace Store

/-- Every cell a record refers to is there, and one that carries its identifier is its own. -/
def Roots (store : Store) (ref : RecordRef) (record : Record) : Prop :=
  ∀ name cell, record.environment.find? name = some (.cell cell) →
    ∃ found, store.cell? cell = some found ∧ (found.owner = record.id → found.record = ref)

/-- All records own what they have declared. -/
def Rooted (store : Store) : Prop :=
  ∀ ref record, store.record? ref = some record → store.Roots ref record

variable {store store' : Store} {ref : RecordRef}

/-- A cell that a rooted record owns was declared by it. -/
theorem Rooted.record_of_owns (hrooted : store.Rooted) {record : Record}
    (hrecord : store.record? ref = some record) {name : String} {cell : CellRef}
    (howns : store.OwnsCell record name cell) :
    ∃ found, store.cell? cell = some found ∧ found.record = ref := by
  obtain ⟨hbound, found, hfound, howner⟩ := howns
  obtain ⟨found', hfound', hown⟩ := hrooted ref record hrecord name cell hbound
  obtain rfl := Option.some.inj (hfound'.symm.trans hfound)
  exact ⟨found', hfound, hown howner⟩

/-- Records that refer to what they referred to, or to nothing, stay rooted. -/
theorem Rooted.mono (hrooted : store.Rooted)
    (hcell : ∀ cell found, store.cell? cell = some found →
      ∃ value?, store'.cell? cell = some { found with value? })
    (hrecord : ∀ ref record', store'.record? ref = some record' → record'.environment = {} ∨
      ∃ record, store.record? ref = some record ∧ record'.id = record.id ∧
        record'.environment = record.environment) : store'.Rooted := by
  intro ref record' hrecord' name cell hbound
  rcases hrecord ref record' hrecord' with hnone | ⟨record, hbefore, hid, hsame⟩
  · rw [hnone] at hbound
    cases hbound
  · rw [hsame] at hbound
    obtain ⟨found, hfound, hown⟩ := hrooted ref record hbefore name cell hbound
    obtain ⟨value?, hfound'⟩ := hcell cell found hfound
    exact ⟨_, hfound', fun howner => hown (howner.trans hid)⟩

/-- Changing a record without binding anything. -/
theorem Rooted.modify (hrooted : store.Rooted) {changed : RecordRef} {f : Record → Record}
    (hchange : ∀ record, (f record).environment = {} ∨
      (f record).id = record.id ∧ (f record).environment = record.environment) :
    (store.modify changed f).Rooted := by
  refine hrooted.mono (fun cell found hfound => ⟨found.value?, hfound⟩)
    (fun ref record' hrecord' => ?_)
  rw [record?_modify] at hrecord'
  split at hrecord'
  · obtain ⟨record, hrecord, rfl⟩ := Option.map_eq_some_iff.mp hrecord'
    exact (hchange record).imp_right (fun ⟨hid, hsame⟩ => ⟨record, hrecord, hid, hsame⟩)
  · exact .inr ⟨record', hrecord', rfl, rfl⟩

/-- A cell that is declared belongs to the record that declares it. -/
theorem Rooted.declare (hrooted : store.Rooted) (changed : RecordRef) (owner : ModuleId)
    (name : String) : (store.declare changed owner name).2.Rooted := by
  intro ref record' hrecord' other cell hbound
  have hkept : ∀ record, store.record? ref = some record → record'.id = record.id →
      record.environment.find? other = some (.cell cell) →
      ∃ found, (store.declare changed owner name).2.cell? cell = some found ∧
        (found.owner = record'.id → found.record = ref) := by
    intro record hrecord hid hbefore
    obtain ⟨found, hfound, hown⟩ := hrooted ref record hrecord other cell hbefore
    exact ⟨found, cell?_declare_of_cell hfound, fun howner => hown (howner.trans hid)⟩
  rw [record?_declare] at hrecord'
  split at hrecord'
  · rename_i hsame
    obtain ⟨record, hrecord, rfl⟩ := Option.map_eq_some_iff.mp hrecord'
    rw [Table.find?_insert] at hbound
    split at hbound
    · obtain rfl := Binding.cell.inj (Option.some.inj hbound)
      refine ⟨⟨changed, owner, name, none⟩, ?_, fun _ => hsame.symm⟩
      rw [cell?_declare, if_pos rfl]
    · exact hkept record hrecord rfl hbound
  · exact hkept record' hrecord' rfl hbound

theorem Rooted.beginLink (hrooted : store.Rooted) (ref : RecordRef) :
    (store.beginLink ref).Rooted := by
  cases hrecord : store.record? ref with
  | none =>
      unfold Store.beginLink
      rwa [hrecord]
  | some record =>
      rw [beginLink_of_record hrecord]
      have hbegun : (store.modify ref (fun record =>
          { record with status := .linking, environment := {} })).Rooted :=
        hrooted.modify (fun _ => .inl rfl)
      generalize store.modify ref _ = begun at hbegun
      -- entry by entry a cell is declared, or there is one already
      induction record.exportEntries generalizing begun with
      | nil => exact hbegun
      | cons entry rest ih =>
          refine ih _ ?_
          cases entry with
          | own as_ name =>
              unfold declareEntry
              dsimp only
              split
              · exact hbegun
              · exact hbegun.declare ref record.id name
          | indirect | star => exact hbegun

/-- Registered modules have the records they are registered with, whatever is being linked. -/
theorem Named.rebinds {refs : List RecordRef} (hnamed : store.Named)
    (hrebinds : Rebinds refs store store') : store'.Named := by
  intro id ref hlookup
  rw [hrebinds.lookup] at hlookup
  obtain ⟨record, hrecord, hid⟩ := hnamed id ref hlookup
  obtain ⟨status, environment, hrecord'⟩ := hrebinds.record ref record hrecord
  exact ⟨_, hrecord', hid⟩

/-- Binding an import leads to a cell of another module, or to one of the same record. -/
theorem Rooted.binds {refs : List RecordRef} (hrooted : store.Rooted) (hnamed : store.Named)
    (hregistered : ∀ ref ∈ refs, ∃ id, store.lookup? id = some ref)
    (hbinds : store.Binds refs store') : store'.Rooted := by
  obtain ⟨href, hrecord, hentry, hsupplies⟩ := hbinds
  rename_i bound importer entry binding
  intro ref record' hrecord' name cell hfound
  have hkept : ∀ record, store.record? ref = some record → record'.id = record.id →
      record.environment.find? name = some (.cell cell) →
      ∃ found, (store.bind bound entry.as_ binding).cell? cell = some found ∧
        (found.owner = record'.id → found.record = ref) := by
    intro record hbefore hid hsame
    obtain ⟨found, hcell, hown⟩ := hrooted ref record hbefore name cell hsame
    exact ⟨found, hcell, fun howner => hown (howner.trans hid)⟩
  rw [Store.bind, record?_modify] at hrecord'
  split at hrecord'
  · rename_i hsame
    subst hsame
    obtain ⟨record, hbefore, rfl⟩ := Option.map_eq_some_iff.mp hrecord'
    rw [Table.find?_insert] at hfound
    split at hfound
    · obtain rfl := Option.some.inj hfound
      -- the cell is one that the module at the end of the request owns
      unfold Supplies at hsupplies
      split at hsupplies
      · cases hsupplies
      · obtain ⟨⟨last, -, hend⟩, -⟩ := resolveExport_eq_found_iff.mp hsupplies
        cases hend with
        | @own id _ _ _ owner ownerRecord _ hfound' _ _ howns =>
            obtain ⟨found, hcell, hdeclared⟩ :=
              hrooted.record_of_owns hfound'.record howns
            refine ⟨found, hcell, fun howner => ?_⟩
            -- if it carries the identifier of the importer, the two are one module
            obtain ⟨-, found', hcell', howner'⟩ := howns
            obtain rfl := Option.some.inj (hcell'.symm.trans hcell)
            obtain ⟨own, hlookup⟩ := hregistered ref href
            obtain ⟨self, hself, hown⟩ := hnamed own ref hlookup
            obtain rfl := Option.some.inj (hself.symm.trans hbefore)
            obtain ⟨other, hother, hotherId⟩ := hnamed id owner hfound'.lookup
            obtain rfl := Option.some.inj (hother.symm.trans hfound'.record)
            have hid : own = id := by rw [← hown, ← hotherId, ← howner', howner]
            subst hid
            rw [hdeclared]
            exact Option.some.inj (hfound'.lookup.symm.trans hlookup)
    · exact hkept record hbefore rfl hfound
  · exact hkept record' hrecord' rfl hfound

/-- Linking declares cells for the records that export them, and binds imports to them. -/
theorem rooted_link {order : List ModuleId} (hnamed : store.Named) (hrooted : store.Rooted) :
    (store.link order).2.Rooted := by
  have hfoldl : ∀ {f : Store → RecordRef → Store} (refs : List RecordRef) (start : Store),
      (∀ store ref, store.Rooted → (f store ref).Rooted) → start.Rooted →
      (refs.foldl f start).Rooted := by
    intro f refs start hstep hstart
    induction refs generalizing start with
    | nil => exact hstart
    | cons ref rest ih => exact ih _ (hstep start ref hstart)
  have hbegun : ((store.pendingLinks order).foldl Store.beginLink store).Rooted :=
    hfoldl _ store (fun _ ref hstore => hstore.beginLink ref) hrooted
  have hrebinds : Rebinds (store.pendingLinks order) store
      ((store.pendingLinks order).foldl Store.beginLink store) := .of_foldl rebinds_beginLink _ store
  unfold link
  dsimp only
  cases hfold : (store.pendingLinks order).foldlM bindImports
      ((store.pendingLinks order).foldl Store.beginLink store) with
  | error error => exact hfoldl _ _ (fun _ _ hstore => hstore.modify (fun _ => .inl rfl)) hbegun
  | ok bound =>
      refine hfoldl _ _ (fun _ _ hstore => hstore.modify (fun _ => .inr ⟨rfl, rfl⟩)) ?_
      obtain ⟨hbinds, -⟩ := bindImports_foldlM_eq_ok hfold
      clear hfold
      induction hbinds with
      | refl => exact hbegun
      | tail hbefore hbind ih =>
          have hrebinds' := hrebinds.trans (Binds.rebinds_all hbefore)
          refine ih.binds (hnamed.rebinds hrebinds') (fun ref href => ?_) hbind
          obtain ⟨id, -, record, hregistered, -⟩ := mem_pendingLinks.mp href
          exact ⟨id, (hrebinds'.lookup id).trans hregistered.lookup⟩

end Store

theorem Change.rooted {stage stage' : Stage} {marks : List Mark}
    (hchange : Change stage marks stage') (hliving : stage.Living)
    (hrooted : stage.store.Rooted) : stage'.store.Rooted := by
  cases hchange with
  | touch htouch =>
      refine hrooted.mono (fun cell found hfound => htouch.cell hfound)
        (fun ref record' hrecord' => ?_)
      rcases htouch.record_back hrecord' with ⟨record, hrecord, htouched⟩ | ⟨-, id, value?, rfl⟩
      · exact .inr ⟨record, hrecord, htouched.id, htouched.environment⟩
      · exact .inl rfl
  | declare href hnew howner => exact hrooted.declare _ _ _
  | link hspans => exact Store.rooted_link hliving.named hrooted
  | beginModern | beginLegacy | finish | fail => exact hrooted.modify (fun _ => .inr ⟨rfl, rfl⟩)
  | await | resume | absent | abandon | reset => exact hrooted

theorem Chain.rooted {stage stage' : Stage} {marks : List Mark}
    (hchain : Chain stage marks stage') (hliving : stage.Living)
    (hrooted : stage.store.Rooted) : stage'.store.Rooted := by
  induction hchain with
  | refl => exact hrooted
  | tail hbefore hchange ih => exact hchange.rooted (hbefore.living hliving) ih

end Linkage
