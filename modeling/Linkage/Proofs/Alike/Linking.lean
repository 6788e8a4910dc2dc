import Linkage.Proofs.Alike.Exports
import Linkage.Proofs.Linking.Failing
import Linkage.Proofs.Linking.Passes
import Linkage.Proofs.Runs.Cells
import Linkage.Proofs.Runs.Coherence

/-!
# Linking in stores that are alike

If all modules are compared, an order is linked in two stores that are alike with the same result,
and leaves them alike.

A failed linking puts every record back and leaves nothing but cells to which no name refers.  The
next cells are numbered after them, and nothing else is different, so linking the same order again
takes the same course and fails with the same error.

* `Store.Alike.pendingLinks`, `Store.Alike.bindImports` : the parts of linking.
* `Store.Alike.link` : linking.
* `Store.withCells` : a store with further cells.
* `Pairing.shifted` : cells that are made later have other numbers.
* `Store.link_again` : a failed linking fails again.
-/

namespace Linkage

variable {pairing : Pairing}

namespace Store.Alike

variable {store store' : Store} {refs refs' : List RecordRef}

/-- What is done to one record after the other leaves stores alike. -/
theorem foldl {f f' : Store → RecordRef → Store} (hrefs : List.Forall₂ pairing.record refs refs')
    (hstep : ∀ {ref ref' : RecordRef} {store store' : Store}, pairing.record ref ref' →
      store.Alike pairing store' → (f store ref).Alike pairing (f' store' ref'))
    (halike : store.Alike pairing store') :
    (refs.foldl f store).Alike pairing (refs'.foldl f' store') := by
  induction hrefs generalizing store store' with
  | nil => exact halike
  | cons href _ ih => exact ih (hstep href halike)

/-- What may fail at one record after the other leaves stores alike. -/
theorem foldlM {α β : Type} {R : α → β → Prop} {items : List α} {items' : List β}
    {f : Store → α → Except ModuleError Store} {f' : Store → β → Except ModuleError Store}
    (hitems : List.Forall₂ R items items')
    (hstep : ∀ {item : α} {item' : β} {store store' : Store}, R item item' →
      store.Alike pairing store' → Matches (Store.Alike pairing) (f store item) (f' store' item'))
    (halike : store.Alike pairing store') :
    Matches (Store.Alike pairing) (items.foldlM f store) (items'.foldlM f' store') := by
  induction hitems generalizing store store' with
  | nil => exact .ok halike
  | cons hitem _ ih =>
      rw [List.foldlM_cons, List.foldlM_cons]
      rcases (hstep hitem halike).elim with
        ⟨error, herror, herror'⟩ | ⟨next, next', hnext, hnext', halike'⟩
      · rw [herror, herror']
        exact .error error
      · rw [hnext, hnext']
        exact ih halike'

theorem beginLink (halike : store.Alike pairing store') {ref ref' : RecordRef}
    (href : pairing.record ref ref') :
    (store.beginLink ref).Alike pairing (store'.beginLink ref') := by
  rcases rel_cases (halike.record href) with
    ⟨hnone, hnone'⟩ | ⟨record, record', hsome, hsome', hrecord⟩
  · unfold Store.beginLink
    rw [hnone, hnone']
    exact halike
  · rw [beginLink_of_record hsome, beginLink_of_record hsome', ← hrecord.exportEntries,
      ← hrecord.id]
    have hbegun : Store.Alike pairing
        (store.modify ref (fun record => { record with status := .linking, environment := {} }))
        (store'.modify ref' (fun record =>
          { record with status := .linking, environment := {} })) :=
      halike.modify href
        (fun _ _ hrecord => { hrecord with status := rfl, environment := Table.alike_empty })
        (fun _ => rfl) (fun _ => rfl)
    generalize store.modify ref _ = begun at hbegun
    generalize store'.modify ref' _ = begun' at hbegun
    -- one entry after the other
    induction record.exportEntries generalizing begun begun' with
    | nil => exact hbegun
    | cons entry rest ih =>
        rw [List.foldl_cons, List.foldl_cons]
        refine ih _ _ ?_
        cases entry with
        | own as_ name =>
            unfold declareEntry
            dsimp only
            have hown : Option.Rel pairing.cell
                ((begun.record? ref).bind (begun.ownCell? · name))
                ((begun'.record? ref').bind (begun'.ownCell? · name)) :=
              rel_bind (hbegun.record href) (fun _ _ hfound => hbegun.ownCell hfound name)
            rcases rel_cases hown with ⟨hfree, hfree'⟩ | ⟨_, _, htaken, htaken', -⟩
            · rw [hfree, hfree']
              exact (hbegun.declare href record.id name).2
            · rw [htaken, htaken']
              exact hbegun
        | indirect | star => exact hbegun

theorem undoLink (halike : store.Alike pairing store') {ref ref' : RecordRef}
    (href : pairing.record ref ref') :
    (store.undoLink ref).Alike pairing (store'.undoLink ref') :=
  halike.modify href
    (fun _ _ hrecord => { hrecord with status := rfl, environment := Table.alike_empty })
    (fun _ => rfl) (fun _ => rfl)

section Covered

variable (hall : ∀ id, pairing.covers id)
include hall

/-- The same records have to be linked. -/
theorem pendingLinks (halike : store.Alike pairing store') (order : List ModuleId) :
    List.Forall₂ pairing.record (store.pendingLinks order) (store'.pendingLinks order) := by
  unfold Store.pendingLinks
  induction order with
  | nil => exact .nil
  | cons id rest ih =>
      rcases halike.registered (hall id) with
        ⟨hnone, hnone', -, -⟩ | ⟨ref, ref', record, record', href, hrecord, hfound, hfound', -⟩
      · rw [List.filterMap_cons_none hnone, List.filterMap_cons_none hnone']
        exact ih
      · rw [List.filterMap_cons_some hfound.lookup, List.filterMap_cons_some hfound'.lookup,
          List.filter_cons, List.filter_cons, hfound.record, hfound'.record]
        simp only [hrecord.format, hrecord.status]
        split
        · exact .cons href ih
        · exact ih

theorem resolveImport (halike : store.Alike pairing store') (source : ModuleId) (name : String) :
    Matches (Binding.Alike pairing) (store.resolveImport source name)
      (store'.resolveImport source name) := by
  have hresolved := halike.resolveExport (hall source) name
  unfold Store.resolveImport
  generalize store.resolveExport source name = resolution at hresolved
  generalize store'.resolveExport source name = resolution' at hresolved
  cases hresolved with
  | found hbinding => exact .ok hbinding
  | missing => exact .error _
  | ambiguous => exact .error _

theorem bindImport (halike : store.Alike pairing store') {ref ref' : RecordRef}
    (href : pairing.record ref ref') (entry : ImportEntry) :
    Matches (Store.Alike pairing) (store.bindImport ref entry) (store'.bindImport ref' entry) := by
  unfold Store.bindImport
  cases entry.imported with
  | star => exact .ok (halike.bind href entry.as_ (.star (hall entry.source)))
  | name name =>
      rcases (halike.resolveImport hall entry.source name).elim with
        ⟨error, herror, herror'⟩ | ⟨_, _, hok, hok', hbinding⟩
      · dsimp only
        rw [herror, herror']
        exact .error error
      · dsimp only
        rw [hok, hok']
        exact .ok (halike.bind href entry.as_ hbinding)

theorem checkExport (halike : store.Alike pairing store') (entry : ExportEntry) :
    store.checkExport entry = store'.checkExport entry := by
  cases entry with
  | own | star => rfl
  | indirect as_ source imported =>
      cases imported with
      | star => rfl
      | name name =>
          unfold Store.checkExport
          rcases (halike.resolveImport hall source name).elim with
            ⟨error, herror, herror'⟩ | ⟨_, _, hok, hok', -⟩
          · dsimp only
            rw [herror, herror']
          · dsimp only
            rw [hok, hok']
            rfl

theorem bindImports (halike : store.Alike pairing store') {ref ref' : RecordRef}
    (href : pairing.record ref ref') :
    Matches (Store.Alike pairing) (store.bindImports ref) (store'.bindImports ref') := by
  unfold Store.bindImports
  rw [rel_map_eq (halike.record href) (fun _ _ hrecord => hrecord.imports),
    rel_map_eq (halike.record href) (fun _ _ hrecord => hrecord.exportEntries)]
  generalize ((store'.record? ref').map (·.imports)).getD [] = entries
  generalize ((store'.record? ref').map (·.exportEntries)).getD [] = reexports
  have hstep : ∀ {entry entry' : ImportEntry} {store store' : Store}, entry = entry' →
      store.Alike pairing store' →
      Matches (Store.Alike pairing) (store.bindImport ref entry) (store'.bindImport ref' entry') := by
    intro entry _ store store' hentry halike
    subst hentry
    exact halike.bindImport hall href entry
  have hsame : List.Forall₂ Eq entries entries := List.forall₂_same.mpr (fun _ _ => rfl)
  have hbound := foldlM hsame hstep halike
  dsimp only
  rcases hbound.elim with ⟨error, herror, herror'⟩ | ⟨bound, bound', hok, hok', halike'⟩
  · rw [herror, herror']
    exact .error error
  · rw [hok, hok']
    have hchecks : reexports.forM bound.checkExport = reexports.forM bound'.checkExport := by
      rw [funext (halike'.checkExport hall)]
    show Matches _ (reexports.forM bound.checkExport >>= fun _ => pure bound)
      (reexports.forM bound'.checkExport >>= fun _ => pure bound')
    rw [hchecks]
    cases reexports.forM bound'.checkExport with
    | error error => exact .error error
    | ok _ => exact .ok halike'

/-- An order is linked with the same result. -/
theorem link (halike : store.Alike pairing store') (order : List ModuleId) :
    (store.link order).1 = (store'.link order).1 ∧
      (store.link order).2.Alike pairing (store'.link order).2 := by
  have hpending := halike.pendingLinks hall order
  have hbegun := foldl hpending (fun href halike => halike.beginLink href) halike
  have hbound := foldlM hpending (fun href halike => halike.bindImports hall href) hbegun
  unfold Store.link
  dsimp only
  rcases hbound.elim with ⟨error, herror, herror'⟩ | ⟨bound, bound', hok, hok', halike'⟩
  · rw [herror, herror']
    exact ⟨rfl, foldl hpending (fun href halike => halike.undoLink href) hbegun⟩
  · rw [hok, hok']
    exact ⟨rfl, foldl hpending (fun href halike => halike.setStatus href .linked) halike'⟩

end Covered

end Store.Alike

/-! ## Linking that has failed fails again -/

/-- Of records, objects and modules, what is paired is also paired by another pairing. -/
structure Pairing.Within (pairing pairing' : Pairing) : Prop where
  record : ∀ ref ref', pairing.record ref ref' → pairing'.record ref ref'
  object : ∀ ref ref', pairing.object ref ref' → pairing'.object ref ref'
  covers : ∀ id, pairing.covers id → pairing'.covers id

theorem Value.Alike.within {pairing pairing' : Pairing} (hwithin : pairing.Within pairing')
    {value value' : Value} (halike : value.Alike pairing value') : value.Alike pairing' value' := by
  cases halike with
  | undefined => exact .undefined
  | null => exact .null
  | boolean value => exact .boolean value
  | number value => exact .number value
  | text value => exact .text value
  | object href => exact .object (hwithin.object _ _ href)
  | space hfound =>
      exact .space ⟨hwithin.record _ _ hfound.record, hfound.id, hfound.requester,
        hwithin.covers _ hfound.covered⟩

/-- The number that a cell has in a store that had more cells when it was made; the first `size`
cells are older than that. -/
def CellRef.shifted (size more : Nat) (ref : CellRef) : CellRef :=
  if ref.index < size then ref else ⟨ref.index + more⟩

theorem CellRef.shifted_inj {size more : Nat} {one other : CellRef} :
    one.shifted size more = other.shifted size more ↔ one = other := by
  constructor
  · intro hsame
    obtain ⟨index⟩ := one
    obtain ⟨index'⟩ := other
    unfold shifted at hsame
    grind
  · rintro rfl
    rfl

/-- Cells that are made later have other numbers; everything else is paired with itself. -/
def Pairing.shifted (size more : Nat) : Pairing where
  record := Eq
  cell ref ref' := ref' = ref.shifted size more
  object := Eq
  covers _ := True
  record_iff := Pairing.same.record_iff
  cell_iff := by
    rintro one _ other _ rfl rfl
    exact CellRef.shifted_inj.symm
  object_iff := Pairing.same.object_iff

theorem Pairing.within_shifted (size more : Nat) : Pairing.same.Within (.shifted size more) :=
  ⟨fun _ _ href => href, fun _ _ href => href, fun _ _ => trivial⟩

namespace Store

/-- A store with further cells. -/
def withCells (store : Store) (cells : Array Cell) : Store :=
  { store with cells := store.cells ++ cells }

variable {store : Store} {cells : Array Cell}

theorem cell?_withCells_of_cell {ref : CellRef} {cell : Cell} (hcell : store.cell? ref = some cell) :
    (store.withCells cells).cell? ref = some cell := by
  unfold cell? at hcell ⊢
  obtain ⟨hlt, -⟩ := Array.getElem?_eq_some_iff.mp hcell
  unfold withCells
  rw [Array.getElem?_append_left hlt, hcell]

theorem advances_withCells (cells : Array Cell) : store.Advances (store.withCells cells) where
  record _ record hrecord := ⟨record, hrecord, .refl record⟩
  cell _ cell hcell := ⟨cell.value?, cell?_withCells_of_cell hcell⟩

theorem Upright.withCells (hupright : store.Upright) (cells : Array Cell) :
    (store.withCells cells).Upright :=
  ⟨hupright.named, hupright.current.mono rfl rfl (fun _ _ hlookup => hlookup)⟩

/-- Further cells to which no name refers make no difference. -/
theorem alike_withCells (hupright : store.Upright) (hrooted : store.Rooted) (cells : Array Cell) :
    store.Alike (.shifted store.cells.size cells.size) (store.withCells cells) where
  heap := {
    object := by
      rintro ref _ rfl
      exact rel_refl (Table.alike_refl (fun value =>
        value.alike_same.within (Pairing.within_shifted _ _))) _
    fresh := fun _ => rfl }
  record := by
    rintro ref _ rfl
    show Option.Rel _ (store.record? ref) (store.record? ref)
    cases hrecord : store.record? ref with
    | none => exact .none
    | some record =>
        have hsame := record.alike_same
        refine .some { hsame with exports := ?_, environment := fun name => ?_ }
        · exact rel_refl (fun exports =>
            ⟨exports.value.alike_same.within (Pairing.within_shifted _ _), rfl⟩) _
        · cases hbound : record.environment.find? name with
          | none => exact .none
          | some binding =>
              refine .some ?_
              cases binding with
              | star id => exact .star trivial
              | exports ref property? => exact .exports rfl property?
              | cell cell =>
                  -- the cell is there, so it is one of the old ones
                  obtain ⟨found, hfound, -⟩ := hrooted ref record hrecord name cell hbound
                  obtain ⟨hlt, -⟩ := Array.getElem?_eq_some_iff.mp hfound
                  exact .cell (if_pos hlt).symm
  cell := by
    rintro ref _ rfl
    unfold CellRef.shifted
    have hsame (cell : Cell) : cell.Alike (.shifted store.cells.size cells.size) cell :=
      ⟨rfl, rfl, rfl,
        rel_refl (fun value => value.alike_same.within (Pairing.within_shifted _ _)) _⟩
    split
    · rename_i hlt
      have hkept : (store.withCells cells).cell? ref = store.cell? ref :=
        Array.getElem?_append_left hlt
      rw [hkept]
      exact rel_refl hsame _
    · rename_i hlt
      have hnone : store.cell? ref = none := Array.getElem?_eq_none (Nat.le_of_not_lt hlt)
      have hnone' : (store.withCells cells).cell? ⟨ref.index + cells.size⟩ = none := by
        refine Array.getElem?_eq_none ?_
        rw [withCells, Array.size_append]
        exact Nat.add_le_add_right (Nat.le_of_not_lt hlt) _
      rw [hnone, hnone']
      exact .none
  lookup _ := rel_refl (fun _ => rfl) _
  freshRecord _ := rfl
  freshCell more := by
    show _ = CellRef.shifted _ _ _
    rw [CellRef.shifted, if_neg (by simp), withCells, Array.size_append, Nat.add_right_comm]
  upright := hupright
  upright' := hupright.withCells cells

/-- The cells of a store with which another begins. -/
theorem exists_withCells {store' : Store} (hsame : store' = { store with cells := store'.cells })
    (hkept : ∀ ref cell, store.cell? ref = some cell → store'.cell? ref = some cell) :
    ∃ cells, store' = store.withCells cells := by
  have hfront : store.cells.toList <+: store'.cells.toList := by
    rw [List.prefix_iff_getElem?]
    intro index hindex
    have hcell : store.cell? ⟨index⟩ = some store.cells.toList[index] := by
      simp [cell?]
    simpa [cell?] using hkept _ _ hcell
  obtain ⟨rest, hrest⟩ := hfront
  refine ⟨rest.toArray, hsame.trans ?_⟩
  unfold withCells
  congr 1
  rw [← Array.toList_inj, ← hrest, Array.toList_append]

variable {order : List ModuleId} {error : ModuleError}

/-- A failed linking leaves nothing behind but cells. -/
theorem link_eq_of_error (hnamed : store.Named) (hnodup : order.Nodup)
    (hcoherent : ∀ ref record, store.record? ref = some record → store.Coherent record)
    (hfailed : (store.link order).1 = .error error) :
    ∃ cells, store.link order = (.error error, store.withCells cells) := by
  rcases link_cases (nodup_pendingLinks hnamed hnodup) with
    ⟨_, -, hok, -⟩ | ⟨_, -, -, hlinks⟩
  · rw [hfailed] at hok
    cases hok
  · have hsame := hlinks.eq (fun ref href => by
      obtain ⟨id, -, record, hregistered, hmodern, hunlinked⟩ := mem_pendingLinks.mp href
      exact ⟨record, hregistered.record, hunlinked,
        (hcoherent ref record hregistered.record).empty hmodern hunlinked⟩)
    obtain ⟨cells, hcells⟩ := exists_withCells hsame hlinks.rebinds.cell
    exact ⟨cells, Prod.ext hfailed hcells⟩

/-- **Linking that has failed fails again**, with the same error, and again leaves nothing behind but
cells. -/
theorem link_again (hupright : store.Upright) (hrooted : store.Rooted) (hnodup : order.Nodup)
    (hcoherent : ∀ ref record, store.record? ref = some record → store.Coherent record)
    (hfailed : (store.link order).1 = .error error) :
    ∃ cells, store.link order = (.error error, store.withCells cells) ∧
      ∃ more, (store.withCells cells).link order =
        (.error error, (store.withCells cells).withCells more) := by
  obtain ⟨cells, hlinked⟩ := link_eq_of_error hupright.named hnodup hcoherent hfailed
  refine ⟨cells, hlinked, ?_⟩
  obtain ⟨hresult, -⟩ :=
    (alike_withCells hupright hrooted cells).link (fun _ => trivial) order
  refine link_eq_of_error (hupright.withCells cells).named hnodup (fun ref record hrecord => ?_)
    (hresult.symm.trans hfailed)
  exact (hcoherent ref record hrecord).mono (advances_withCells cells)

end Store

end Linkage
