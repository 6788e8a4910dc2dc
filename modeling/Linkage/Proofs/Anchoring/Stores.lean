import Linkage.Proofs.Alike.Exports
import Linkage.Proofs.Linking.Passes
import Linkage.Proofs.Store.Grounded

/-!
# Nothing dangles in a store

Whatever a store refers to has been made: records, cells and objects are numbered as they are made,
and every number that stands in a slot, an environment, an exports value or a property of an object
has been given.  Nothing that is made is ever taken away, so what refers to it may be kept.

* `Extent` : how much has been made.
* `Value.Anchored`, `Binding.Anchored` and their like : a thing refers to what has been made.
* `Store.Anchored` : so does all that a store holds, and at least so much has been made.
* `Store.Anchored.getOrCreate`, `Store.Anchored.link` and their like : what is done to a store.
-/

namespace Linkage

/-- How many records, cells and objects have been made. -/
structure Extent where
  /-- The records. -/
  records : Nat
  /-- The cells. -/
  cells : Nat
  /-- The objects. -/
  objects : Nat

/-- At least as much has been made. -/
structure Extent.Le (extent extent' : Extent) : Prop where
  records : extent.records ≤ extent'.records
  cells : extent.cells ≤ extent'.cells
  objects : extent.objects ≤ extent'.objects

/-- How much a store has made. -/
def Store.extent (store : Store) : Extent :=
  ⟨store.records.size, store.cells.size, store.heap.size⟩

theorem Extent.Le.refl (extent : Extent) : extent.Le extent :=
  ⟨Nat.le_refl _, Nat.le_refl _, Nat.le_refl _⟩

theorem Extent.Le.trans {extent extent' extent'' : Extent} (hfirst : extent.Le extent')
    (hsecond : extent'.Le extent'') : extent.Le extent'' where
  records := Nat.le_trans hfirst.records hsecond.records
  cells := Nat.le_trans hfirst.cells hsecond.cells
  objects := Nat.le_trans hfirst.objects hsecond.objects

/-! ## Things -/

section Definitions

variable (extent : Extent)

/-- A record has been made. -/
def RecordRef.Anchored (ref : RecordRef) : Prop := ref.index < extent.records

/-- A value refers to what has been made. -/
abbrev Value.Anchored (value : Value) : Prop :=
  value.Grounded extent.objects (fun found => found.record.Anchored extent)

/-- A name refers to what has been made. -/
def Binding.Anchored : Binding → Prop
  | .cell ref => ref.index < extent.cells
  | .star _ => True
  | .exports ref _ => ref.Anchored extent

/-- A cell belongs to a record that has been made, and so does its value. -/
structure Cell.Anchored (cell : Cell) : Prop where
  record : cell.record.Anchored extent
  value : ∀ value, cell.value? = some value → value.Anchored extent

/-- What a record refers to has been made. -/
structure Record.Anchored (record : Record) : Prop where
  exports : ∀ exports, record.exports? = some exports → exports.value.Anchored extent
  environment : ∀ name binding, record.environment.find? name = some binding →
    binding.Anchored extent

end Definitions

section Mono

variable {extent extent' : Extent} (hle : extent.Le extent')
include hle

theorem RecordRef.Anchored.mono {ref : RecordRef} (href : ref.Anchored extent) :
    ref.Anchored extent' :=
  Nat.lt_of_lt_of_le href hle.records

theorem Value.Anchored.mono {value : Value} (hvalue : value.Anchored extent) :
    value.Anchored extent' :=
  Value.Grounded.mono hvalue hle.objects (fun _ href => href.mono hle)

theorem Binding.Anchored.mono {binding : Binding} (hbinding : binding.Anchored extent) :
    binding.Anchored extent' := by
  cases binding with
  | cell ref => exact Nat.lt_of_lt_of_le hbinding hle.cells
  | star id => trivial
  | exports ref property? => exact RecordRef.Anchored.mono hle hbinding

theorem Cell.Anchored.mono {cell : Cell} (hcell : cell.Anchored extent) :
    cell.Anchored extent' where
  record := hcell.record.mono hle
  value value hvalue := (hcell.value value hvalue).mono hle

theorem Record.Anchored.mono {record : Record} (hrecord : record.Anchored extent) :
    record.Anchored extent' where
  exports exports hexports := (hrecord.exports exports hexports).mono hle
  environment name binding hbinding := (hrecord.environment name binding hbinding).mono hle

end Mono

/-! ## Stores -/

namespace Store

/-- All that a store refers to has been made, and at least so much has. -/
structure Anchored (least : Extent) (store : Store) : Prop where
  upright : store.Upright
  grown : least.Le store.extent
  heap : store.heap.Grounded (fun found => found.record.Anchored store.extent)
  cell : ∀ ref cell, store.cell? ref = some cell → cell.Anchored store.extent
  record : ∀ ref record, store.record? ref = some record → record.Anchored store.extent

variable {store store' : Store} {least : Extent} {ref : RecordRef}

/-- A record that is there has been made. -/
theorem anchored_of_record {record : Record} (hrecord : store.record? ref = some record) :
    ref.Anchored store.extent :=
  (Array.getElem?_eq_some_iff.mp hrecord).1

theorem record_of_anchored (href : ref.Anchored store.extent) :
    ∃ record, store.record? ref = some record :=
  ⟨_, Array.getElem?_eq_getElem href⟩

theorem extent_modify (store : Store) (ref : RecordRef) (f : Record → Record) :
    (store.modify ref f).extent = store.extent := by
  unfold extent modify
  rw [Array.size_modify]

theorem anchored_empty : Store.empty.Anchored ⟨0, 0, 0⟩ where
  upright := ⟨fun _ _ hlookup => (by cases hlookup), rfl, fun _ hmem => (by cases hmem)⟩
  grown := .refl _
  heap _ _ hobject := by cases hobject
  cell _ _ hcell := by cases hcell
  record _ _ hrecord := by cases hrecord

namespace Anchored

/-- Less may be asked for. -/
theorem weaken {lower : Extent} (hanchored : store.Anchored least) (hle : lower.Le least) :
    store.Anchored lower :=
  { hanchored with grown := hle.trans hanchored.grown }

variable (hanchored : store.Anchored least)
include hanchored

/-- All that has been made is there. -/
theorem self : store.Anchored store.extent := { hanchored with grown := .refl _ }

/-- What is there now was there before, or it refers to what has been made now. -/
theorem step (hupright : store'.Upright) (hle : store.extent.Le store'.extent)
    (hheap : store'.heap = store.heap ∨
      store'.heap.Grounded (fun found => found.record.Anchored store'.extent))
    (hcell : ∀ ref cell, store'.cell? ref = some cell →
      store.cell? ref = some cell ∨ cell.Anchored store'.extent)
    (hrecord : ∀ ref record, store'.record? ref = some record →
      store.record? ref = some record ∨ record.Anchored store'.extent) :
    store'.Anchored least where
  upright := hupright
  grown := hanchored.grown.trans hle
  heap := by
    rcases hheap with hsame | hheap
    · intro index properties hobject
      rw [hsame] at hobject ⊢
      exact (hanchored.heap index properties hobject).mono (Nat.le_refl _)
        (fun _ href => href.mono hle)
    · exact hheap
  cell ref cell hfound := (hcell ref cell hfound).elim
    (fun hbefore => (hanchored.cell ref cell hbefore).mono hle) id
  record ref record hfound := (hrecord ref record hfound).elim
    (fun hbefore => (hanchored.record ref record hbefore).mono hle) id

theorem lookup {id : ModuleId} (hlookup : store.lookup? id = some ref) :
    ref.Anchored store.extent := by
  obtain ⟨record, hrecord, -⟩ := hanchored.upright.named id ref hlookup
  exact anchored_of_record hrecord

theorem binding {name : String} {binding : Binding} (hbound : store.binding? ref name = some binding) :
    binding.Anchored store.extent := by
  obtain ⟨record, hrecord, hfound⟩ := Option.bind_eq_some_iff.mp hbound
  exact (hanchored.record ref record hrecord).environment name binding hfound

/-! ### Changing one thing -/

theorem modify (ref : RecordRef) {f : Record → Record}
    (hid : ∀ record, (f record).id = record.id)
    (hkept : ∀ record : Record, record.Anchored store.extent → (f record).Anchored store.extent) :
    (store.modify ref f).Anchored least := by
  have hextent := store.extent_modify ref f
  refine hanchored.step (hanchored.upright.modify ref hid) (hextent ▸ .refl _) (.inl rfl)
    (fun _ _ hcell => .inl hcell) (fun other record hrecord => ?_)
  rw [record?_modify] at hrecord
  split at hrecord
  · obtain ⟨before, hbefore, rfl⟩ := Option.map_eq_some_iff.mp hrecord
    rw [hextent]
    exact .inr (hkept before (hanchored.record other before hbefore))
  · exact .inl hrecord

/-- What a record refers to stays the same. -/
theorem modify_of_same (ref : RecordRef) {f : Record → Record}
    (hid : ∀ record, (f record).id = record.id)
    (hexports : ∀ record : Record, (f record).exports?.map (·.value) = record.exports?.map (·.value))
    (henvironment : ∀ record : Record, (f record).environment = record.environment ∨
      (f record).environment = {}) : (store.modify ref f).Anchored least := by
  refine hanchored.modify ref hid (fun record hrecord => ⟨fun exports hfound => ?_,
    fun name binding hbound => ?_⟩)
  · have hvalue := hexports record
    rw [hfound, Option.map_some] at hvalue
    obtain ⟨before, hbefore, hsame⟩ := Option.map_eq_some_iff.mp hvalue.symm
    exact hsame ▸ hrecord.exports before hbefore
  · rcases henvironment record with hsame | hempty
    · exact hrecord.environment name binding (hsame ▸ hbound)
    · rw [hempty] at hbound
      cases hbound

theorem setStatus (ref : RecordRef) (status : Status) :
    (store.setStatus ref status).Anchored least :=
  hanchored.modify_of_same ref (fun _ => rfl) (fun _ => rfl) (fun _ => .inl rfl)

theorem bind (ref : RecordRef) (name : String) {binding : Binding}
    (hbinding : binding.Anchored store.extent) : (store.bind ref name binding).Anchored least := by
  refine hanchored.modify ref (fun _ => rfl) (fun record hrecord => ⟨hrecord.exports, ?_⟩)
  intro other found hfound
  rw [Table.find?_insert] at hfound
  split at hfound
  · exact Option.some.inj hfound ▸ hbinding
  · exact hrecord.environment other found hfound

theorem withHeap {heap : Heap}
    (hheap : heap.Grounded (fun found => found.record.Anchored store.extent))
    (hsize : store.heap.size ≤ heap.size) : Anchored least { store with heap } :=
  hanchored.step (hanchored.upright.touch (.heap heap)) ⟨Nat.le_refl _, Nat.le_refl _, hsize⟩
    (.inr hheap) (fun _ _ hcell => .inl hcell) (fun _ _ hrecord => .inl hrecord)

/-- An object gets a property. -/
theorem set (object : ObjectRef) (key : String) {value : Value}
    (hvalue : value.Anchored store.extent) :
    Anchored least { store with heap := store.heap.set object key value } :=
  hanchored.withHeap (hanchored.heap.set object key hvalue)
    (Nat.le_of_eq (store.heap.size_set object key value).symm)

theorem writeCell (cell : CellRef) {value : Value} (hvalue : value.Anchored store.extent) :
    (store.writeCell cell value).Anchored least := by
  have hextent : (store.writeCell cell value).extent = store.extent := by
    unfold extent Store.writeCell modifyCell
    rw [Array.size_modify]
  refine hanchored.step (hanchored.upright.touch (.write cell value)) (hextent ▸ .refl _) (.inl rfl)
    (fun other found hfound => ?_) (fun _ _ hrecord => .inl hrecord)
  rw [cell?_writeCell] at hfound
  split at hfound
  · obtain ⟨before, hbefore, rfl⟩ := Option.map_eq_some_iff.mp hfound
    rw [hextent]
    refine .inr ⟨(hanchored.cell other before hbefore).record, fun other hother => ?_⟩
    exact Option.some.inj hother ▸ hvalue
  · exact .inl hfound

/-! ### Making something -/

theorem declare (href : ref.Anchored store.extent) (owner : ModuleId) (name : String) :
    (store.declare ref owner name).2.Anchored least ∧
      (store.declare ref owner name).1.index < (store.declare ref owner name).2.extent.cells := by
  have hcells : (store.declare ref owner name).2.extent.cells = store.cells.size + 1 :=
    Array.size_push _
  have hle : store.extent.Le (store.declare ref owner name).2.extent := by
    refine ⟨?_, ?_, Nat.le_refl _⟩
    · exact Nat.le_of_eq Array.size_modify.symm
    · rw [hcells]
      exact Nat.le_succ _
  have hfresh : store.cells.size < (store.declare ref owner name).2.extent.cells := by omega
  refine ⟨hanchored.step (hanchored.upright.declare ref owner name) hle (.inl rfl)
    (fun cell found hfound => ?_) (fun other record hrecord => ?_), hfresh⟩
  · rw [cell?_declare] at hfound
    split at hfound
    · obtain rfl := Option.some.inj hfound
      exact .inr ⟨href.mono hle, nofun⟩
    · exact .inl hfound
  · rw [record?_declare] at hrecord
    split at hrecord
    · obtain ⟨before, hbefore, rfl⟩ := Option.map_eq_some_iff.mp hrecord
      have hkept := (hanchored.record other before hbefore).mono hle
      refine .inr ⟨hkept.exports, fun key binding hbound => ?_⟩
      rw [Table.find?_insert] at hbound
      split at hbound
      · exact Option.some.inj hbound ▸ hfresh
      · exact hkept.environment key binding hbound
    · exact .inl hrecord

theorem register {record : Record} (hupright : (store.register record).2.Upright)
    (hrecord : record.Anchored store.extent) : (store.register record).2.Anchored least := by
  have hle : store.extent.Le (store.register record).2.extent := by
    refine ⟨?_, Nat.le_refl _, Nat.le_refl _⟩
    show _ ≤ (store.records.push record).size
    rw [Array.size_push]
    exact Nat.le_succ _
  refine hanchored.step hupright hle (.inl rfl) (fun _ _ hcell => .inl hcell)
    (fun other found hfound => ?_)
  rw [record?_register] at hfound
  split at hfound
  · exact .inr (Option.some.inj hfound ▸ hrecord.mono hle)
  · exact .inl hfound

theorem getOrCreate (id : ModuleId) (format : Format) :
    (store.getOrCreate id format).2.Anchored least := by
  have hupright := hanchored.upright.touch (.register id format)
  unfold Store.getOrCreate at hupright ⊢
  cases hlookup : store.lookup? id with
  | some ref => exact hanchored
  | none =>
      rw [hlookup] at hupright
      cases format with
      | modern => exact hanchored.register hupright ⟨nofun, nofun⟩
      | legacy =>
          have hextends : store.heap.Extends (fun found => found.record.Anchored store.extent)
              (store.heap.alloc {}).2 := store.heap.extends_alloc .empty
          have hmade := hanchored.withHeap (hextends.grounded hanchored.heap) hextends.size
          refine hmade.register hupright ⟨fun exports hexports => ?_, nofun⟩
          obtain rfl := Option.some.inj hexports
          exact Nat.lt_of_lt_of_eq (Nat.lt_succ_self _) (Heap.size_alloc _ _).symm

theorem clear : store.clear.Anchored least :=
  hanchored.step hanchored.upright.clear (.refl _) (.inl rfl) (fun _ _ hcell => .inl hcell)
    (fun _ _ hrecord => .inl hrecord)

/-! ### Reading -/

omit hanchored in
theorem extent_of_cached {next : Store} (hcached : store.Cached next) : next.extent = store.extent := by
  unfold extent
  rw [hcached.records, hcached.cells, hcached.heap]

theorem cached {next : Store} (hcached : store.Cached next) : next.Anchored least := by
  refine hanchored.step (hcached.upright hanchored.upright)
    (extent_of_cached hcached ▸ .refl _) (.inl hcached.heap)
    (fun ref cell hcell => .inl (hcached.cell?_eq ref ▸ hcell))
    (fun ref record hrecord => .inl (hcached.record?_eq ref ▸ hrecord))

/-- A namespace that is asked for shows a record that has been made. -/
theorem namespace_ {id : ModuleId} {requester? : Option ModuleId} {found : Namespace}
    (hfound : (store.namespace_ id requester?).1 = .ok found) :
    found.record.Anchored store.extent := by
  rcases store.namespace_cases id requester? with
    ⟨entry, hmem, -, -, heq⟩ | ⟨ref, record, hregistered, heq⟩ | ⟨-, heq⟩
  · rw [heq] at hfound
    obtain rfl := Except.ok.inj hfound
    exact hanchored.lookup (hanchored.upright.current.cached entry hmem).2.2
  · rw [heq] at hfound
    obtain rfl := Except.ok.inj hfound
    exact hanchored.lookup hregistered.lookup
  · rw [heq] at hfound
    cases hfound

theorem readCell {cell : CellRef} {value : Value} (hread : store.readCell cell = .ok value) :
    value.Anchored store.extent := by
  unfold Store.readCell at hread
  cases hcell : store.cell? cell with
  | none =>
      rw [hcell] at hread
      exact Except.ok.inj hread ▸ trivial
  | some found =>
      rw [hcell] at hread
      dsimp only at hread
      split at hread
      · cases hread
      · split at hread
        · rename_i kept hkept
          exact Except.ok.inj hread ▸ (hanchored.cell cell found hcell).value kept hkept
        · cases hread

theorem readExports {property? : Option String} {value : Value}
    (hread : store.readExports ref property? = .ok value) : value.Anchored store.extent := by
  unfold Store.readExports at hread
  cases hrecord : store.record? ref with
  | none =>
      rw [hrecord] at hread
      exact Except.ok.inj hread ▸ trivial
  | some record =>
      rw [hrecord] at hread
      dsimp only at hread
      split at hread
      · cases hread
      · exact Except.ok.inj hread ▸ trivial
      · rename_i exports _ hexports
        split at hread
        · cases hread
        · split at hread
          · exact Except.ok.inj hread ▸ (hanchored.record ref record hrecord).exports exports hexports
          · exact Except.ok.inj hread ▸ hanchored.heap.read _ _

theorem read {binding : Binding} {requester? : Option ModuleId} {value : Value}
    (hread : (store.read binding requester?).1 = .ok value) : value.Anchored store.extent := by
  cases binding with
  | cell cell => exact hanchored.readCell hread
  | exports ref property? => exact hanchored.readExports hread
  | star id =>
      change (store.namespace_ id requester?).1.map Value.space = .ok value at hread
      cases hfound : (store.namespace_ id requester?).1 with
      | error error =>
          rw [hfound] at hread
          cases hread
      | ok found =>
          rw [hfound] at hread
          exact Except.ok.inj hread ▸ hanchored.namespace_ hfound

theorem readName {found : Namespace} {name : String} {value : Value}
    (hread : (store.readName found name).1 = .ok value) : value.Anchored store.extent := by
  unfold Store.readName at hread
  split at hread
  · cases hread
  · split at hread
    · exact hanchored.read hread
    · exact Except.ok.inj hread ▸ trivial
    · cases hread

/-! ### Linking -/

/-- What a request gives by itself has been made. -/
theorem exportEnd {request : Request} {binding : Binding} (hend : store.ExportEnd request binding) :
    binding.Anchored store.extent := by
  cases hend with
  | star => trivial
  | own hregistered _ _ hcell =>
      exact (hanchored.record _ _ hregistered.record).environment _ _ hcell.1
  | exports hregistered => exact hanchored.lookup hregistered.lookup
  | property hregistered => exact hanchored.lookup hregistered.lookup

/-- What is bound to an import has been made. -/
theorem supplies {entry : ImportEntry} {binding : Binding} (hsupplies : store.Supplies entry binding) :
    binding.Anchored store.extent := by
  unfold Supplies at hsupplies
  split at hsupplies
  · rw [hsupplies]
    trivial
  · obtain ⟨_, -, hend⟩ := (resolveExport_eq_found_iff.mp hsupplies).1
    exact hanchored.exportEnd hend

theorem beginLink (ref : RecordRef) : (store.beginLink ref).Anchored least := by
  cases hrecord : store.record? ref with
  | none =>
      unfold Store.beginLink
      rw [hrecord]
      exact hanchored
  | some record =>
      rw [beginLink_of_record hrecord]
      have hbegun : (store.modify ref (fun record =>
          { record with status := .linking, environment := {} })).Anchored least :=
        hanchored.modify_of_same ref (fun _ => rfl) (fun _ => rfl) (fun _ => .inr rfl)
      have href : ref.Anchored (store.modify ref (fun record =>
          { record with status := .linking, environment := {} })).extent := by
        rw [extent_modify]
        exact anchored_of_record hrecord
      -- the record stays there while its names are declared
      refine (List.foldlRecOn (motive := fun begun : Store =>
        begun.Anchored least ∧ ref.Anchored begun.extent) record.exportEntries _ ⟨hbegun, href⟩
        (fun begun hkept entry _ => ?_)).1
      unfold declareEntry
      split
      · split
        · exact hkept
        · obtain ⟨hdeclared, -⟩ := hkept.1.self.declare hkept.2 record.id _
          exact ⟨(hkept.1.declare hkept.2 record.id _).1, hkept.2.mono hdeclared.grown⟩
      · exact hkept

theorem link (order : List ModuleId) : (store.link order).2.Anchored least := by
  have hbegun : ((store.pendingLinks order).foldl Store.beginLink store).Anchored least :=
    List.foldlRecOn (motive := fun begun : Store => begun.Anchored least) _ _ hanchored
      (fun _ hkept ref _ => hkept.beginLink ref)
  unfold Store.link
  dsimp only
  cases hbound : (store.pendingLinks order).foldlM bindImports
      ((store.pendingLinks order).foldl Store.beginLink store) with
  | error error =>
      exact List.foldlRecOn (motive := fun undone : Store => undone.Anchored least) _ _ hbegun
        (fun _ hkept ref _ => hkept.modify_of_same ref (fun _ => rfl) (fun _ => rfl)
          (fun _ => .inr rfl))
  | ok bound =>
      have hsupplied : bound.Anchored least := by
        obtain ⟨hbinds, -⟩ := bindImports_foldlM_eq_ok hbound
        clear hbound
        induction hbinds with
        | refl => exact hbegun
        | tail _ hbinds ih =>
            obtain ⟨-, -, -, hsupplies⟩ := hbinds
            exact ih.bind _ _ (ih.supplies hsupplies)
      exact List.foldlRecOn (motive := fun linked : Store => linked.Anchored least) _ _ hsupplied
        (fun _ hkept ref _ => hkept.setStatus ref .linked)

end Anchored

end Store

end Linkage
