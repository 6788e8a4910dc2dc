import Linkage.Proofs.Engine.Enriching
import Linkage.Proofs.Runs.Bodies
import Linkage.Proofs.Runs.Denying

/-!
# What is settled is left alone

Once a module has been evaluated or has failed, its record and its slots stay as they are, and so do
the objects that no other module may still change: a body changes no object that was there before it,
but the one that is its own exports value.

* `Store.Free` : an object that no module will change.
* `Store.LeavesSettled` : what is left alone from one store to a later one.
* `Learns.leavesSettled`, `leavesSettled_link`, `Cached.leavesSettled`, `Ran.leavesSettled` : to learn
  something, to link, to cache a namespace, and to run a body.
-/

namespace Linkage

/-- Objects that are there are the same if their properties are. -/
theorem Heap.getElem?_eq_of_properties {heap heap' : Heap} {ref : ObjectRef}
    (hindex : ref.index < heap.size) (hindex' : ref.index < heap'.size)
    (hsame : heap'.properties ref = heap.properties ref) :
    heap'.objects[ref.index]? = heap.objects[ref.index]? := by
  unfold Heap.size at hindex hindex'
  unfold Heap.properties at hsame
  rw [Array.getElem?_eq_getElem hindex, Array.getElem?_eq_getElem hindex'] at hsame ⊢
  exact congrArg some hsame

namespace Store

/-- An object that is not the exports value of a module that has yet to settle. -/
def Free (store : Store) (object : ObjectRef) : Prop :=
  ∀ ref record, store.record? ref = some record → record.status.isSettled = false →
    store.exposed? ref ≠ some object

/-- Modules that have settled are left alone, and so are the objects that none other may change. -/
structure LeavesSettled (store next : Store) : Prop where
  lookup : ∀ id ref, store.lookup? id = some ref → next.lookup? id = some ref
  record : ∀ ref record, store.record? ref = some record → record.status.isSettled = true →
    next.record? ref = some record
  cell : ∀ ref cell, store.cell? ref = some cell → ∃ value?,
    next.cell? ref = some { cell with value? } ∧
      (store.HasSettled cell.owner → value? = cell.value?)
  size : store.heap.size ≤ next.heap.size
  object : ∀ object : ObjectRef, object.index < store.heap.size → store.Free object →
    next.heap.objects[object.index]? = store.heap.objects[object.index]?
  free : ∀ object : ObjectRef, object.index < store.heap.size → store.Free object →
    next.Free object

variable {store next last : Store} {id : ModuleId} {ref : RecordRef} {record : Record}
  {order : List ModuleId} {statements : List Statement}

theorem exposed?_of_record (hrecord : store.record? ref = some record) :
    store.exposed? ref = record.exports?.bind (·.value.toObject?) := by
  unfold exposed?
  rw [hrecord, Option.bind_some]

/-- Modules whose exports value is one there was had it before. -/
theorem free_of_back (hback : ∀ ref record' object, next.record? ref = some record' →
      record'.status.isSettled = false → next.exposed? ref = some object →
      store.heap.size ≤ object.index ∨ ∃ record, store.record? ref = some record ∧
        record.status.isSettled = false ∧ store.exposed? ref = some object)
    (object : ObjectRef) (hindex : object.index < store.heap.size) (hfree : store.Free object) :
    next.Free object := by
  intro ref record' hrecord' hunsettled hexposed
  rcases hback ref record' object hrecord' hunsettled hexposed with
    hnew | ⟨record, hrecord, hbefore, hheld⟩
  · omega
  · exact hfree ref record hrecord hbefore hheld

namespace LeavesSettled

theorem refl (store : Store) : store.LeavesSettled store where
  lookup _ _ hlookup := hlookup
  record _ _ hrecord _ := hrecord
  cell _ cell hcell := ⟨cell.value?, hcell, fun _ => rfl⟩
  size := Nat.le_refl _
  object _ _ _ := rfl
  free _ _ hfree := hfree

theorem registered (hleaves : store.LeavesSettled next)
    (hregistered : store.Registered id ref record) (hsettled : record.status.isSettled = true) :
    next.Registered id ref record :=
  ⟨hleaves.lookup id ref hregistered.lookup, hleaves.record ref record hregistered.record hsettled⟩

theorem hasSettled (hleaves : store.LeavesSettled next) (hsettled : store.HasSettled id) :
    next.HasSettled id := by
  obtain ⟨ref, record, hregistered, hstatus⟩ := hsettled
  exact ⟨ref, record, hleaves.registered hregistered hstatus, hstatus⟩

/-- A slot of a module that has settled. -/
theorem cell_of_hasSettled (hleaves : store.LeavesSettled next) {cell : CellRef} {found : Cell}
    (hfound : store.cell? cell = some found) (hsettled : store.HasSettled found.owner) :
    next.cell? cell = some found := by
  obtain ⟨value?, hfound', hvalue⟩ := hleaves.cell cell found hfound
  rw [hfound', hvalue hsettled]

theorem trans (hnext : store.LeavesSettled next) (hlast : next.LeavesSettled last) :
    store.LeavesSettled last where
  lookup id ref hlookup := hlast.lookup id ref (hnext.lookup id ref hlookup)
  record ref record hrecord hsettled :=
    hlast.record ref record (hnext.record ref record hrecord hsettled) hsettled
  cell ref cell hcell := by
    obtain ⟨value?, hcell', hvalue⟩ := hnext.cell ref cell hcell
    obtain ⟨value?', hcell'', hvalue'⟩ := hlast.cell ref _ hcell'
    exact ⟨value?', hcell'', fun hsettled =>
      (hvalue' (hnext.hasSettled hsettled)).trans (hvalue hsettled)⟩
  size := Nat.le_trans hnext.size hlast.size
  object object hindex hfree :=
    (hlast.object object (Nat.lt_of_lt_of_le hindex hnext.size)
      (hnext.free object hindex hfree)).trans (hnext.object object hindex hfree)
  free object hindex hfree :=
    hlast.free object (Nat.lt_of_lt_of_le hindex hnext.size) (hnext.free object hindex hfree)

end LeavesSettled

/-! ## What happens to a store -/

/-- A record was there before, or it is the one that is made; that of a legacy module gets an object
of its own. -/
theorem Learn.made (hlearn : store.Learn next) {record' : Record}
    (hrecord' : next.record? ref = some record') :
    (∃ record, store.record? ref = some record ∧ record.Informed record') ∨
      ref.index = store.records.size ∧ ∃ id, record' = .modern id ∧ next.heap = store.heap ∨
        record' = .legacy id (.object ⟨store.heap.size⟩) ∧ next.heap = (store.heap.alloc {}).2 := by
  rcases hlearn.back hrecord' with hkept | ⟨hnone, -⟩
  · exact .inl hkept
  · refine .inr ?_
    cases hlearn with
    | source | analysis => simp [record?_modify, hnone] at hrecord'
    | register id format =>
        unfold getOrCreate at hrecord' ⊢
        split at hrecord'
        · cases hnone.symm.trans hrecord'
        · split at hrecord' <;> rw [record?_register] at hrecord' <;> split at hrecord'
          · exact ⟨‹_›, id, .inl ⟨(Option.some.inj hrecord').symm, rfl⟩⟩
          · cases hnone.symm.trans hrecord'
          · exact ⟨‹_›, id, .inr ⟨(Option.some.inj hrecord').symm, rfl⟩⟩
          · cases hnone.symm.trans hrecord'

/-- A module that is registered anew gets an object that was not there. -/
theorem Learn.exposed_back (hlearn : store.Learn next) {record' : Record} {object : ObjectRef}
    (hrecord' : next.record? ref = some record') (hexposed : next.exposed? ref = some object) :
    store.heap.size ≤ object.index ∨ ∃ record, store.record? ref = some record ∧
      record.status = record'.status ∧ store.exposed? ref = some object := by
  rw [exposed?_of_record hrecord'] at hexposed
  rcases hlearn.made hrecord' with
    ⟨record, hrecord, hinformed⟩ | ⟨-, id, ⟨rfl, -⟩ | ⟨rfl, -⟩⟩
  · refine .inr ⟨record, hrecord, hinformed.status.symm, ?_⟩
    rw [exposed?_of_record hrecord, ← hinformed.exports, hexposed]
  · cases hexposed
  · obtain rfl := Option.some.inj hexposed
    exact .inl (Nat.le_refl _)

theorem Learns.exposed_back (hlearns : store.Learns next) {record' : Record} {object : ObjectRef}
    (hrecord' : next.record? ref = some record') (hexposed : next.exposed? ref = some object) :
    store.heap.size ≤ object.index ∨ ∃ record, store.record? ref = some record ∧
      record.status = record'.status ∧ store.exposed? ref = some object := by
  induction hlearns generalizing record' with
  | refl => exact .inr ⟨record', hrecord', rfl, hexposed⟩
  | tail hbefore hlearn ih =>
      rcases hlearn.exposed_back hrecord' hexposed with hnew | ⟨record, hrecord, hstatus, hheld⟩
      · exact .inl (Nat.le_trans (Learns.enriches hbefore).size hnew)
      · refine (ih hrecord hheld).imp_right ?_
        rintro ⟨before, hbefore, hsame, hheld'⟩
        exact ⟨before, hbefore, hsame.trans hstatus, hheld'⟩

/-- To learn something of modules. -/
theorem Learns.leavesSettled (hlearns : store.Learns next) (hclosed : store.Closed) :
    store.LeavesSettled next := by
  have henriches := Learns.enriches hlearns
  refine ⟨henriches.lookup, fun ref record hrecord hsettled => ?_, fun cell found hfound => ?_,
    henriches.size, fun object hindex _ => henriches.object object.index hindex, free_of_back ?_⟩
  · -- of a module that has settled all is known
    have hcoherent := hclosed.coherent ref record hrecord
    have hanalyzed := (hcoherent.linked (Status.hasLinked_of_isSettled hsettled)).analyzed
    obtain ⟨record', hrecord', hinformed⟩ := henriches.record ref record hrecord
    rw [hrecord', hinformed.eq_self (hcoherent.sourced hanalyzed) hanalyzed]
  · unfold cell? at hfound ⊢
    rw [henriches.cells]
    exact ⟨found.value?, hfound, fun _ => rfl⟩
  · intro ref record' object hrecord' hunsettled hexposed
    refine (Learns.exposed_back hlearns hrecord' hexposed).imp_right ?_
    rintro ⟨record, hrecord, hstatus, hheld⟩
    exact ⟨record, hrecord, hstatus ▸ hunsettled, hheld⟩

/-- To link modules. -/
theorem leavesSettled_link (store : Store) (order : List ModuleId) :
    store.LeavesSettled (store.link order).2 := by
  have hrebinds := store.rebinds_link order
  have hkept : ∀ ref record, store.record? ref = some record → record.status.isSettled = true →
      (store.link order).2.record? ref = some record := by
    intro ref record hrecord hsettled
    rw [hrebinds.other ref, hrecord]
    -- only modules that are not linked are taken
    intro hpending
    obtain ⟨_, -, found, hfound, -, hunlinked⟩ := mem_pendingLinks.mp hpending
    obtain rfl := Option.some.inj (hfound.record.symm.trans hrecord)
    rw [hunlinked] at hsettled
    cases hsettled
  have hheap : (store.link order).2.heap = store.heap := by rw [hrebinds.frame]
  refine ⟨fun id ref hlookup => (hrebinds.lookup id).trans hlookup, hkept,
    fun cell found hfound => ⟨found.value?, hrebinds.cell cell found hfound, fun _ => rfl⟩,
    Nat.le_of_eq (congrArg Heap.size hheap.symm), fun object _ _ => by rw [hheap],
    free_of_back ?_⟩
  intro ref record' object hrecord' hunsettled hexposed
  cases hrecord : store.record? ref with
  | none => cases (hrebinds.none ref hrecord).symm.trans hrecord'
  | some record =>
      refine .inr ⟨record, rfl, ?_, ?_⟩
      · by_contra hsettled
        rw [Bool.not_eq_false] at hsettled
        obtain rfl := Option.some.inj ((hkept ref record hrecord hsettled).symm.trans hrecord')
        cases hsettled.symm.trans hunsettled
      · obtain ⟨_, _, hfound⟩ := hrebinds.record ref record hrecord
        rw [exposed?_of_record hfound] at hexposed
        rwa [exposed?_of_record hrecord]

/-- To cache a namespace. -/
theorem Cached.leavesSettled (hcached : store.Cached next) : store.LeavesSettled next where
  lookup id ref hlookup := (hcached.lookup?_eq id).trans hlookup
  record ref record hrecord _ := (hcached.record?_eq ref).trans hrecord
  cell ref cell hcell := ⟨cell.value?, (hcached.cell?_eq ref).trans hcell, fun _ => rfl⟩
  size := Nat.le_of_eq (congrArg Heap.size hcached.heap.symm)
  object object _ _ := by rw [hcached.heap]
  free := by
    refine free_of_back (fun ref record' object hrecord' hunsettled hexposed => .inr ?_)
    have hrecord := (hcached.record?_eq ref).symm.trans hrecord'
    rw [exposed?_of_record hrecord', ← exposed?_of_record hrecord] at hexposed
    exact ⟨record', hrecord, hunsettled, hexposed⟩

/-- To run the body of a module that had not settled. -/
theorem Ran.leavesSettled (hran : store.Ran ref record next)
    (hregistered : store.Registered id ref record) (hid : record.id = id)
    (hunsettled : record.status.isSettled = false) : store.LeavesSettled next := by
  have hother : ∀ other found, store.record? other = some found →
      found.status.isSettled = true → other ≠ ref := by
    rintro other found hfound hsettled rfl
    obtain rfl := Option.some.inj (hfound.symm.trans hregistered.record)
    cases hsettled.symm.trans hunsettled
  have hlookup : ∀ other, next.lookup? other = store.lookup? other := by
    intro other
    unfold lookup?
    rw [hran.registry]
  refine ⟨fun other ref hfound => (hlookup other).trans hfound,
    fun other found hfound hsettled =>
      (hran.other other (hother other found hfound hsettled)).trans hfound,
    fun cell found hfound => ?_, hran.outgrows.size, fun object hindex hfree => ?_,
    free_of_back ?_⟩
  · obtain ⟨value?, hfound', hvalue⟩ := hran.cell cell found hfound
    refine ⟨value?, hfound', fun ⟨other, settled, hsettled, hstatus⟩ => hvalue ?_⟩
    intro howner
    rw [howner, hid] at hsettled
    obtain ⟨rfl, -⟩ := hregistered.unique hsettled
    exact hother _ settled hsettled.record hstatus rfl
  · have hsame := hran.outgrows.object object hindex
      (hfree ref record hregistered.record hunsettled)
    exact Heap.getElem?_eq_of_properties hindex (Nat.lt_of_lt_of_le hindex hran.outgrows.size) hsame
  · intro other record' object hrecord' hstatus hexposed
    have hne : other ≠ ref := by
      rintro rfl
      obtain ⟨ended, hended, -, -, -, -, hsettled, -⟩ := hran.own
      obtain rfl := Option.some.inj (hended.symm.trans hrecord')
      cases hsettled.symm.trans hstatus
    have hrecord := (hran.other other hne).symm.trans hrecord'
    rw [exposed?_of_record hrecord', ← exposed?_of_record hrecord] at hexposed
    exact .inr ⟨record', hrecord, hstatus, hexposed⟩

end Store

end Linkage
