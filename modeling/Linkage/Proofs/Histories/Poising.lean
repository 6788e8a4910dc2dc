import Linkage.Proofs.Histories.Leaving
import Linkage.Proofs.Linking.Furnishing

/-!
# Modules that wait

A module whose body has not begun waits as it was made: a legacy one has no names, and its exports
value is an empty object of its own.  Everything that a store holds refers to what there is.

* `Store.Poised` : what waits is as it was made, and no two that wait have one exports value.
* `Store.Carries` : from one store to the next, what waits has waited, or it is new.
* `Learns.poised`, `Poised.link`, `Poised.namespace_`, `Poised.ran` : what happens to a store keeps
  it so.
-/

namespace Linkage.Store

/-- What waits is as it was made. -/
structure Poised (store : Store) : Prop where
  grounded : store.Grounded
  pristine : ∀ ref record, store.record? ref = some record → record.format = .legacy →
    record.status = .unlinked → record.environment = {} ∧ ∃ object : ObjectRef,
      record.exports? = some ⟨.object object, false⟩ ∧
        store.heap.objects[object.index]? = some {}
  apart : ∀ ref ref' record record' object, store.record? ref = some record →
    store.record? ref' = some record' → record.status.isSettled = false →
    record'.status.isSettled = false → store.exposed? ref = some object →
    store.exposed? ref' = some object → ref = ref'

/-- Legacy modules that have not settled were there before, or the one that was not is as it is
made. -/
structure Carries (store next : Store) : Prop where
  back : ∀ ref record', next.record? ref = some record' → record'.format = .legacy →
    record'.status.isSettled = false →
    (∃ record, store.record? ref = some record ∧ record.format = .legacy ∧
      record.status = record'.status ∧ record.exports? = record'.exports? ∧
      record.environment = record'.environment) ∨
    ref.index = store.records.size ∧ record'.environment = {} ∧
      record'.exports? = some ⟨.object ⟨store.heap.size⟩, false⟩ ∧
      next.heap.objects[store.heap.size]? = some {}
  object : ∀ ref record' object, next.record? ref = some record' →
    record'.status.isSettled = false → store.exposed? ref = some object →
    next.heap.objects[object.index]? = store.heap.objects[object.index]?

variable {store next : Store} {ref : RecordRef} {record : Record}

/-- Only legacy modules have an exports value. -/
theorem format_of_exposed {object : ObjectRef} (hrecord : store.record? ref = some record)
    (hexposed : store.exposed? ref = some object) : record.format = .legacy := by
  rw [exposed?_of_record hrecord] at hexposed
  obtain ⟨exports, hexports, -⟩ := Option.bind_eq_some_iff.mp hexposed
  simp [Record.format, hexports]

theorem Poised.size_of_exposed (hpoised : store.Poised) {object : ObjectRef}
    (hrecord : store.record? ref = some record) (hexposed : store.exposed? ref = some object) :
    object.index < store.heap.size := by
  rw [exposed?_of_record hrecord] at hexposed
  obtain ⟨exports, hexports, hobject⟩ := Option.bind_eq_some_iff.mp hexposed
  have hgrounds := hpoised.grounded.exports ref record exports hrecord hexports
  cases hvalue : exports.value with
  | object found =>
      rw [hvalue] at hobject hgrounds
      obtain rfl := Option.some.inj hobject
      exact hgrounds
  | undefined | null | boolean | number | text | space => simp [hvalue, Value.toObject?] at hobject

theorem Poised.carries (hpoised : store.Poised) (hcarries : store.Carries next)
    (hgrounded : next.Grounded) : next.Poised where
  grounded := hgrounded
  pristine ref record' hrecord' hlegacy hunlinked := by
    have hunsettled : record'.status.isSettled = false := by rw [hunlinked]; rfl
    rcases hcarries.back ref record' hrecord' hlegacy hunsettled with
      ⟨record, hrecord, hformat, hstatus, hexports, henvironment⟩ |
      ⟨-, henvironment, hexports, hobject⟩
    · obtain ⟨hempty, object, hfound, hproperties⟩ :=
        hpoised.pristine ref record hrecord hformat (hstatus.trans hunlinked)
      refine ⟨henvironment ▸ hempty, object, hexports ▸ hfound, ?_⟩
      rw [hcarries.object ref record' object hrecord' hunsettled, hproperties]
      rw [exposed?_of_record hrecord, hfound]
      rfl
    · exact ⟨henvironment, _, hexports, hobject⟩
  apart ref ref' record record' object hrecord hrecord' hunsettled hunsettled' hexposed hexposed' := by
    -- a module that is new has an object that no other can have
    have hback : ∀ ref record, next.record? ref = some record → record.status.isSettled = false →
        next.exposed? ref = some object →
        (∃ before, store.record? ref = some before ∧ before.status.isSettled = false ∧
          store.exposed? ref = some object ∧ object.index < store.heap.size) ∨
        ref.index = store.records.size ∧ object.index = store.heap.size := by
      intro ref record hrecord hunsettled hexposed
      have hlegacy := format_of_exposed hrecord hexposed
      rw [exposed?_of_record hrecord] at hexposed
      rcases hcarries.back ref record hrecord hlegacy hunsettled with
        ⟨before, hbefore, -, hstatus, hexports, -⟩ | ⟨hnew, -, hexports, -⟩
      · rw [← hexports, ← exposed?_of_record hbefore] at hexposed
        exact .inl ⟨before, hbefore, hstatus ▸ hunsettled, hexposed,
          hpoised.size_of_exposed hbefore hexposed⟩
      · rw [hexports] at hexposed
        obtain rfl := Option.some.inj hexposed
        exact .inr ⟨hnew, rfl⟩
    rcases hback ref record hrecord hunsettled hexposed,
      hback ref' record' hrecord' hunsettled' hexposed' with
      ⟨⟨before, hbefore, hstatus, hheld, hsize⟩ | ⟨hnew, hsize⟩,
        ⟨before', hbefore', hstatus', hheld', hsize'⟩ | ⟨hnew', hsize'⟩⟩
    · exact hpoised.apart ref ref' before before' object hbefore hbefore' hstatus hstatus' hheld
        hheld'
    · omega
    · omega
    · cases ref
      cases ref'
      exact congrArg RecordRef.mk (hnew.trans hnew'.symm)

theorem poised_empty : empty.Poised where
  grounded := ⟨fun index properties hproperties => by simp [empty, Heap.empty] at hproperties,
    fun ref cell _ hcell => by simp [empty, cell?] at hcell,
    fun ref record _ hrecord => by simp [empty, record?] at hrecord⟩
  pristine ref record hrecord := by simp [empty, record?] at hrecord
  apart ref _ record _ _ hrecord := by simp [empty, record?] at hrecord

/-! ## To learn something -/

theorem Learn.grounded (hlearn : store.Learn next) (hgrounded : store.Grounded) :
    next.Grounded := by
  have henriches := hlearn.enriches
  have hshows := shows_of_namespaces henriches.namespaces
  have hheap : next.heap = store.heap ∨ next.heap = (store.heap.alloc {}).2 := by
    cases hlearn with
    | source | analysis => exact .inl rfl
    | register id format => exact store.heap_getOrCreate id format
  refine hgrounded.mono ?_ henriches.size hshows (fun ref cell _ hcell hvalue => .inr ?_)
    (fun ref record' exports hrecord' hexports => ?_)
  · -- an object that is new holds nothing
    have hextended : next.heap.Grounded store.Caches := by
      rcases hheap with heq | heq <;> rw [heq]
      · exact hgrounded.heap
      · exact (Heap.extends_alloc store.heap Table.Grounded.empty).grounded hgrounded.heap
    exact fun index properties hproperties =>
      (hextended index properties hproperties).mono (Nat.le_refl _) hshows
  · unfold cell? at hcell ⊢
    rw [henriches.cells] at hcell
    exact ⟨cell, hcell, hvalue⟩
  · rcases hlearn.made hrecord' with
      ⟨record, hrecord, hinformed⟩ | ⟨-, id, ⟨rfl, -⟩ | ⟨rfl, heq⟩⟩
    · exact .inr ⟨record, exports, hrecord, hinformed.exports ▸ hexports, rfl⟩
    · cases hexports
    · obtain rfl := Option.some.inj hexports
      refine .inl ?_
      show store.heap.size < next.heap.size
      rw [heq, Heap.size_alloc]
      exact Nat.lt_succ_self _

theorem Learn.carries (hlearn : store.Learn next) (hpoised : store.Poised) :
    store.Carries next where
  back ref record' hrecord' hlegacy _ := by
    rcases hlearn.made hrecord' with
      ⟨record, hrecord, hinformed⟩ | ⟨hnew, id, ⟨rfl, -⟩ | ⟨rfl, heq⟩⟩
    · exact .inl ⟨record, hrecord, hinformed.format ▸ hlegacy, hinformed.status.symm,
        hinformed.exports.symm, hinformed.environment.symm⟩
    · cases hlegacy
    · refine .inr ⟨hnew, rfl, rfl, ?_⟩
      rw [heq]
      show (store.heap.objects.push {})[store.heap.objects.size]? = some {}
      exact Array.getElem?_push_size
  object ref _ object _ _ hexposed := by
    cases hrecord : store.record? ref with
    | none => simp [exposed?, hrecord] at hexposed
    | some record =>
        exact hlearn.enriches.object object.index (hpoised.size_of_exposed hrecord hexposed)

theorem Learns.poised (hlearns : store.Learns next) (hpoised : store.Poised) : next.Poised := by
  induction hlearns with
  | refl => exact hpoised
  | tail _ hlearn ih => exact ih.carries (hlearn.carries ih) (hlearn.grounded ih.grounded)

/-! ## To link -/

theorem Poised.link (hpoised : store.Poised) (order : List ModuleId) :
    (store.link order).2.Poised := by
  have hrebinds := store.rebinds_link order
  have hspaces : (store.link order).2.namespaces = store.namespaces := by rw [hrebinds.frame]
  have hheap : (store.link order).2.heap = store.heap := by rw [hrebinds.frame]
  have hback : ∀ ref record', (store.link order).2.record? ref = some record' →
      ∃ record, store.record? ref = some record ∧ record.exports? = record'.exports? ∧
        (record'.format = .legacy → record' = record) := by
    intro ref record' hrecord'
    cases hrecord : store.record? ref with
    | none => cases (hrebinds.none ref hrecord).symm.trans hrecord'
    | some record =>
        obtain ⟨status, environment, hfound⟩ := hrebinds.record ref record hrecord
        obtain rfl := Option.some.inj (hfound.symm.trans hrecord')
        refine ⟨record, rfl, rfl, fun hlegacy => ?_⟩
        rw [hrebinds.other ref, hrecord] at hrecord'
        · exact (Option.some.inj hrecord').symm
        · -- only modern modules are linked
          intro hpending
          obtain ⟨_, -, found, hfound, hmodern, -⟩ := mem_pendingLinks.mp hpending
          obtain rfl := Option.some.inj (hfound.record.symm.trans hrecord)
          cases hmodern.symm.trans hlegacy
  have hshows := shows_of_namespaces hspaces
  refine hpoised.carries ⟨fun ref record' hrecord' hlegacy _ => .inl ?_, fun _ _ _ _ _ _ => ?_⟩
    (hpoised.grounded.mono ?_ ?_ hshows (fun ref cell value hcell hvalue => ?_)
      (fun ref record' exports hrecord' hexports => .inr ?_))
  · obtain ⟨record, hrecord, -, hsame⟩ := hback ref record' hrecord'
    obtain rfl := hsame hlegacy
    exact ⟨record', hrecord, hlegacy, rfl, rfl, rfl⟩
  · rw [hheap]
  · rw [hheap]
    exact fun index properties hproperties =>
      (hpoised.grounded.heap index properties hproperties).mono (Nat.le_refl _) hshows
  · rw [hheap]
  · -- slots that are new are empty
    rcases unwritten_link store order ref cell hcell with hbefore | hnone
    · exact .inr ⟨cell, hbefore, hvalue⟩
    · cases hnone.symm.trans hvalue
  · obtain ⟨record, hrecord, hsame, -⟩ := hback ref record' hrecord'
    exact ⟨record, exports, hrecord, hsame.trans hexports, rfl⟩

/-! ## To show a module and to run a body -/

theorem Poised.namespace_ (hpoised : store.Poised) (id : ModuleId) (requester? : Option ModuleId) :
    (store.namespace_ id requester?).2.Poised := by
  have hcached := store.cached_namespace_ id requester?
  refine hpoised.carries ⟨fun ref record' hrecord' hlegacy _ => .inl ?_, fun _ _ _ _ _ _ => ?_⟩
    (hpoised.grounded.cached hcached (fun _ hshown => hshown.namespace_ id requester?))
  · exact ⟨record', (hcached.record?_eq ref).symm.trans hrecord', hlegacy, rfl, rfl, rfl⟩
  · rw [hcached.heap]

theorem Poised.ran (hpoised : store.Poised) (hran : store.Ran ref record next)
    (hrecord : store.record? ref = some record) (hunsettled : record.status.isSettled = false) :
    next.Poised := by
  have hother : ∀ other found, next.record? other = some found →
      found.status.isSettled = false → store.record? other = some found ∧ other ≠ ref := by
    intro other found hfound hstatus
    have hne : other ≠ ref := by
      rintro rfl
      obtain ⟨ended, hended, -, -, -, -, hsettled, -⟩ := hran.own
      obtain rfl := Option.some.inj (hended.symm.trans hfound)
      cases hsettled.symm.trans hstatus
    exact ⟨(hran.other other hne).symm.trans hfound, hne⟩
  refine hpoised.carries ⟨fun other found hfound hlegacy hstatus => .inl ?_,
    fun other found object hfound hstatus hexposed => ?_⟩ hran.outgrows.grounded
  · exact ⟨found, (hother other found hfound hstatus).1, hlegacy, rfl, rfl, rfl⟩
  · -- a body may change the object of its own module, which is not that of another
    obtain ⟨hbefore, hne⟩ := hother other found hfound hstatus
    have hindex := hpoised.size_of_exposed hbefore hexposed
    have hsame := hran.outgrows.object object hindex (fun hown =>
      hne (hpoised.apart other ref found record object hbefore hrecord hstatus hunsettled hexposed
        hown))
    exact Heap.getElem?_eq_of_properties hindex (Nat.lt_of_lt_of_le hindex hran.outgrows.size) hsame

end Linkage.Store
