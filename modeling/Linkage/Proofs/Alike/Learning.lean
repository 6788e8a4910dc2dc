import Linkage.Proofs.Alike.Attempts
import Linkage.Proofs.Alike.Widening
import Linkage.Proofs.Anchoring.Sessions
import Linkage.Proofs.Engine.Retracing
import Linkage.Proofs.Histories.Leaving

/-!
# Engines that have learnt the same

Two engines that began in one state and have learnt the same of modules since may have registered them
in different orders, so records and exports values have different numbers.  They are alike if what was
there at the start is paired with itself, and what has been made since by the module it belongs to.

* `Learns.made`, `Learns.apart` : what has been made since the start.
* `Store.LearntAlike` : two stores that have learnt the same.
* `Store.LearntAlike.pairing`, `Store.LearntAlike.resembles` : what belongs together is alike.
* `Engine.Bounded.alike` : engines each of which has learnt no more than the other.
-/

namespace Linkage

/-- An option corresponds to itself if what it holds does. -/
theorem rel_self {α : Type} {R : α → α → Prop} {value? : Option α}
    (hself : ∀ value, value? = some value → R value value) : Option.Rel R value? value? := by
  cases value? with
  | none => exact .none
  | some value => exact .some (hself value rfl)

namespace Store

variable {start store store' next : Store} {id : ModuleId} {ref ref' other other' : RecordRef}
  {record record' : Record} {object object' : ObjectRef}

/-! ## What has been made -/

/-- What is known of a record that has been made with an object of its own, still empty, if its module
is a legacy one. -/
def Fresh (start store : Store) (record : Record) : Prop :=
  ∃ id, (Record.modern id).Informed record ∨ ∃ object : ObjectRef,
    (Record.legacy id (.object object)).Informed record ∧ start.heap.size ≤ object.index ∧
      store.heap.objects[object.index]? = some {}

/-- An object that a module exposes has been made. -/
theorem Anchored.exposed {least : Extent} (hanchored : store.Anchored least)
    (hexposed : store.exposed? ref = some object) : object.index < store.heap.size := by
  unfold exposed? at hexposed
  obtain ⟨exports, hexports, hobject⟩ := Option.bind_eq_some_iff.mp hexposed
  obtain ⟨record, hrecord, hfound⟩ := Option.bind_eq_some_iff.mp hexports
  have hvalue := (hanchored.record ref record hrecord).exports exports hfound
  generalize exports.value = value at hobject hvalue
  cases value with
  | object found => exact Option.some.inj hobject ▸ hvalue
  | undefined | null | boolean | number | text | space => cases hobject

/-- What a step of learning leaves exposed was exposed before, or it belongs to the record made. -/
theorem Learn.exposed_cases (hlearn : store.Learn next) (hexposed : next.exposed? ref = some object) :
    store.exposed? ref = some object ∨
      ref.index = store.records.size ∧ object.index = store.heap.size := by
  have hfound := hexposed
  unfold exposed? at hfound
  obtain ⟨exports, hexports, -⟩ := Option.bind_eq_some_iff.mp hfound
  obtain ⟨record, hrecord, -⟩ := Option.bind_eq_some_iff.mp hexports
  rw [exposed?_of_record hrecord] at hexposed
  rcases hlearn.made hrecord with
    ⟨before, hbefore, hinformed⟩ | ⟨hindex, id, ⟨rfl, -⟩ | ⟨rfl, -⟩⟩
  · exact .inl (by rw [exposed?_of_record hbefore, ← hinformed.exports, hexposed])
  · cases hexposed
  · exact .inr ⟨hindex, by rw [← Option.some.inj hexposed]⟩

section Made

variable (hanchored : start.Anchored start.extent) (hlearns : start.Learns store)
include hanchored hlearns

/-- A record was there at the start, or it has been made since. -/
theorem Learns.made (hrecord : store.record? ref = some record) :
    (∃ before, start.record? ref = some before ∧ before.Informed record) ∨
      start.records.size ≤ ref.index ∧ start.Fresh store record := by
  induction hlearns generalizing record with
  | refl => exact .inl ⟨record, hrecord, .refl record⟩
  | @tail store next hbefore hlearn ih =>
      have hgrown := (Learns.anchored hbefore hanchored).grown
      have hkept : ∀ (index : Nat) (properties : Table Value),
          store.heap.objects[index]? = some properties →
          next.heap.objects[index]? = some properties := by
        intro index properties hfound
        rw [hlearn.enriches.object index (Array.getElem?_eq_some_iff.mp hfound).1]
        exact hfound
      rcases hlearn.made hrecord with
        ⟨middle, hmiddle, hinformed⟩ | ⟨hindex, id, ⟨rfl, -⟩ | ⟨rfl, hheap⟩⟩
      · refine (ih hmiddle).imp ?_ ?_
        · exact fun ⟨before, hfirst, hknown⟩ => ⟨before, hfirst, hknown.trans hinformed⟩
        · rintro ⟨hindex, id, hmodern | ⟨object, hlegacy, hobject, hempty⟩⟩
          · exact ⟨hindex, id, .inl (hmodern.trans hinformed)⟩
          · exact ⟨hindex, id, .inr ⟨object, hlegacy.trans hinformed, hobject, hkept _ _ hempty⟩⟩
      · exact .inr ⟨hindex ▸ hgrown.records, id, .inl (.refl _)⟩
      · refine .inr ⟨hindex ▸ hgrown.records, id, .inr ⟨_, .refl _, hgrown.objects, ?_⟩⟩
        rw [hheap]
        exact Array.getElem?_push_size

/-- The object that a record which has been made since exposes is still empty. -/
theorem Learns.empty_of_exposed (hnew : start.records.size ≤ ref.index)
    (hexposed : store.exposed? ref = some object) :
    store.heap.objects[object.index]? = some {} := by
  have hfound := hexposed
  unfold exposed? at hfound
  obtain ⟨exports, hexports, -⟩ := Option.bind_eq_some_iff.mp hfound
  obtain ⟨record, hrecord, -⟩ := Option.bind_eq_some_iff.mp hexports
  rw [exposed?_of_record hrecord] at hexposed
  rcases Learns.made hanchored hlearns hrecord with
    ⟨before, hbefore, -⟩ | ⟨-, id, hmodern | ⟨made, hlegacy, -, hempty⟩⟩
  · exact absurd (anchored_of_record hbefore) (Nat.not_lt.mpr hnew)
  · rw [hmodern.exports] at hexposed
    cases hexposed
  · rw [hlegacy.exports] at hexposed
    exact Option.some.inj hexposed ▸ hempty

/-- An object that has been made since the start is exposed by one module. -/
theorem Learns.apart (hnew : start.heap.size ≤ object.index)
    (hexposed : store.exposed? ref = some object) (hexposed' : store.exposed? other = some object) :
    other = ref := by
  induction hlearns with
  | refl => exact absurd (hanchored.exposed hexposed) (Nat.not_lt.mpr hnew)
  | @tail store next hbefore hlearn ih =>
      have hmiddle := Learns.anchored hbefore hanchored
      rcases hlearn.exposed_cases hexposed with hkept | ⟨hindex, hobject⟩ <;>
        rcases hlearn.exposed_cases hexposed' with hkept' | ⟨hindex', hobject'⟩
      · exact ih hkept hkept'
      · exact absurd hobject' (Nat.ne_of_lt (hmiddle.exposed hkept))
      · exact absurd hobject (Nat.ne_of_lt (hmiddle.exposed hkept'))
      · exact congrArg RecordRef.mk (hindex'.trans hindex.symm)

end Made

/-! ## Two stores -/

/-- Two stores that have learnt the same of modules since a start in which nothing dangles. -/
structure LearntAlike (start store store' : Store) : Prop where
  anchored : start.Anchored start.extent
  learns : start.Learns store
  learns' : start.Learns store'
  registered : ∀ id, (store.lookup? id).isSome ↔ (store'.lookup? id).isSome
  known : ∀ {id ref ref' record record'}, store.Registered id ref record →
    store'.Registered id ref' record' → record'.format = record.format ∧
      record'.source? = record.source? ∧ record'.analysis? = record.analysis?
  aside : ∀ ref record, start.record? ref = some record → (∀ id, start.lookup? id ≠ some ref) →
    store.record? ref = some record ∧ store'.record? ref = some record

/-- The records of one module that has been registered since the start. -/
def Joined (start store store' : Store) (ref ref' : RecordRef) : Prop :=
  start.records.size ≤ ref.index ∧ start.records.size ≤ ref'.index ∧
    ∃ id, store.lookup? id = some ref ∧ store'.lookup? id = some ref'

namespace LearntAlike

variable (hlearnt : LearntAlike start store store')
include hlearnt

theorem anchored_left : store.Anchored start.extent := hlearnt.learns.anchored hlearnt.anchored

theorem anchored_right : store'.Anchored start.extent := hlearnt.learns'.anchored hlearnt.anchored

/-- A module has one record on either side. -/
theorem joined_iff (hjoined : Joined start store store' ref ref')
    (hjoined' : Joined start store store' other other') : ref = other ↔ ref' = other' := by
  obtain ⟨-, -, id, hlookup, hlookup'⟩ := hjoined
  obtain ⟨-, -, id', hother, hother'⟩ := hjoined'
  have hnamed := hlearnt.anchored_left.upright.named
  have hnamed' := hlearnt.anchored_right.upright.named
  constructor
  · rintro rfl
    obtain rfl := hnamed.unique hlookup hother
    exact Option.some.inj (hlookup'.symm.trans hother')
  · rintro rfl
    obtain rfl := hnamed'.unique hlookup' hother'
    exact Option.some.inj (hlookup.symm.trans hother)

/-- What was there at the start is paired with itself, and what has been made since by the module it
belongs to. -/
def pairing : Pairing where
  record ref ref' := (ref = ref' ∧ ref.index < start.records.size) ∨ Joined start store store' ref ref'
  cell cell cell' := cell = cell' ∧ cell.index < start.cells.size
  object object object' := (object = object' ∧ object.index < start.heap.size) ∨
    start.heap.size ≤ object.index ∧ start.heap.size ≤ object'.index ∧
      ∃ ref ref', Joined start store store' ref ref' ∧ store.exposed? ref = some object ∧
        store'.exposed? ref' = some object'
  covers _ := True
  record_iff := by
    rintro one one' other other' (⟨rfl, hold⟩ | hjoined) (⟨rfl, hold'⟩ | hjoined')
    · exact Iff.rfl
    · exact ⟨fun hsame => absurd hjoined'.1 (Nat.not_le.mpr (hsame ▸ hold)),
        fun hsame => absurd hjoined'.2.1 (Nat.not_le.mpr (hsame ▸ hold))⟩
    · exact ⟨fun hsame => absurd hjoined.1 (Nat.not_le.mpr (hsame ▸ hold')),
        fun hsame => absurd hjoined.2.1 (Nat.not_le.mpr (hsame ▸ hold'))⟩
    · exact hlearnt.joined_iff hjoined hjoined'
  cell_iff := by
    rintro one _ other _ ⟨rfl, -⟩ ⟨rfl, -⟩
    exact Iff.rfl
  object_iff := by
    rintro one one' other other' (⟨rfl, hold⟩ | ⟨hnew, hnew', ref, ref', hjoined, hone, hone'⟩)
      (⟨rfl, hold'⟩ | ⟨hlater, hlater', found, found', hfound, hother, hother'⟩)
    · exact Iff.rfl
    · exact ⟨fun hsame => absurd hlater (Nat.not_le.mpr (hsame ▸ hold)),
        fun hsame => absurd hlater' (Nat.not_le.mpr (hsame ▸ hold))⟩
    · exact ⟨fun hsame => absurd hnew (Nat.not_le.mpr (hsame ▸ hold')),
        fun hsame => absurd hnew' (Nat.not_le.mpr (hsame ▸ hold'))⟩
    · constructor
      · rintro rfl
        obtain rfl := Learns.apart hlearnt.anchored hlearnt.learns hnew hone hother
        obtain rfl := (hlearnt.joined_iff hjoined hfound).mp rfl
        exact Option.some.inj (hone'.symm.trans hother')
      · rintro rfl
        obtain rfl := Learns.apart hlearnt.anchored hlearnt.learns' hnew' hone' hother'
        obtain rfl := (hlearnt.joined_iff hjoined hfound).mpr rfl
        exact Option.some.inj (hone.symm.trans hother)

/-! ### What was there at the start -/

/-- A value that refers to what was there at the start is like itself. -/
theorem value_alike {value : Value} (hvalue : value.Anchored start.extent) :
    value.Alike hlearnt.pairing value := by
  cases value with
  | undefined => exact .undefined
  | null => exact .null
  | boolean value => exact .boolean value
  | number value => exact .number value
  | text value => exact .text value
  | object ref => exact .object (.inl ⟨rfl, hvalue⟩)
  | space found => exact .space ⟨.inl ⟨rfl, hvalue⟩, rfl, rfl, trivial⟩

theorem binding_alike {binding : Binding} (hbinding : binding.Anchored start.extent) :
    binding.Alike hlearnt.pairing binding := by
  cases binding with
  | cell ref => exact .cell ⟨rfl, hbinding⟩
  | star id => exact .star trivial
  | exports ref property? => exact .exports (Or.inl ⟨rfl, hbinding⟩) property?

/-- Records of which the same is known, and whose exports values correspond. -/
theorem record_alike {before : Record} (hanchored : before.Anchored start.extent)
    (hinformed : before.Informed record) (hinformed' : before.Informed record')
    (hsource : record'.source? = record.source?) (hanalysis : record'.analysis? = record.analysis?) :
    record.Alike hlearnt.pairing record' where
  id := hinformed.id.trans hinformed'.id.symm
  status := hinformed.status.trans hinformed'.status.symm
  source := hsource.symm
  analysis := hanalysis.symm
  error := by rw [hinformed.shape, hinformed'.shape]
  poison := by rw [hinformed.shape, hinformed'.shape]
  exports := by
    rw [hinformed.exports, hinformed'.exports]
    cases hexports : before.exports? with
    | none => exact .none
    | some exports => exact .some ⟨hlearnt.value_alike (hanchored.exports exports hexports), rfl⟩
  environment := by
    rw [hinformed.environment, hinformed'.environment]
    intro name
    cases hbinding : before.environment.find? name with
    | none => exact .none
    | some binding => exact .some (hlearnt.binding_alike (hanchored.environment name binding hbinding))
  covered _ _ _ _ := trivial

/-! ### All that belongs together -/

/-- The records of one module are paired. -/
theorem record_of_lookup (hlookup : store.lookup? id = some ref) (hlookup' : store'.lookup? id = some ref') :
    hlearnt.pairing.record ref ref' := by
  cases hbefore : start.lookup? id with
  | some before =>
      obtain rfl := Option.some.inj ((hlearnt.learns.enriches.lookup id before hbefore).symm.trans hlookup)
      obtain rfl := Option.some.inj ((hlearnt.learns'.enriches.lookup id _ hbefore).symm.trans hlookup')
      exact .inl ⟨rfl, hlearnt.anchored.lookup hbefore⟩
  | none =>
      have hnew {later : Store} {ref : RecordRef} (hlearns : start.Learns later)
          (hlookup : later.lookup? id = some ref) : start.records.size ≤ ref.index := by
        rcases hlearns.lookup_back hlookup with hsome | hnone
        · cases hbefore.symm.trans hsome
        · exact Array.getElem?_eq_none_iff.mp hnone
      exact .inr ⟨hnew hlearnt.learns hlookup, hnew hlearnt.learns' hlookup', id, hlookup, hlookup'⟩

theorem lookup (id : ModuleId) :
    Option.Rel hlearnt.pairing.record (store.lookup? id) (store'.lookup? id) := by
  have hiff := hlearnt.registered id
  cases hlookup : store.lookup? id with
  | none =>
      rw [hlookup] at hiff
      cases hlookup' : store'.lookup? id with
      | none => exact .none
      | some ref' =>
          rw [hlookup'] at hiff
          cases hiff.mpr rfl
  | some ref =>
      obtain ⟨ref', hlookup'⟩ := Option.isSome_iff_exists.mp (hiff.mp (by rw [hlookup]; rfl))
      rw [hlookup']
      exact .some (hlearnt.record_of_lookup hlookup hlookup')

/-- A record that was there at the start. -/
theorem old_alike (hold : ref.index < start.records.size) :
    Option.Rel (Record.Alike hlearnt.pairing) (store.record? ref) (store'.record? ref) := by
  obtain ⟨before, hbefore⟩ := record_of_anchored hold
  have hanchored := hlearnt.anchored.record ref before hbefore
  by_cases hregistered : ∃ id, start.lookup? id = some ref
  · obtain ⟨id, hlookup⟩ := hregistered
    obtain ⟨record, hrecord, hinformed⟩ := hlearnt.learns.enriches.record ref before hbefore
    obtain ⟨record', hrecord', hinformed'⟩ := hlearnt.learns'.enriches.record ref before hbefore
    obtain ⟨-, hsource, hanalysis⟩ := hlearnt.known
      ⟨hlearnt.learns.enriches.lookup id ref hlookup, hrecord⟩
      ⟨hlearnt.learns'.enriches.lookup id ref hlookup, hrecord'⟩
    rw [hrecord, hrecord']
    exact .some (hlearnt.record_alike hanchored hinformed hinformed' hsource hanalysis)
  · obtain ⟨hrecord, hrecord'⟩ := hlearnt.aside ref before hbefore (not_exists.mp hregistered)
    rw [hrecord, hrecord']
    exact .some (hlearnt.record_alike hanchored (.refl before) (.refl before) rfl rfl)

/-- The records of a module that has been registered since. -/
theorem joined_alike (hjoined : Joined start store store' ref ref') :
    Option.Rel (Record.Alike hlearnt.pairing) (store.record? ref) (store'.record? ref') := by
  obtain ⟨hnew, hnew', id, hlookup, hlookup'⟩ := hjoined
  obtain ⟨record, hrecord, hid⟩ := hlearnt.anchored_left.upright.named id ref hlookup
  obtain ⟨record', hrecord', hid'⟩ := hlearnt.anchored_right.upright.named id ref' hlookup'
  obtain ⟨hformat, hsource, hanalysis⟩ := hlearnt.known ⟨hlookup, hrecord⟩ ⟨hlookup', hrecord'⟩
  have hfresh : start.Fresh store record :=
    (Learns.made hlearnt.anchored hlearnt.learns hrecord).elim
      (fun ⟨_, hbefore, _⟩ => absurd (anchored_of_record hbefore) (Nat.not_lt.mpr hnew)) And.right
  have hfresh' : start.Fresh store' record' :=
    (Learns.made hlearnt.anchored hlearnt.learns' hrecord').elim
      (fun ⟨_, hbefore, _⟩ => absurd (anchored_of_record hbefore) (Nat.not_lt.mpr hnew')) And.right
  rw [hrecord, hrecord']
  obtain ⟨name, hmodern | ⟨object, hlegacy, hobject, -⟩⟩ := hfresh <;>
    obtain ⟨name', hmodern' | ⟨object', hlegacy', hobject', -⟩⟩ := hfresh'
  · obtain rfl : name = name' := (hmodern.id.symm.trans hid).trans (hmodern'.id.symm.trans hid').symm
    have hanchored : (Record.modern name).Anchored start.extent := ⟨nofun, nofun⟩
    exact .some (hlearnt.record_alike hanchored hmodern hmodern' hsource hanalysis)
  · rw [hmodern.format, hlegacy'.format] at hformat
    cases hformat
  · rw [hlegacy.format, hmodern'.format] at hformat
    cases hformat
  · obtain rfl : name = name' := (hlegacy.id.symm.trans hid).trans (hlegacy'.id.symm.trans hid').symm
    have hexposed : store.exposed? ref = some object := by
      rw [exposed?_of_record hrecord, hlegacy.exports]
      rfl
    have hexposed' : store'.exposed? ref' = some object' := by
      rw [exposed?_of_record hrecord', hlegacy'.exports]
      rfl
    have hpaired : hlearnt.pairing.object object object' :=
      .inr ⟨hobject, hobject', ref, ref', ⟨hnew, hnew', id, hlookup, hlookup'⟩, hexposed, hexposed'⟩
    refine .some ⟨hid.trans hid'.symm, ?_, hsource.symm, hanalysis.symm, ?_, ?_, ?_, ?_,
      fun _ _ _ _ => trivial⟩
    · exact hlegacy.status.trans hlegacy'.status.symm
    · rw [hlegacy.shape, hlegacy'.shape]
      rfl
    · rw [hlegacy.shape, hlegacy'.shape]
      rfl
    · rw [hlegacy.exports, hlegacy'.exports]
      exact .some ⟨.object hpaired, rfl⟩
    · rw [hlegacy.environment, hlegacy'.environment]
      exact Table.alike_empty

/-- **What belongs together is alike in both stores.** -/
theorem resembles : store.Resembles hlearnt.pairing store' where
  object := by
    rintro object object' (⟨rfl, hold⟩ | ⟨-, -, ref, ref', ⟨hnew, hnew', -⟩, hexposed, hexposed'⟩)
    · rw [hlearnt.learns.enriches.object object.index hold, hlearnt.learns'.enriches.object object.index hold]
      refine rel_self (fun properties hfound key => rel_self (fun value hvalue => ?_))
      exact hlearnt.value_alike (hlearnt.anchored.heap object.index properties hfound key value hvalue)
    · rw [Learns.empty_of_exposed hlearnt.anchored hlearnt.learns hnew hexposed,
        Learns.empty_of_exposed hlearnt.anchored hlearnt.learns' hnew' hexposed']
      exact .some Table.alike_empty
  record := by
    rintro ref ref' (⟨rfl, hold⟩ | hjoined)
    · exact hlearnt.old_alike hold
    · exact hlearnt.joined_alike hjoined
  cell := by
    rintro cell _ ⟨rfl, -⟩
    unfold cell?
    rw [hlearnt.learns.enriches.cells, hlearnt.learns'.enriches.cells]
    refine rel_self (fun found hfound => ⟨?_, rfl, rfl, rel_self (fun value hvalue => ?_)⟩)
    · exact .inl ⟨rfl, (hlearnt.anchored.cell cell found hfound).record⟩
    · exact hlearnt.value_alike ((hlearnt.anchored.cell cell found hfound).value value hvalue)
  lookup _ := hlearnt.lookup _
  upright := hlearnt.anchored_left.upright
  upright' := hlearnt.anchored_right.upright

/-- What is paired is there. -/
theorem fits : hlearnt.pairing.Fits store store' where
  record := by
    rintro ref ref' (⟨rfl, hold⟩ | ⟨-, -, id, hlookup, hlookup'⟩)
    · exact .inl ⟨Nat.lt_of_lt_of_le hold hlearnt.anchored_left.grown.records,
        Nat.lt_of_lt_of_le hold hlearnt.anchored_right.grown.records⟩
    · exact .inl ⟨hlearnt.anchored_left.lookup hlookup, hlearnt.anchored_right.lookup hlookup'⟩
  cell := by
    rintro cell _ ⟨rfl, hold⟩
    exact .inl ⟨Nat.lt_of_lt_of_le hold hlearnt.anchored_left.grown.cells,
      Nat.lt_of_lt_of_le hold hlearnt.anchored_right.grown.cells⟩
  object := by
    rintro object object' (⟨rfl, hold⟩ | ⟨-, -, ref, ref', -, hexposed, hexposed'⟩)
    · exact .inl ⟨Nat.lt_of_lt_of_le hold hlearnt.anchored_left.grown.objects,
        Nat.lt_of_lt_of_le hold hlearnt.anchored_right.grown.objects⟩
    · exact .inl ⟨hlearnt.anchored_left.exposed hexposed, hlearnt.anchored_right.exposed hexposed'⟩

/-- What is made next belongs together as well. -/
def whole : Pairing := hlearnt.pairing.withFresh store store' hlearnt.fits

/-- **Two stores that have learnt the same are alike.** -/
theorem alike : store.Alike hlearnt.whole store' := hlearnt.resembles.withFresh hlearnt.fits

theorem le_whole : hlearnt.pairing.Le hlearnt.whole := Pairing.le_withFresh hlearnt.fits

/-- A record that was there at the start belongs to itself. -/
theorem whole_record (href : ref.Anchored start.extent) : hlearnt.whole.record ref ref :=
  .inl (.inl ⟨rfl, href⟩)

/-- What is kept since the start is like itself. -/
theorem whole_value {value : Value} (hvalue : value.Anchored start.extent) :
    value.Alike hlearnt.whole value :=
  (hlearnt.value_alike hvalue).within hlearnt.le_whole.toWithin

theorem whole_live {live : LiveBinding} (hlive : live.Anchored start.extent) :
    live.Alike hlearnt.whole live :=
  ⟨(hlearnt.binding_alike hlive).le hlearnt.le_whole, rfl⟩

end LearntAlike

end Store

/-! ## Two engines -/

/-- The pairs of specifier and referrer that are remembered are different. -/
def Resolver.Distinct (resolver : Resolver) : Prop :=
  (resolver.memo.map (fun entry => (entry.specifier, entry.referrer?))).Nodup

namespace Engine

open Attempt

/-- **In every run** a resolver remembers one answer for each pair. -/
theorem upheldAlways_distinct : UpheldAlways (fun engine => engine.resolver.Distinct) where
  toUpheldAhead := upheldAhead_of_resolver
    (fun _ _ hresolver hdistinct => by rwa [hresolver])
    (fun specifier referrer? => .of_after (fun engine hdistinct => by
      rw [attempt_resolve]
      exact Resolver.nodup_resolve hdistinct))
  reset _ _ := List.nodup_nil
  rehost _ _ hdistinct := hdistinct

variable {config : Config} {host : Host} {start engine engine' : Engine}

theorem Housed.faithful (hhoused : engine.Housed config host) (hdistinct : engine.resolver.Distinct) :
    engine.resolver.Faithful config host :=
  ⟨hdistinct, fun _ _ _ hknown => hhoused.of_remembered hknown⟩

section Bounded

variable (hbounded : Bounded config host start engine' engine)
  (hbounded' : Bounded config host start engine engine')
include hbounded hbounded'

/-- Engines each of which has learnt no more than the other know the same of every module. -/
theorem Bounded.known (hsame : host.fetch = host.load) {id : ModuleId} {ref ref' : RecordRef}
    {record record' : Record} (hregistered : engine.store.Registered id ref record)
    (hregistered' : engine'.store.Registered id ref' record') :
    record'.format = record.format ∧ record'.source? = record.source? ∧
      record'.analysis? = record.analysis? := by
  have hhas {part : Record → Bool}
      (hpart : engine.store.Has id part → engine'.store.Has id part)
      (hpart' : engine'.store.Has id part → engine.store.Has id part) :
      part record = true ↔ part record' = true := by
    constructor
    · intro hsome
      obtain ⟨_, _, hfound, hknown⟩ := hpart ⟨ref, record, hregistered, hsome⟩
      obtain ⟨-, rfl⟩ := hfound.unique hregistered'
      exact hknown
    · intro hsome
      obtain ⟨_, _, hfound, hknown⟩ := hpart' ⟨ref', record', hregistered', hsome⟩
      obtain ⟨-, rfl⟩ := hfound.unique hregistered
      exact hknown
  have hsourced := hhas (hbounded.store.sourced id) (hbounded'.store.sourced id)
  have hanalyzed := hhas (hbounded.store.analyzed id) (hbounded'.store.analyzed id)
  refine ⟨hbounded.housed.format_eq hbounded'.housed hregistered hregistered', ?_, ?_⟩
  · cases hsource : record.source? with
    | none => simpa [hsource] using hsourced
    | some source =>
        obtain ⟨source', hsource'⟩ := Option.isSome_iff_exists.mp (hsourced.mp (by rw [hsource]; rfl))
        have hload := hbounded.housed.loaded hsame hregistered hsource
        have hload' := hbounded'.housed.loaded hsame hregistered' hsource'
        rw [hsource', Except.ok.inj (hload'.symm.trans hload)]
  · cases hanalysis : record.analysis? with
    | none => simpa [hanalysis] using hanalyzed
    | some analysis =>
        have hknown : record.analysis?.isSome := by rw [hanalysis]; rfl
        have hknown' := hanalyzed.mp hknown
        obtain ⟨_, hfound, hid⟩ := hbounded.studied.named id ref hregistered.lookup
        obtain rfl := Option.some.inj (hregistered.record.symm.trans hfound)
        obtain ⟨_, hfound', hid'⟩ := hbounded'.studied.named id ref' hregistered'.lookup
        obtain rfl := Option.some.inj (hregistered'.record.symm.trans hfound')
        have hforetold := (hbounded.housed.foretold hsame hbounded.studied).store id ref record
          hregistered
        have hforetold' := (hbounded'.housed.foretold hsame hbounded'.studied).store id ref' record'
          hregistered'
        obtain ⟨-, -, hread⟩ := hforetold.unique hforetold' (hid'.trans hid.symm)
          (hbounded.studied.sourced ref record hfound hknown)
          (hbounded'.studied.sourced ref' record' hfound' hknown') hknown hknown'
        rw [hread, hanalysis]

/-- They have learnt the same. -/
theorem Bounded.learntAlike (hsame : host.fetch = host.load)
    (hanchored : start.store.Anchored start.store.extent) :
    Store.LearntAlike start.store engine.store engine'.store where
  anchored := hanchored
  learns := hbounded.enriched.store
  learns' := hbounded'.enriched.store
  registered id := ⟨hbounded.store.registered id, hbounded'.store.registered id⟩
  known := hbounded.known hbounded' hsame
  aside ref record hrecord hforgotten :=
    ⟨hbounded.store.aside ref record hrecord hforgotten,
      hbounded'.store.aside ref record hrecord hforgotten⟩

/-- **Engines each of which has learnt no more than the other are alike.** -/
theorem Bounded.alike (hdistinct : engine.resolver.Distinct) (hdistinct' : engine'.resolver.Distinct)
    (hlearnt : Store.LearntAlike start.store engine.store engine'.store) :
    engine.Alike hlearnt.whole engine.imports engine'.imports engine' := by
  have hremembered : ∀ specifier referrer?, engine.resolver.remembered? specifier referrer? =
      engine'.resolver.remembered? specifier referrer? := by
    intro specifier referrer?
    refine Option.ext (fun resolved => ⟨?_, ?_⟩)
    · exact hbounded.resolver specifier referrer? resolved
    · exact hbounded'.resolver specifier referrer? resolved
  exact {
    config := hbounded.housed.settings.trans hbounded'.housed.settings.symm
    host := hbounded.housed.place.trans hbounded'.housed.place.symm
    remembered := hremembered
    memory := (hbounded'.housed.faithful hdistinct').size_eq (hbounded.housed.faithful hdistinct)
      hremembered
    store := hlearnt.alike
    imports_left := rfl
    imports_right := rfl }

end Bounded

end Engine

end Linkage
