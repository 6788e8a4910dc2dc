import Linkage.Proofs.Alike.Linking
import Linkage.Proofs.Store.Grounded

/-!
# More and more is paired

What is alike stays alike when more is paired.  Two stores in which paired things are alike are alike
altogether if whatever they will make next is paired as well, the first with the first and so on.
And of a pairing only that part matters which pairs things that are there.

* `Pairing.Le` : one pairing pairs all that another does; `Record.Alike.le` and its like.
* `Pairing.withFresh`, `Store.Resembles.withFresh` : what is made next is paired.
* `Caches.alike_iff` : namespaces are paired one to one.
* `Pairing.Into` : one pairing pairs all there is that another does; `Cell.Alike.into` and its like.
-/

namespace Linkage

variable {pairing pairing' : Pairing}

/-! ## Larger pairings -/

/-- All that is paired is also paired by another pairing. -/
structure Pairing.Le (pairing pairing' : Pairing) : Prop extends pairing.Within pairing' where
  cell : ∀ cell cell', pairing.cell cell cell' → pairing'.cell cell cell'

/-- Options that correspond in one way also do in another. -/
theorem rel_imp {α β : Type} {R S : α → β → Prop} {value? : Option α} {value'? : Option β}
    (hrel : Option.Rel R value? value'?)
    (himp : ∀ value value', value? = some value → value'? = some value' → R value value' →
      S value value') : Option.Rel S value? value'? := by
  cases hrel with
  | none => exact .none
  | some hvalue => exact .some (himp _ _ rfl rfl hvalue)

theorem Table.Alike.imp {α β : Type} {R S : α → β → Prop} {table : Table α} {table' : Table β}
    (halike : table.Alike R table')
    (himp : ∀ key value value', table.find? key = some value → table'.find? key = some value' →
      R value value' → S value value') : table.Alike S table' :=
  fun key => rel_imp (halike key) (himp key)

section Le

variable (hle : pairing.Le pairing')
include hle

theorem Binding.Alike.le {binding binding' : Binding} (halike : binding.Alike pairing binding') :
    binding.Alike pairing' binding' := by
  cases halike with
  | cell href => exact .cell (hle.cell _ _ href)
  | star hcovered => exact .star (hle.covers _ hcovered)
  | exports href property? => exact .exports (hle.record _ _ href) property?

theorem Cell.Alike.le {cell cell' : Cell} (halike : cell.Alike pairing cell') :
    cell.Alike pairing' cell' where
  record := hle.record _ _ halike.record
  owner := halike.owner
  name := halike.name
  value := rel_imp halike.value (fun _ _ _ _ hvalue => hvalue.within hle.toWithin)

theorem Record.Alike.le {record record' : Record} (halike : record.Alike pairing record') :
    record.Alike pairing' record' :=
  { halike with
    exports := rel_imp halike.exports (fun _ _ _ _ hexports =>
      ⟨hexports.value.within hle.toWithin, hexports.started⟩)
    environment := halike.environment.imp (fun _ _ _ _ _ hbinding => hbinding.le hle)
    covered := fun entry hentry source hsource =>
      hle.covers _ (halike.covered entry hentry source hsource) }

end Le

/-! ## What is made next -/

/-- Two numbers come equally late after two counts. -/
def Late (size size' index index' : Nat) : Prop :=
  size ≤ index ∧ size' ≤ index' ∧ index + size' = index' + size

/-- Two numbers have both been given, or they come equally late. -/
def Tally (size size' index index' : Nat) : Prop :=
  (index < size ∧ index' < size') ∨ Late size size' index index'

/-- Two things with numbers correspond as before, or they come equally late. -/
theorem partner_iff {α : Type} {R : α → α → Prop} {number : α → Nat}
    (hnumber : ∀ one other, number one = number other → one = other) {size size' : Nat}
    (hpartner : ∀ {one one' other other'}, R one one' → R other other' →
      (one = other ↔ one' = other'))
    (htally : ∀ one one', R one one' → Tally size size' (number one) (number one'))
    {one one' other other' : α} (hone : R one one' ∨ Late size size' (number one) (number one'))
    (hother : R other other' ∨ Late size size' (number other) (number other')) :
    one = other ↔ one' = other' := by
  by_cases hboth : R one one' ∧ R other other'
  · exact hpartner hboth.1 hboth.2
  · -- one of the two is late, and the other one is only if it has the same number
    have hone' := hone.imp_left (htally one one')
    have hother' := hother.imp_left (htally other other')
    have hlate : Late size size' (number one) (number one') ∨
        Late size size' (number other) (number other') := by tauto
    unfold Tally Late at *
    refine ⟨fun hsame => hnumber _ _ ?_, fun hsame => hnumber _ _ ?_⟩
    · have hsame := congrArg number hsame
      omega
    · have hsame := congrArg number hsame
      omega

namespace Pairing

/-- Paired things are there in both stores, or will be made there equally late. -/
structure Fits (pairing : Pairing) (store store' : Store) : Prop where
  record : ∀ ref ref', pairing.record ref ref' →
    Tally store.records.size store'.records.size ref.index ref'.index
  cell : ∀ cell cell', pairing.cell cell cell' →
    Tally store.cells.size store'.cells.size cell.index cell'.index
  object : ∀ object object', pairing.object object object' →
    Tally store.heap.size store'.heap.size object.index object'.index

/-- What two stores make next is paired as well. -/
def withFresh (pairing : Pairing) (store store' : Store) (hfits : pairing.Fits store store') :
    Pairing where
  record ref ref' := pairing.record ref ref' ∨
    Late store.records.size store'.records.size ref.index ref'.index
  cell cell cell' := pairing.cell cell cell' ∨
    Late store.cells.size store'.cells.size cell.index cell'.index
  object object object' := pairing.object object object' ∨
    Late store.heap.size store'.heap.size object.index object'.index
  covers := pairing.covers
  record_iff := partner_iff (fun _ _ => congrArg RecordRef.mk) pairing.record_iff hfits.record
  cell_iff := partner_iff (fun _ _ => congrArg CellRef.mk) pairing.cell_iff hfits.cell
  object_iff := partner_iff (fun _ _ => congrArg ObjectRef.mk) pairing.object_iff hfits.object

variable {store store' : Store}

theorem le_withFresh (hfits : pairing.Fits store store') :
    pairing.Le (pairing.withFresh store store' hfits) where
  record _ _ href := .inl href
  cell _ _ hcell := .inl hcell
  object _ _ hobject := .inl hobject
  covers _ hcovered := hcovered

end Pairing

namespace Store

variable {store store' : Store}

/-- **Two stores in which paired things are alike are alike altogether** if what they make next is
paired as well. -/
theorem Resembles.withFresh (hresembles : store.Resembles pairing store')
    (hfits : pairing.Fits store store') :
    store.Alike (pairing.withFresh store store' hfits) store' := by
  have hle := Pairing.le_withFresh hfits
  have hlate : ∀ more size size' : Nat, Late size size' (size + more) (size' + more) := by
    intro more size size'
    unfold Late
    omega
  refine ⟨⟨?_, fun more => .inr (hlate more _ _)⟩, ?_, ?_, ?_, fun more => .inr (hlate more _ _),
    fun more => .inr (hlate more _ _), hresembles.upright, hresembles.upright'⟩
  · rintro object object' (hobject | hlate)
    · exact rel_imp (hresembles.object hobject) (fun _ _ _ _ htable =>
        htable.imp (fun _ _ _ _ _ hvalue => hvalue.within hle.toWithin))
    · rw [Array.getElem?_eq_none hlate.1, Array.getElem?_eq_none hlate.2.1]
      exact .none
  · rintro ref ref' (href | hlate)
    · exact rel_imp (hresembles.record href) (fun _ _ _ _ hrecord => hrecord.le hle)
    · rw [record?, record?, Array.getElem?_eq_none hlate.1, Array.getElem?_eq_none hlate.2.1]
      exact .none
  · rintro cell cell' (hcell | hlate)
    · exact rel_imp (hresembles.cell hcell) (fun _ _ _ _ hfound => hfound.le hle)
    · rw [cell?, cell?, Array.getElem?_eq_none hlate.1, Array.getElem?_eq_none hlate.2.1]
      exact .none
  · intro id hcovered
    exact rel_imp (hresembles.lookup hcovered) (fun _ _ _ _ href => hle.record _ _ href)

/-- The record that a cached namespace shows is there. -/
theorem Upright.isSome_of_caches (hupright : store.Upright) {found : Namespace}
    (hcaches : store.Caches found) : (store.record? found.record).isSome := by
  unfold Caches cached? at hcaches
  obtain ⟨cached, hcached, rfl⟩ := Option.map_eq_some_iff.mp hcaches
  obtain ⟨-, -, hlookup⟩ := hupright.current.cached cached (List.mem_of_find?_eq_some hcached)
  obtain ⟨record, hrecord, -⟩ := hupright.named _ _ hlookup
  rw [hrecord]
  rfl

/-- A module has one cached namespace for each requester, so cached namespaces have one partner. -/
theorem Caches.alike_iff {one other one' other' : Namespace} (hone : store.Caches one)
    (hother : store.Caches other) (hone' : store'.Caches one') (hother' : store'.Caches other')
    (halike : one.Alike pairing one') (halike' : other.Alike pairing other') :
    one = other ↔ one' = other' := by
  have hkey {store : Store} {one other : Namespace} (hone : store.Caches one)
      (hother : store.Caches other) :
      one = other ↔ one.id = other.id ∧ one.requester? = other.requester? := by
    refine ⟨fun hsame => hsame ▸ ⟨rfl, rfl⟩, fun ⟨hid, hrequester⟩ => ?_⟩
    unfold Caches at hone hother
    rw [hid, hrequester] at hone
    exact Option.some.inj (hone.symm.trans hother)
  rw [hkey hone hother, hkey hone' hother', halike.id, halike'.id, halike.requester,
    halike'.requester]

end Store

/-! ## What there is -/

/-- Of what there is in two stores, all that is paired is also paired by another pairing. -/
structure Pairing.Into (pairing pairing' : Pairing) (store store' : Store) : Prop where
  record : ∀ ref ref', pairing.record ref ref' → (store.record? ref).isSome →
    (store'.record? ref').isSome → pairing'.record ref ref'
  object : ∀ object object', pairing.object object object' → object.index < store.heap.size →
    object'.index < store'.heap.size → pairing'.object object object'
  covers : ∀ id, pairing.covers id → pairing'.covers id

section Into

variable {store store' : Store} (hinto : pairing.Into pairing' store store')
  (hupright : store.Upright) (hupright' : store'.Upright)
include hinto hupright hupright'

theorem Value.Alike.into {value value' : Value} (halike : value.Alike pairing value')
    (hgrounds : store.Grounds value) (hgrounds' : store'.Grounds value') :
    value.Alike pairing' value' := by
  cases halike with
  | object href => exact .object (hinto.object _ _ href hgrounds hgrounds')
  | space hfound =>
      have hrecord := hinto.record _ _ hfound.record (hupright.isSome_of_caches hgrounds)
        (hupright'.isSome_of_caches hgrounds')
      exact .space ⟨hrecord, hfound.id, hfound.requester, hinto.covers _ hfound.covered⟩
  | undefined => exact .undefined
  | null => exact .null
  | boolean value => exact .boolean value
  | number value => exact .number value
  | text value => exact .text value

variable (hgrounded : store.Grounded) (hgrounded' : store'.Grounded)
include hgrounded hgrounded'

/-- The properties of an object. -/
theorem Table.Alike.into {object object' : ObjectRef}
    (hrel : Option.Rel (Table.Alike (Value.Alike pairing)) store.heap.objects[object.index]?
      store'.heap.objects[object'.index]?) :
    Option.Rel (Table.Alike (Value.Alike pairing')) store.heap.objects[object.index]?
      store'.heap.objects[object'.index]? := by
  refine rel_imp hrel (fun properties properties' hfound hfound' halike => ?_)
  exact halike.imp (fun key value value' hvalue hvalue' hsame =>
    hsame.into hinto hupright hupright' (hgrounded.heap _ _ hfound key value hvalue)
      (hgrounded'.heap _ _ hfound' key value' hvalue'))

theorem Exports.Alike.into {ref ref' : RecordRef} {record record' : Record}
    (hrecord : store.record? ref = some record) (hrecord' : store'.record? ref' = some record')
    (hrel : Option.Rel (Exports.Alike pairing) record.exports? record'.exports?) :
    Option.Rel (Exports.Alike pairing') record.exports? record'.exports? := by
  refine rel_imp hrel (fun exports exports' hfound hfound' halike => ⟨?_, halike.started⟩)
  exact halike.value.into hinto hupright hupright' (hgrounded.exports ref record exports hrecord hfound)
    (hgrounded'.exports ref' record' exports' hrecord' hfound')

theorem Cell.Alike.into {cell cell' : CellRef} {found found' : Cell}
    (hfound : store.cell? cell = some found) (hfound' : store'.cell? cell' = some found')
    (hrecord : pairing'.record found.record found'.record) (halike : found.Alike pairing found') :
    found.Alike pairing' found' where
  record := hrecord
  owner := halike.owner
  name := halike.name
  value := rel_imp halike.value (fun value value' hvalue hvalue' hsame =>
    hsame.into hinto hupright hupright' (hgrounded.cell cell found value hfound hvalue)
      (hgrounded'.cell cell' found' value' hfound' hvalue'))

end Into

end Linkage
