import Linkage.Proofs.Alike.Basic
import Linkage.Proofs.Runs.Namespaces

/-!
# Stores that are alike

Two stores are alike if paired things are alike in them and modules that are compared have paired
records.  The numbers given next are paired too, so whatever is done to both, one thing after the
other, leaves them alike.  What is cached is not compared.

* `Store.Upright` : what holds of a store whatever is done to it.
* `Store.Cached` : nothing but what is cached has changed.
* `Heap.Alike`, `Store.Alike` : the relation; `Store.Resembles` leaves out what is made next.
* `Store.Alike.getOrCreate`, `Store.Alike.namespace_`, `Store.Alike.read` and their like : what the
  operations of a store make of it.
-/

namespace Linkage

/-! ## Stores in order -/

/-- Registered modules have their own records, and cached namespaces show them. -/
structure Store.Upright (store : Store) : Prop where
  named : store.Named
  current : store.Current

namespace Store.Upright

variable {store store' : Store}

theorem touch (hupright : store.Upright) (htouch : store.Touch store') : store'.Upright where
  named :=
    have hchange : Change ⟨[], [], store⟩ [] ⟨[], [], store'⟩ := .touch htouch
    hchange.named hupright.named
  current := hupright.current.touch hupright.named htouch

theorem modify (hupright : store.Upright) (ref : RecordRef) {f : Record → Record}
    (hid : ∀ record, (f record).id = record.id) : (store.modify ref f).Upright where
  named id found hlookup := by
    obtain ⟨record, hrecord, rfl⟩ := hupright.named id found hlookup
    rw [record?_modify, hrecord]
    split
    · exact ⟨f record, rfl, hid record⟩
    · exact ⟨record, rfl, rfl⟩
  current := hupright.current.mono rfl rfl (fun _ _ hlookup => hlookup)

theorem declare (hupright : store.Upright) (ref : RecordRef) (owner : ModuleId) (name : String) :
    (store.declare ref owner name).2.Upright := by
  have hpushed : Upright { store with cells := store.cells.push ⟨ref, owner, name, none⟩ } :=
    ⟨hupright.named, hupright.current.mono rfl rfl (fun _ _ hlookup => hlookup)⟩
  exact hpushed.modify ref (fun _ => rfl)

theorem clear (hupright : store.Upright) : store.clear.Upright where
  named id ref hlookup := by simp at hlookup
  current := ⟨hupright.current.used, fun _ hmem => by cases hmem⟩

/-- A registered module is found. -/
theorem find (hupright : store.Upright) {id : ModuleId} {ref : RecordRef}
    (hlookup : store.lookup? id = some ref) :
    ∃ record, store.Registered id ref record ∧ record.id = id := by
  obtain ⟨record, hrecord, hid⟩ := hupright.named id ref hlookup
  exact ⟨record, ⟨hlookup, hrecord⟩, hid⟩

end Store.Upright

/-! ## Caching -/

/-- Nothing but what is cached has changed. -/
structure Store.Cached (store next : Store) : Prop where
  heap : next.heap = store.heap
  records : next.records = store.records
  cells : next.cells = store.cells
  registry : next.registry = store.registry
  upright : store.Upright → next.Upright

namespace Store

variable {store next : Store}

theorem Cached.refl (store : Store) : store.Cached store := ⟨rfl, rfl, rfl, rfl, id⟩

theorem Cached.trans {last : Store} (hnext : store.Cached next) (hlast : next.Cached last) :
    store.Cached last where
  heap := hlast.heap.trans hnext.heap
  records := hlast.records.trans hnext.records
  cells := hlast.cells.trans hnext.cells
  registry := hlast.registry.trans hnext.registry
  upright hupright := hlast.upright (hnext.upright hupright)

namespace Cached

variable (hcached : store.Cached next)
include hcached

theorem record?_eq (ref : RecordRef) : next.record? ref = store.record? ref := by
  unfold record?
  rw [hcached.records]

theorem cell?_eq (ref : CellRef) : next.cell? ref = store.cell? ref := by
  unfold cell?
  rw [hcached.cells]

theorem lookup?_eq (id : ModuleId) : next.lookup? id = store.lookup? id := by
  unfold lookup?
  rw [hcached.registry]

end Cached

theorem cached_namespace_ (store : Store) (id : ModuleId) (requester? : Option ModuleId) :
    store.Cached (store.namespace_ id requester?).2 := by
  have hupright : store.Upright → (store.namespace_ id requester?).2.Upright :=
    fun hupright => hupright.touch (.space id requester?)
  rcases store.namespace_cases id requester? with
    ⟨_, -, -, -, heq⟩ | ⟨_, _, -, heq⟩ | ⟨-, heq⟩ <;>
  · rw [heq] at hupright ⊢
    exact ⟨rfl, rfl, rfl, rfl, hupright⟩

theorem cached_read (store : Store) (binding : Binding) (requester? : Option ModuleId) :
    store.Cached (store.read binding requester?).2 := by
  cases binding with
  | cell | exports => exact .refl store
  | star id => exact store.cached_namespace_ id requester?

end Store

/-! ## Heaps -/

variable {pairing : Pairing}

/-- Paired objects have properties that are alike. -/
structure Heap.Alike (pairing : Pairing) (heap heap' : Heap) : Prop where
  object : ∀ {ref ref'}, pairing.object ref ref' →
    Option.Rel (Table.Alike (Value.Alike pairing)) heap.objects[ref.index]?
      heap'.objects[ref'.index]?
  fresh : ∀ more, pairing.object ⟨heap.size + more⟩ ⟨heap'.size + more⟩

namespace Heap

variable {heap heap' : Heap} {ref ref' : ObjectRef} {value value' : Value}

theorem Alike.properties (halike : heap.Alike pairing heap') (href : pairing.object ref ref') :
    (heap.properties ref).Alike (Value.Alike pairing) (heap'.properties ref') := by
  unfold Heap.properties
  rcases rel_cases (halike.object href) with
    ⟨hnone, hnone'⟩ | ⟨_, _, hsome, hsome', hproperties⟩
  · rw [hnone, hnone']
    exact Table.alike_empty
  · rw [hsome, hsome']
    exact hproperties

theorem Alike.get (halike : heap.Alike pairing heap') (href : pairing.object ref ref')
    (key : String) : Option.Rel (Value.Alike pairing) (heap.get? ref key) (heap'.get? ref' key) :=
  halike.properties href key

theorem Alike.getD (halike : heap.Alike pairing heap') (href : pairing.object ref ref')
    (key : String) : ((heap.get? ref key).getD .undefined).Alike pairing
      ((heap'.get? ref' key).getD .undefined) := by
  rcases rel_cases (halike.get href key) with ⟨hnone, hnone'⟩ | ⟨_, _, hsome, hsome', hvalue⟩
  · rw [hnone, hnone']
    exact .undefined
  · rw [hsome, hsome']
    exact hvalue

theorem Alike.read (halike : heap.Alike pairing heap') (hvalue : value.Alike pairing value')
    (key : String) : (heap.read value key).Alike pairing (heap'.read value' key) := by
  unfold Heap.read
  rcases rel_cases hvalue.toObject with ⟨hnone, hnone'⟩ | ⟨_, _, hsome, hsome', href⟩
  · rw [hnone, hnone']
    exact .undefined
  · rw [hsome, hsome']
    exact halike.getD href key

/-- The number that comes next is that of no object there is. -/
theorem Alike.fresh_iff (halike : heap.Alike pairing heap') (href : pairing.object ref ref') :
    ref.index = heap.objects.size ↔ ref'.index = heap'.objects.size := by
  have hfresh := pairing.object_iff href (halike.fresh 0)
  cases ref
  cases ref'
  simpa [Heap.size] using hfresh

theorem Alike.alloc (halike : heap.Alike pairing heap') {properties properties' : Table Value}
    (hproperties : properties.Alike (Value.Alike pairing) properties') :
    pairing.object (heap.alloc properties).1 (heap'.alloc properties').1 ∧
      (heap.alloc properties).2.Alike pairing (heap'.alloc properties').2 := by
  refine ⟨halike.fresh 0, fun {ref ref'} href => ?_, fun more => ?_⟩
  · show Option.Rel _ (heap.objects.push properties)[ref.index]?
      (heap'.objects.push properties')[ref'.index]?
    rw [Array.getElem?_push, Array.getElem?_push]
    by_cases hindex : ref.index = heap.objects.size
    · rw [if_pos hindex, if_pos ((halike.fresh_iff href).mp hindex)]
      exact .some hproperties
    · rw [if_neg hindex, if_neg (fun hsame => hindex ((halike.fresh_iff href).mpr hsame))]
      exact halike.object href
  · show pairing.object ⟨(heap.objects.push properties).size + more⟩
      ⟨(heap'.objects.push properties').size + more⟩
    rw [Array.size_push, Array.size_push, Nat.add_assoc, Nat.add_assoc, Nat.add_comm 1]
    exact halike.fresh (more + 1)

theorem Alike.set (halike : heap.Alike pairing heap') (href : pairing.object ref ref')
    (key : String) (hvalue : value.Alike pairing value') :
    (heap.set ref key value).Alike pairing (heap'.set ref' key value') := by
  refine ⟨fun {other other'} hother => ?_, fun more => ?_⟩
  · show Option.Rel _ (heap.objects.modify _ _)[other.index]?
      (heap'.objects.modify _ _)[other'.index]?
    rw [Array.getElem?_modify, Array.getElem?_modify]
    have hiff : ref.index = other.index ↔ ref'.index = other'.index := by
      have hsame := pairing.object_iff href hother
      cases ref; cases ref'; cases other; cases other'
      simpa using hsame
    by_cases hindex : ref.index = other.index
    · rw [if_pos hindex, if_pos (hiff.mp hindex)]
      exact rel_map (halike.object hother) (fun _ _ hproperties => hproperties.insert key hvalue)
    · rw [if_neg hindex, if_neg (fun hsame => hindex (hiff.mpr hsame))]
      exact halike.object hother
  · show pairing.object ⟨(heap.objects.modify _ _).size + more⟩
      ⟨(heap'.objects.modify _ _).size + more⟩
    rw [Array.size_modify, Array.size_modify]
    exact halike.fresh more

theorem alike_same (heap : Heap) : heap.Alike .same heap where
  object := by
    rintro ref _ rfl
    exact rel_refl (Table.alike_refl Value.alike_same) _
  fresh _ := rfl

end Heap

mutual

/-- A JSON value becomes the same in both heaps. -/
theorem Value.alike_ofJson (json : Json) {heap heap' : Heap} (halike : heap.Alike pairing heap') :
    (Value.ofJson json heap).1.Alike pairing (Value.ofJson json heap').1 ∧
      (Value.ofJson json heap).2.Alike pairing (Value.ofJson json heap').2 := by
  cases json with
  | null => exact ⟨.null, halike⟩
  | bool value => exact ⟨.boolean value, halike⟩
  | int value => exact ⟨.number _, halike⟩
  | float value => exact ⟨.number value, halike⟩
  | str value => exact ⟨.text value, halike⟩
  | arr items =>
      obtain ⟨hproperties, hitems⟩ := Value.alike_ofItems items 0 Table.alike_empty halike
      obtain ⟨href, hheap⟩ := hitems.alloc
        (hproperties.insert "length" (.number (Float.ofNat items.length)))
      exact ⟨.object href, hheap⟩
  | obj members =>
      obtain ⟨hproperties, hmembers⟩ := Value.alike_ofMembers members Table.alike_empty halike
      obtain ⟨href, hheap⟩ := hmembers.alloc hproperties
      exact ⟨.object href, hheap⟩

theorem Value.alike_ofItems (items : List Json) (position : Nat)
    {properties properties' : Table Value}
    (hproperties : properties.Alike (Value.Alike pairing) properties') {heap heap' : Heap}
    (halike : heap.Alike pairing heap') :
    (Value.ofItems items position properties heap).1.Alike (Value.Alike pairing)
        (Value.ofItems items position properties' heap').1 ∧
      (Value.ofItems items position properties heap).2.Alike pairing
        (Value.ofItems items position properties' heap').2 := by
  cases items with
  | nil => exact ⟨hproperties, halike⟩
  | cons item rest =>
      obtain ⟨hvalue, hitem⟩ := Value.alike_ofJson item halike
      exact Value.alike_ofItems rest (position + 1) (hproperties.insert _ hvalue) hitem

theorem Value.alike_ofMembers (members : List (String × Json)) {properties properties' : Table Value}
    (hproperties : properties.Alike (Value.Alike pairing) properties') {heap heap' : Heap}
    (halike : heap.Alike pairing heap') :
    (Value.ofMembers members properties heap).1.Alike (Value.Alike pairing)
        (Value.ofMembers members properties' heap').1 ∧
      (Value.ofMembers members properties heap).2.Alike pairing
        (Value.ofMembers members properties' heap').2 := by
  cases members with
  | nil => exact ⟨hproperties, halike⟩
  | cons member rest =>
      obtain ⟨key, json⟩ := member
      obtain ⟨hvalue, hmember⟩ := Value.alike_ofJson json halike
      exact Value.alike_ofMembers rest (hproperties.insert key hvalue) hmember

end

/-! ## Stores -/

/-- Paired things are alike in two stores. -/
structure Store.Resembles (pairing : Pairing) (store store' : Store) : Prop where
  object : ∀ {ref ref'}, pairing.object ref ref' →
    Option.Rel (Table.Alike (Value.Alike pairing)) store.heap.objects[ref.index]?
      store'.heap.objects[ref'.index]?
  record : ∀ {ref ref'}, pairing.record ref ref' →
    Option.Rel (Record.Alike pairing) (store.record? ref) (store'.record? ref')
  cell : ∀ {ref ref'}, pairing.cell ref ref' →
    Option.Rel (Cell.Alike pairing) (store.cell? ref) (store'.cell? ref')
  lookup : ∀ {id}, pairing.covers id →
    Option.Rel pairing.record (store.lookup? id) (store'.lookup? id)
  upright : store.Upright
  upright' : store'.Upright

/-- Paired things are alike in two stores, and so is what is made next. -/
structure Store.Alike (pairing : Pairing) (store store' : Store) : Prop where
  heap : store.heap.Alike pairing store'.heap
  record : ∀ {ref ref'}, pairing.record ref ref' →
    Option.Rel (Record.Alike pairing) (store.record? ref) (store'.record? ref')
  cell : ∀ {ref ref'}, pairing.cell ref ref' →
    Option.Rel (Cell.Alike pairing) (store.cell? ref) (store'.cell? ref')
  lookup : ∀ {id}, pairing.covers id →
    Option.Rel pairing.record (store.lookup? id) (store'.lookup? id)
  freshRecord : ∀ more, pairing.record ⟨store.records.size + more⟩ ⟨store'.records.size + more⟩
  freshCell : ∀ more, pairing.cell ⟨store.cells.size + more⟩ ⟨store'.cells.size + more⟩
  upright : store.Upright
  upright' : store'.Upright

namespace Store

variable {store store' : Store} {ref ref' : RecordRef}

theorem alike_same (hupright : store.Upright) : store.Alike .same store where
  heap := store.heap.alike_same
  record := by
    rintro ref _ rfl
    exact rel_refl Record.alike_same _
  cell := by
    rintro ref _ rfl
    exact rel_refl Cell.alike_same _
  lookup _ := rel_refl (fun _ => rfl) _
  freshRecord _ := rfl
  freshCell _ := rfl
  upright := hupright
  upright' := hupright

theorem Alike.resembles (halike : store.Alike pairing store') : store.Resembles pairing store' :=
  ⟨halike.heap.object, halike.record, halike.cell, halike.lookup, halike.upright, halike.upright'⟩

/-! ### Looking things up -/

namespace Resembles

/-- A module that is compared is registered in neither store, or in both with records that are
alike. -/
theorem registered (hresembles : store.Resembles pairing store') {id : ModuleId}
    (hcovered : pairing.covers id) :
    (store.lookup? id = none ∧ store'.lookup? id = none ∧ store.find? id = none ∧
        store'.find? id = none) ∨
      ∃ ref ref' record record', pairing.record ref ref' ∧ record.Alike pairing record' ∧
        store.Registered id ref record ∧ store'.Registered id ref' record' ∧ record.id = id := by
  cases hlookup : store.lookup? id with
  | none =>
      have hrel := hresembles.lookup hcovered
      rw [hlookup] at hrel
      have hlookup' : store'.lookup? id = none := by
        generalize store'.lookup? id = found' at hrel
        cases hrel
        rfl
      exact .inl ⟨rfl, hlookup', by rw [find?, hlookup]; rfl, by rw [find?, hlookup']; rfl⟩
  | some ref =>
      obtain ⟨ref', hlookup', href⟩ := rel_some (hresembles.lookup hcovered) hlookup
      obtain ⟨record, hregistered, hid⟩ := hresembles.upright.find hlookup
      obtain ⟨record', hrecord', hrecord⟩ := rel_some (hresembles.record href) hregistered.record
      exact .inr ⟨ref, ref', record, record', href, hrecord, hregistered, ⟨hlookup', hrecord'⟩, hid⟩

theorem ownCell (hresembles : store.Resembles pairing store') {record record' : Record}
    (hrecord : record.Alike pairing record') (name : String) :
    Option.Rel pairing.cell (store.ownCell? record name) (store'.ownCell? record' name) := by
  unfold ownCell?
  rcases rel_cases (hrecord.environment name) with
    ⟨hnone, hnone'⟩ | ⟨_, _, hsome, hsome', hbinding⟩
  · rw [hnone, hnone']
    exact .none
  · rw [hsome, hsome']
    cases hbinding with
    | star | exports => exact .none
    | cell href =>
        dsimp only
        rw [rel_map_eq (hresembles.cell href) (fun _ _ hcell => hcell.owner), hrecord.id]
        split
        · exact .some href
        · exact .none

end Resembles

namespace Alike

theorem registered (halike : store.Alike pairing store') {id : ModuleId}
    (hcovered : pairing.covers id) :
    (store.lookup? id = none ∧ store'.lookup? id = none ∧ store.find? id = none ∧
        store'.find? id = none) ∨
      ∃ ref ref' record record', pairing.record ref ref' ∧ record.Alike pairing record' ∧
        store.Registered id ref record ∧ store'.Registered id ref' record' ∧ record.id = id :=
  halike.resembles.registered hcovered

theorem find (halike : store.Alike pairing store') {id : ModuleId} (hcovered : pairing.covers id) :
    Option.Rel (Record.Alike pairing) (store.find? id) (store'.find? id) := by
  rcases halike.registered hcovered with
    ⟨-, -, hnone, hnone'⟩ | ⟨_, _, _, _, -, hrecord, hregistered, hregistered', -⟩
  · rw [hnone, hnone']
    exact .none
  · rw [hregistered.find, hregistered'.find]
    exact .some hrecord

theorem binding (halike : store.Alike pairing store') (href : pairing.record ref ref')
    (name : String) : Option.Rel (Binding.Alike pairing) (store.binding? ref name)
      (store'.binding? ref' name) :=
  rel_bind (halike.record href) (fun _ _ hrecord => hrecord.environment name)

theorem ownCell (halike : store.Alike pairing store') {record record' : Record}
    (hrecord : record.Alike pairing record') (name : String) :
    Option.Rel pairing.cell (store.ownCell? record name) (store'.ownCell? record' name) :=
  halike.resembles.ownCell hrecord name

/-! ### Changing one thing -/

theorem modify (halike : store.Alike pairing store') (href : pairing.record ref ref')
    {f f' : Record → Record}
    (hsame : ∀ record record', record.Alike pairing record' → (f record).Alike pairing (f' record'))
    (hid : ∀ record, (f record).id = record.id) (hid' : ∀ record, (f' record).id = record.id) :
    (store.modify ref f).Alike pairing (store'.modify ref' f') where
  heap := halike.heap
  record := by
    intro other other' hother
    rw [record?_modify, record?_modify]
    by_cases hsameRef : other = ref
    · rw [if_pos hsameRef, if_pos ((pairing.record_iff hother href).mp hsameRef)]
      exact rel_map (halike.record hother) hsame
    · rw [if_neg hsameRef,
        if_neg (fun heq => hsameRef ((pairing.record_iff hother href).mpr heq))]
      exact halike.record hother
  cell := halike.cell
  lookup := halike.lookup
  freshRecord more := by
    show pairing.record ⟨(store.records.modify _ _).size + more⟩
      ⟨(store'.records.modify _ _).size + more⟩
    rw [Array.size_modify, Array.size_modify]
    exact halike.freshRecord more
  freshCell := halike.freshCell
  upright := halike.upright.modify ref hid
  upright' := halike.upright'.modify ref' hid'

theorem setStatus (halike : store.Alike pairing store') (href : pairing.record ref ref')
    (status : Status) : (store.setStatus ref status).Alike pairing (store'.setStatus ref' status) :=
  halike.modify href (fun _ _ hrecord => { hrecord with status := rfl }) (fun _ => rfl)
    (fun _ => rfl)

theorem bind (halike : store.Alike pairing store') (href : pairing.record ref ref') (name : String)
    {binding binding' : Binding} (hbinding : binding.Alike pairing binding') :
    (store.bind ref name binding).Alike pairing (store'.bind ref' name binding') :=
  halike.modify href
    (fun _ _ hrecord => { hrecord with environment := hrecord.environment.insert name hbinding })
    (fun _ => rfl) (fun _ => rfl)

theorem writeCell (halike : store.Alike pairing store') {cell cell' : CellRef}
    (hcell : pairing.cell cell cell') {value value' : Value} (hvalue : value.Alike pairing value') :
    (store.writeCell cell value).Alike pairing (store'.writeCell cell' value') where
  heap := halike.heap
  record := halike.record
  cell := by
    intro other other' hother
    rw [cell?_writeCell, cell?_writeCell]
    by_cases hsame : other = cell
    · rw [if_pos hsame, if_pos ((pairing.cell_iff hother hcell).mp hsame)]
      exact rel_map (halike.cell hother) (fun _ _ hfound => { hfound with value := .some hvalue })
    · rw [if_neg hsame, if_neg (fun heq => hsame ((pairing.cell_iff hother hcell).mpr heq))]
      exact halike.cell hother
  lookup := halike.lookup
  freshRecord := halike.freshRecord
  freshCell more := by
    show pairing.cell ⟨(store.cells.modify _ _).size + more⟩
      ⟨(store'.cells.modify _ _).size + more⟩
    rw [Array.size_modify, Array.size_modify]
    exact halike.freshCell more
  upright := halike.upright.touch (.write cell value)
  upright' := halike.upright'.touch (.write cell' value')

theorem withHeap (halike : store.Alike pairing store') {heap heap' : Heap}
    (hheap : heap.Alike pairing heap') :
    Alike pairing { store with heap } { store' with heap := heap' } :=
  { halike with
    heap := hheap
    upright := halike.upright.touch (.heap heap)
    upright' := halike.upright'.touch (.heap heap') }

theorem clear (halike : store.Alike pairing store') : store.clear.Alike pairing store'.clear :=
  { halike with
    lookup := fun _ => .none
    upright := halike.upright.clear
    upright' := halike.upright'.clear }

/-! ### Making something -/

theorem fresh_record_iff (halike : store.Alike pairing store') (href : pairing.record ref ref') :
    ref.index = store.records.size ↔ ref'.index = store'.records.size := by
  have hfresh := pairing.record_iff href (halike.freshRecord 0)
  cases ref
  cases ref'
  simpa using hfresh

theorem fresh_cell_iff (halike : store.Alike pairing store') {cell cell' : CellRef}
    (hcell : pairing.cell cell cell') :
    cell.index = store.cells.size ↔ cell'.index = store'.cells.size := by
  have hfresh := pairing.cell_iff hcell (halike.freshCell 0)
  cases cell
  cases cell'
  simpa using hfresh

/-- A module that neither store has is registered in both. -/
theorem register (halike : store.Alike pairing store') {record record' : Record}
    (hrecord : record.Alike pairing record') (hupright : (store.register record).2.Upright)
    (hupright' : (store'.register record').2.Upright) :
    pairing.record (store.register record).1 (store'.register record').1 ∧
      (store.register record).2.Alike pairing (store'.register record').2 := by
  refine ⟨halike.freshRecord 0, { halike with
    record := fun {ref ref'} href => ?_
    lookup := fun {id} hcovered => ?_
    freshRecord := fun more => ?_
    upright := hupright
    upright' := hupright' }⟩
  · rw [record?_register, record?_register]
    by_cases hindex : ref.index = store.records.size
    · rw [if_pos hindex, if_pos ((halike.fresh_record_iff href).mp hindex)]
      exact .some hrecord
    · rw [if_neg hindex, if_neg (fun hsame => hindex ((halike.fresh_record_iff href).mpr hsame))]
      exact halike.record href
  · rw [lookup?_register, lookup?_register, hrecord.id]
    split
    · exact .some (halike.freshRecord 0)
    · exact halike.lookup hcovered
  · show pairing.record ⟨(store.records.push _).size + more⟩ ⟨(store'.records.push _).size + more⟩
    rw [Array.size_push, Array.size_push, Nat.add_assoc, Nat.add_assoc, Nat.add_comm 1]
    exact halike.freshRecord (more + 1)

theorem getOrCreate (halike : store.Alike pairing store') {id : ModuleId}
    (hcovered : pairing.covers id) (format : Format) :
    pairing.record (store.getOrCreate id format).1 (store'.getOrCreate id format).1 ∧
      (store.getOrCreate id format).2.Alike pairing (store'.getOrCreate id format).2 := by
  have hupright := halike.upright.touch (.register id format)
  have hupright' := halike.upright'.touch (.register id format)
  unfold Store.getOrCreate at hupright hupright' ⊢
  cases hlookup : store.lookup? id with
  | some ref =>
      obtain ⟨ref', hlookup', href⟩ := rel_some (halike.lookup hcovered) hlookup
      rw [hlookup']
      exact ⟨href, halike⟩
  | none =>
      have hnone := halike.lookup hcovered
      rw [hlookup] at hnone hupright
      generalize store'.lookup? id = found' at hnone hupright'
      cases hnone
      have hfresh : ∀ {value? value'? : Option Exports},
          Option.Rel (Exports.Alike pairing) value? value'? →
          Record.Alike pairing { Record.modern id with exports? := value? }
            { Record.modern id with exports? := value'? } := fun hexports =>
        ⟨rfl, rfl, rfl, rfl, rfl, rfl, hexports, Table.alike_empty, nofun⟩
      cases format with
      | modern => exact halike.register (hfresh .none) hupright hupright'
      | legacy =>
          obtain ⟨href, hheap⟩ := halike.heap.alloc (Table.alike_empty (R := Value.Alike pairing))
          exact (halike.withHeap hheap).register (hfresh (.some ⟨.object href, rfl⟩)) hupright
            hupright'

theorem declare (halike : store.Alike pairing store') (href : pairing.record ref ref')
    (owner : ModuleId) (name : String) :
    pairing.cell (store.declare ref owner name).1 (store'.declare ref' owner name).1 ∧
      (store.declare ref owner name).2.Alike pairing (store'.declare ref' owner name).2 := by
  have hnew : pairing.cell ⟨store.cells.size⟩ ⟨store'.cells.size⟩ := halike.freshCell 0
  have hpushed : Alike pairing
      { store with cells := store.cells.push ⟨ref, owner, name, none⟩ }
      { store' with cells := store'.cells.push ⟨ref', owner, name, none⟩ } := by
    refine { halike with
      cell := fun {cell cell'} hcell => ?_
      freshCell := fun more => ?_
      upright := ⟨halike.upright.named,
        halike.upright.current.mono rfl rfl (fun _ _ hlookup => hlookup)⟩
      upright' := ⟨halike.upright'.named,
        halike.upright'.current.mono rfl rfl (fun _ _ hlookup => hlookup)⟩ }
    · show Option.Rel _ (store.cells.push _)[cell.index]? (store'.cells.push _)[cell'.index]?
      rw [Array.getElem?_push, Array.getElem?_push]
      by_cases hindex : cell.index = store.cells.size
      · rw [if_pos hindex, if_pos ((halike.fresh_cell_iff hcell).mp hindex)]
        exact .some ⟨href, rfl, rfl, .none⟩
      · rw [if_neg hindex, if_neg (fun hsame => hindex ((halike.fresh_cell_iff hcell).mpr hsame))]
        exact halike.cell hcell
    · show pairing.cell ⟨(store.cells.push _).size + more⟩ ⟨(store'.cells.push _).size + more⟩
      rw [Array.size_push, Array.size_push, Nat.add_assoc, Nat.add_assoc, Nat.add_comm 1]
      exact halike.freshCell (more + 1)
  exact ⟨hnew, hpushed.modify href
    (fun _ _ hrecord => { hrecord with environment := hrecord.environment.insert name (.cell hnew) })
    (fun _ => rfl) (fun _ => rfl)⟩

/-! ### Namespaces -/

/-- What is cached on either side is not compared. -/
theorem cached (halike : store.Alike pairing store') {next next' : Store}
    (hnext : store.Cached next) (hnext' : store'.Cached next') : next.Alike pairing next' where
  heap := by
    rw [hnext.heap, hnext'.heap]
    exact halike.heap
  record href := by
    rw [hnext.record?_eq, hnext'.record?_eq]
    exact halike.record href
  cell href := by
    rw [hnext.cell?_eq, hnext'.cell?_eq]
    exact halike.cell href
  lookup hcovered := by
    rw [hnext.lookup?_eq, hnext'.lookup?_eq]
    exact halike.lookup hcovered
  freshRecord := by
    rw [hnext.records, hnext'.records]
    exact halike.freshRecord
  freshCell := by
    rw [hnext.cells, hnext'.cells]
    exact halike.freshCell
  upright := hnext.upright halike.upright
  upright' := hnext'.upright halike.upright'

end Alike

/-- The namespace that a module gives shows its record. -/
theorem Upright.namespace_ (hupright : store.Upright) {id : ModuleId} {record : Record}
    (hregistered : store.Registered id ref record) (requester? : Option ModuleId) :
    ∃ found, (store.namespace_ id requester?).1 = .ok found ∧ found.record = ref ∧
      found.id = id ∧ found.requester? = requester? := by
  rcases store.namespace_cases id requester? with
    ⟨cached, hmem, rfl, rfl, heq⟩ | ⟨_, _, hregistered', heq⟩ | ⟨hnone, -⟩
  · obtain ⟨hid, hrequester, hlookup⟩ := hupright.current.cached cached hmem
    rw [heq]
    exact ⟨_, rfl, Option.some.inj (hlookup.symm.trans hregistered.lookup), hid, hrequester⟩
  · obtain ⟨rfl, rfl⟩ := hregistered.unique hregistered'
    obtain ⟨record', hrecord', rfl⟩ := hupright.named id _ hregistered.lookup
    obtain rfl := Option.some.inj (hrecord'.symm.trans hregistered.record)
    rw [heq]
    exact ⟨_, rfl, rfl, rfl, rfl⟩
  · rw [hregistered.find] at hnone
    cases hnone

namespace Alike

theorem namespace_ (halike : store.Alike pairing store') {id : ModuleId}
    (hcovered : pairing.covers id) (requester? : Option ModuleId) :
    Matches (Namespace.Alike pairing) (store.namespace_ id requester?).1
        (store'.namespace_ id requester?).1 ∧
      (store.namespace_ id requester?).2.Alike pairing (store'.namespace_ id requester?).2 := by
  refine ⟨?_, halike.cached (store.cached_namespace_ id requester?)
    (store'.cached_namespace_ id requester?)⟩
  rcases halike.registered hcovered with
    ⟨hlookup, hlookup', hnone, hnone'⟩ | ⟨_, _, _, _, href, -, hregistered, hregistered', -⟩
  · have hdetached : ∀ {store : Store}, store.Upright → store.lookup? id = none →
        (store.namespace_ id requester?).1 = .error (.detached id) := by
      intro store hupright hlookup
      rcases store.namespace_cases id requester? with
        ⟨cached, hmem, rfl, rfl, -⟩ | ⟨_, _, hregistered, -⟩ | ⟨-, heq⟩
      · obtain ⟨-, -, hfound⟩ := hupright.current.cached cached hmem
        cases hlookup.symm.trans hfound
      · cases hlookup.symm.trans hregistered.lookup
      · rw [heq]
    rw [hdetached halike.upright hlookup, hdetached halike.upright' hlookup']
    exact .error _
  · obtain ⟨found, hfound, rfl, hid, hrequester⟩ :=
      halike.upright.namespace_ hregistered requester?
    obtain ⟨found', hfound', rfl, hid', hrequester'⟩ :=
      halike.upright'.namespace_ hregistered' requester?
    rw [hfound, hfound']
    exact .ok ⟨href, hid.trans hid'.symm, hrequester.trans hrequester'.symm, hid ▸ hcovered⟩

/-- A namespace as a value. -/
theorem space (halike : store.Alike pairing store') {id : ModuleId}
    (hcovered : pairing.covers id) (requester? : Option ModuleId) :
    Matches (Value.Alike pairing) ((store.namespace_ id requester?).1.map Value.space)
      ((store'.namespace_ id requester?).1.map Value.space) := by
  rcases (halike.namespace_ hcovered requester?).1.elim with
    ⟨error, herror, herror'⟩ | ⟨_, _, hok, hok', hfound⟩
  · rw [herror, herror']
    exact .error error
  · rw [hok, hok']
    exact .ok (.space hfound)

/-- A namespace can be read in both stores or in neither. -/
theorem isAttached (halike : store.Alike pairing store') {found found' : Namespace}
    (hfound : found.Alike pairing found') :
    store.isAttached found = store'.isAttached found' := by
  unfold Store.isAttached
  rw [halike.upright.current.used, halike.upright'.current.used, ← hfound.id]
  congr 1
  rcases rel_cases (halike.lookup hfound.covered) with
    ⟨hnone, hnone'⟩ | ⟨_, _, hsome, hsome', href⟩
  · rw [hnone, hnone']
    rfl
  · rw [hsome, hsome', Bool.eq_iff_iff, beq_iff_eq, beq_iff_eq, Option.some_inj, Option.some_inj]
    exact pairing.record_iff href hfound.record

/-! ### Reading -/

theorem readCell (halike : store.Alike pairing store') {cell cell' : CellRef}
    (hcell : pairing.cell cell cell') :
    Matches (Value.Alike pairing) (store.readCell cell) (store'.readCell cell') := by
  unfold Store.readCell
  rcases rel_cases (halike.cell hcell) with ⟨hnone, hnone'⟩ | ⟨_, _, hsome, hsome', hfound⟩
  · rw [hnone, hnone']
    exact .ok .undefined
  · rw [hsome, hsome']
    dsimp only
    rw [rel_bind_eq (halike.record hfound.record) (fun _ _ hrecord => hrecord.poison),
      hfound.owner, hfound.name]
    generalize (store'.record? _).bind (·.poison?) = poison?
    cases poison? with
    | some error => exact .error error
    | none =>
        rcases rel_cases hfound.value with ⟨hnone, hnone'⟩ | ⟨_, _, hsome, hsome', hvalue⟩
        · rw [hnone, hnone']
          exact .error _
        · rw [hsome, hsome']
          exact .ok hvalue

theorem readExports (halike : store.Alike pairing store') (href : pairing.record ref ref')
    (property? : Option String) :
    Matches (Value.Alike pairing) (store.readExports ref property?)
      (store'.readExports ref' property?) := by
  unfold Store.readExports
  rcases rel_cases (halike.record href) with
    ⟨hnone, hnone'⟩ | ⟨record, _, hsome, hsome', hrecord⟩
  · rw [hnone, hnone']
    exact .ok .undefined
  · rw [hsome, hsome']
    dsimp only
    rw [← hrecord.poison, ← hrecord.id]
    cases record.poison? with
    | some error => exact .error error
    | none =>
        rcases rel_cases hrecord.exports with
          ⟨hnone, hnone'⟩ | ⟨_, _, hsome, hsome', hexports⟩
        · rw [hnone, hnone']
          exact .ok .undefined
        · rw [hsome, hsome']
          dsimp only
          rw [hexports.started]
          split
          · exact .error _
          · cases property? with
            | none => exact .ok hexports.value
            | some name => exact .ok (halike.heap.read hexports.value name)

theorem read (halike : store.Alike pairing store') {binding binding' : Binding}
    (hbinding : binding.Alike pairing binding') (requester? : Option ModuleId) :
    Matches (Value.Alike pairing) (store.read binding requester?).1
        (store'.read binding' requester?).1 ∧
      (store.read binding requester?).2.Alike pairing (store'.read binding' requester?).2 := by
  cases hbinding with
  | cell hcell => exact ⟨halike.readCell hcell, halike⟩
  | exports href property? => exact ⟨halike.readExports href property?, halike⟩
  | star hcovered =>
      exact ⟨halike.space hcovered requester?, (halike.namespace_ hcovered requester?).2⟩

end Alike

end Store

end Linkage
