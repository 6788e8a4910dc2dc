import Linkage.Proofs.Alike.Stores

/-!
# Values that refer to what is there

Every value that a store holds, in a slot, as an exports value or as a property of an object, refers
to objects that have been made and to namespaces that are in the cache.  So what is made later is
referred to by nothing that was there before.

* `Value.Grounded`, `Heap.Grounded` : what a value may refer to.
* `Heap.Extends`, `Value.extends_ofJson` : literals refer to objects made for them, and leave the
  others as they are.
* `Store.Grounded` : all that a store holds is grounded.
-/

namespace Linkage

/-- A value refers to an object below a number, or to a namespace of some kind, if to any. -/
def Value.Grounded (size : Nat) (shows : Namespace → Prop) : Value → Prop
  | .object ref => ref.index < size
  | .space found => shows found
  | _ => True

/-- All values of a table are grounded. -/
def Table.Grounded (size : Nat) (shows : Namespace → Prop) (table : Table Value) : Prop :=
  ∀ key value, table.find? key = some value → value.Grounded size shows

/-- All properties of the objects of a heap are grounded there. -/
def Heap.Grounded (shows : Namespace → Prop) (heap : Heap) : Prop :=
  ∀ (index : Nat) (properties : Table Value), heap.objects[index]? = some properties →
    properties.Grounded heap.size shows

variable {size size' : Nat} {shows shows' : Namespace → Prop}

theorem Value.Grounded.mono {value : Value} (hvalue : value.Grounded size shows)
    (hsize : size ≤ size') (hshows : ∀ found, shows found → shows' found) :
    value.Grounded size' shows' := by
  cases value with
  | object ref => exact Nat.lt_of_lt_of_le hvalue hsize
  | space found => exact hshows found hvalue
  | _ => trivial

namespace Table.Grounded

variable {table : Table Value}

theorem mono (htable : table.Grounded size shows) (hsize : size ≤ size')
    (hshows : ∀ found, shows found → shows' found) : table.Grounded size' shows' :=
  fun key value hfind => (htable key value hfind).mono hsize hshows

theorem empty : (∅ : Table Value).Grounded size shows := by
  intro key value hfind
  cases hfind

theorem insert (htable : table.Grounded size shows) (key : String) {value : Value}
    (hvalue : value.Grounded size shows) : (table.insert key value).Grounded size shows := by
  intro other found hfind
  rw [find?_insert] at hfind
  split at hfind
  · exact Option.some.inj hfind ▸ hvalue
  · exact htable other found hfind

end Table.Grounded

/-! ## Heaps that grow -/

/-- The objects of a heap are as they were, and there may be more. -/
structure Heap.Extends (shows : Namespace → Prop) (heap heap' : Heap) : Prop where
  size : heap.size ≤ heap'.size
  object : ∀ index, index < heap.size → heap'.objects[index]? = heap.objects[index]?
  grounded : heap.Grounded shows → heap'.Grounded shows

namespace Heap

variable {heap heap' heap'' : Heap}

theorem Extends.refl (heap : Heap) : heap.Extends shows heap :=
  ⟨Nat.le_refl _, fun _ _ => rfl, fun hgrounded => hgrounded⟩

theorem Extends.trans (hfirst : heap.Extends shows heap') (hsecond : heap'.Extends shows heap'') :
    heap.Extends shows heap'' where
  size := Nat.le_trans hfirst.size hsecond.size
  object index hindex := by
    rw [hsecond.object index (Nat.lt_of_lt_of_le hindex hfirst.size), hfirst.object index hindex]
  grounded hgrounded := hsecond.grounded (hfirst.grounded hgrounded)

theorem Extends.properties (hextends : heap.Extends shows heap') {ref : ObjectRef}
    (href : ref.index < heap.size) : heap'.properties ref = heap.properties ref := by
  unfold Heap.properties
  rw [hextends.object ref.index href]

theorem size_alloc (heap : Heap) (properties : Table Value) :
    (heap.alloc properties).2.size = heap.size + 1 :=
  Array.size_push _

theorem extends_alloc (heap : Heap) {properties : Table Value}
    (hproperties : properties.Grounded heap.size shows) :
    heap.Extends shows (heap.alloc properties).2 where
  size := by
    rw [size_alloc]
    omega
  object index hindex := by
    show (heap.objects.push properties)[index]? = _
    rw [Array.getElem?_push]
    exact if_neg (Nat.ne_of_lt hindex)
  grounded hgrounded index found hfound := by
    change (heap.objects.push properties)[index]? = some found at hfound
    rw [size_alloc]
    refine Table.Grounded.mono ?_ (Nat.le_succ _) (fun _ hshown => hshown)
    rw [Array.getElem?_push] at hfound
    split at hfound
    · exact Option.some.inj hfound ▸ hproperties
    · exact hgrounded index found hfound

/-- Setting a property changes no other object. -/
theorem properties_set (heap : Heap) {ref other : ObjectRef} (hne : other ≠ ref) (key : String)
    (value : Value) : (heap.set ref key value).properties other = heap.properties other := by
  have hindex : ref.index ≠ other.index := fun hsame => hne (by cases ref; cases other; simp_all)
  show ((heap.objects.modify ref.index _)[other.index]?).getD {} = _
  rw [Array.getElem?_modify, if_neg hindex]
  rfl

theorem size_set (heap : Heap) (ref : ObjectRef) (key : String) (value : Value) :
    (heap.set ref key value).size = heap.size :=
  Array.size_modify

namespace Grounded

variable (hgrounded : heap.Grounded shows)
include hgrounded

theorem set (ref : ObjectRef) (key : String) {value : Value}
    (hvalue : value.Grounded heap.size shows) : (heap.set ref key value).Grounded shows := by
  intro index found hfound
  rw [size_set]
  change (heap.objects.modify ref.index _)[index]? = some found at hfound
  rw [Array.getElem?_modify] at hfound
  split at hfound
  · obtain ⟨properties, hproperties, rfl⟩ := Option.map_eq_some_iff.mp hfound
    exact (hgrounded index properties hproperties).insert key hvalue
  · exact hgrounded index found hfound

/-- A property that is read is grounded. -/
theorem get (ref : ObjectRef) (key : String) :
    ((heap.get? ref key).getD .undefined).Grounded heap.size shows := by
  unfold Heap.get? Heap.properties
  cases hobject : heap.objects[ref.index]? with
  | none => trivial
  | some properties =>
      rw [Option.getD_some]
      cases hfind : properties.find? key with
      | none => trivial
      | some value => exact hgrounded ref.index properties hobject key value hfind

theorem read (value : Value) (key : String) :
    (heap.read value key).Grounded heap.size shows := by
  unfold Heap.read
  cases value.toObject? with
  | none => trivial
  | some ref => exact hgrounded.get ref key

end Grounded

end Heap

/-- A value that is no namespace, and no object but one made since the heap had this size. -/
def Value.IsNew (size : Nat) (value : Value) : Prop :=
  value.toSpace? = none ∧ ∀ ref, value.toObject? = some ref → size ≤ ref.index

namespace Value

mutual

/-- A JSON value becomes objects of its own. -/
theorem extends_ofJson (json : Json) (heap : Heap) :
    heap.Extends shows (ofJson json heap).2 ∧
      (ofJson json heap).1.Grounded (ofJson json heap).2.size shows ∧
      (ofJson json heap).1.IsNew heap.size := by
  cases json with
  | null | bool | int | float | str => exact ⟨.refl heap, trivial, rfl, nofun⟩
  | arr items =>
      obtain ⟨hextends, hproperties⟩ := extends_ofItems items 0 {} heap .empty
      have hlength : (number (Float.ofNat items.length)).Grounded (ofItems items 0 {} heap).2.size shows :=
        trivial
      have hwhole := hproperties.insert "length" hlength
      refine ⟨hextends.trans (Heap.extends_alloc _ hwhole), ?_, rfl, ?_⟩
      · exact Nat.lt_of_lt_of_eq (Nat.lt_succ_self _) (Heap.size_alloc _ _).symm
      · rintro ref hsome
        obtain rfl := Option.some.inj hsome
        exact hextends.size
  | obj members =>
      obtain ⟨hextends, hproperties⟩ := extends_ofMembers members {} heap .empty
      refine ⟨hextends.trans (Heap.extends_alloc _ hproperties), ?_, rfl, ?_⟩
      · exact Nat.lt_of_lt_of_eq (Nat.lt_succ_self _) (Heap.size_alloc _ _).symm
      · rintro ref hsome
        obtain rfl := Option.some.inj hsome
        exact hextends.size

theorem extends_ofItems (items : List Json) (position : Nat) (properties : Table Value)
    (heap : Heap) (hproperties : properties.Grounded heap.size shows) :
    heap.Extends shows (ofItems items position properties heap).2 ∧
      (ofItems items position properties heap).1.Grounded
        (ofItems items position properties heap).2.size shows := by
  cases items with
  | nil => exact ⟨.refl heap, hproperties⟩
  | cons item rest =>
      obtain ⟨hextends, hvalue, -⟩ := extends_ofJson item heap
      have hmore := (hproperties.mono hextends.size (fun _ hshown => hshown)).insert
        (String.ofList (Nat.toDigits 10 position)) hvalue
      obtain ⟨hextends', hproperties'⟩ := extends_ofItems rest (position + 1) _ _ hmore
      exact ⟨hextends.trans hextends', hproperties'⟩

theorem extends_ofMembers (members : List (String × Json)) (properties : Table Value)
    (heap : Heap) (hproperties : properties.Grounded heap.size shows) :
    heap.Extends shows (ofMembers members properties heap).2 ∧
      (ofMembers members properties heap).1.Grounded
        (ofMembers members properties heap).2.size shows := by
  cases members with
  | nil => exact ⟨.refl heap, hproperties⟩
  | cons member rest =>
      obtain ⟨key, json⟩ := member
      obtain ⟨hextends, hvalue, -⟩ := extends_ofJson json heap
      have hmore := (hproperties.mono hextends.size (fun _ hshown => hshown)).insert key hvalue
      obtain ⟨hextends', hproperties'⟩ := extends_ofMembers rest _ _ hmore
      exact ⟨hextends.trans hextends', hproperties'⟩

end

end Value

/-! ## Stores -/

namespace Store

/-- A namespace is the one in the cache. -/
def Caches (store : Store) (found : Namespace) : Prop :=
  store.cached? found.id found.requester? = some found

/-- A value refers to what there is in a store. -/
abbrev Grounds (store : Store) (value : Value) : Prop :=
  value.Grounded store.heap.size store.Caches

/-- All that a store holds refers to what there is. -/
structure Grounded (store : Store) : Prop where
  heap : store.heap.Grounded store.Caches
  cell : ∀ ref cell value, store.cell? ref = some cell → cell.value? = some value →
    store.Grounds value
  exports : ∀ ref record exports, store.record? ref = some record →
    record.exports? = some exports → store.Grounds exports.value

variable {store store' : Store}

theorem shows_of_namespaces (hsame : store'.namespaces = store.namespaces) (found : Namespace)
    (hshown : store.Caches found) : store'.Caches found := by
  unfold Caches cached? at hshown ⊢
  rwa [hsame]

/-- What is in the cache stays there. -/
theorem Caches.namespace_ {found : Namespace} (hshown : store.Caches found) (id : ModuleId)
    (requester? : Option ModuleId) : (store.namespace_ id requester?).2.Caches found := by
  rcases store.namespace_cases id requester? with
    ⟨_, -, -, -, heq⟩ | ⟨_, _, -, heq⟩ | ⟨-, heq⟩
  · rwa [heq]
  · rw [heq]
    unfold Caches cached? at hshown ⊢
    obtain ⟨cached, hcached, hsame⟩ := Option.map_eq_some_iff.mp hshown
    dsimp only
    rw [List.find?_append, hcached]
    exact congrArg some hsame
  · rwa [heq]

/-- A namespace that is asked for is in the cache. -/
theorem Upright.shows_of_ok (hupright : store.Upright) {id : ModuleId} {requester? : Option ModuleId}
    {found : Namespace} (hfound : (store.namespace_ id requester?).1 = .ok found) :
    (store.namespace_ id requester?).2.Caches found := by
  unfold Caches
  cases hcached : store.cached? id requester? with
  | some cached =>
      have heq : store.namespace_ id requester? = (.ok cached, store) := by
        unfold Store.namespace_
        rw [hcached]
      rw [heq] at hfound ⊢
      obtain rfl := Except.ok.inj hfound
      obtain ⟨entry, hentry, rfl⟩ := Option.map_eq_some_iff.mp hcached
      have hkey : entry.id = id ∧ entry.requester? = requester? := by
        simpa using List.find?_some hentry
      obtain ⟨hid, hrequester, -⟩ :=
        hupright.current.cached entry (List.mem_of_find?_eq_some hentry)
      dsimp only
      rw [hid, hrequester, hkey.1, hkey.2, hcached]
  | none =>
      rcases store.namespace_cases id requester? with
        ⟨cached, hmem, hid, hrequester, -⟩ | ⟨ref, record, hregistered, heq⟩ | ⟨-, heq⟩
      · unfold cached? at hcached
        rw [Option.map_eq_none_iff, List.find?_eq_none] at hcached
        exact absurd (by simp [hid, hrequester]) (hcached cached hmem)
      · rw [heq] at hfound ⊢
        obtain rfl := Except.ok.inj hfound
        obtain ⟨_, hregistered', hid⟩ := hupright.find hregistered.lookup
        obtain ⟨-, rfl⟩ := hregistered.unique hregistered'
        unfold cached? at hcached ⊢
        rw [Option.map_eq_none_iff] at hcached
        dsimp only
        rw [hid, List.find?_append, hcached]
        simp
      · rw [heq] at hfound
        cases hfound

namespace Grounded

variable (hgrounded : store.Grounded)
include hgrounded

/-- Nothing is held that was not held before, or it is grounded. -/
theorem mono (hheap : store'.heap.Grounded store'.Caches)
    (hsize : store.heap.size ≤ store'.heap.size) (hshows : ∀ found, store.Caches found → store'.Caches found)
    (hcell : ∀ ref cell value, store'.cell? ref = some cell → cell.value? = some value →
      store'.Grounds value ∨ ∃ before, store.cell? ref = some before ∧ before.value? = some value)
    (hexports : ∀ ref record exports, store'.record? ref = some record →
      record.exports? = some exports → store'.Grounds exports.value ∨
        ∃ before exports', store.record? ref = some before ∧ before.exports? = some exports' ∧
          exports'.value = exports.value) : store'.Grounded where
  heap := hheap
  cell ref cell value hfound hvalue := by
    rcases hcell ref cell value hfound hvalue with hnew | ⟨before, hbefore, hvalue'⟩
    · exact hnew
    · exact (hgrounded.cell ref before value hbefore hvalue').mono hsize hshows
  exports ref record exports hrecord hfound := by
    rcases hexports ref record exports hrecord hfound with
      hnew | ⟨before, exports', hbefore, hfound', hvalue⟩
    · exact hnew
    · exact hvalue ▸ (hgrounded.exports ref before exports' hbefore hfound').mono hsize hshows

end Grounded

end Store

end Linkage
