import Linkage.Proofs.Alike.Exports
import Linkage.Proofs.Store.Confining
import Linkage.Proofs.Store.Grounded

/-!
# What a body adds to a store

A body makes objects, declares names, and gives values to what it has.  Of the objects that were
there it changes none but the one that is its exports value, and all that it stores refers to what
there is.

* `Access.Triple` : what holds after an access.
* `Store.Outgrows` : a store to which the body of a record has added something.
* `Scope.outgrows_run` : a statement adds no more than that.
-/

namespace Linkage

/-! ## Accesses -/

/-- An access that begins where `pre` holds gives values that fulfil `post` together with the store
then, and if it fails the store fulfils `fails`. -/
def Access.Triple {α : Type} (pre : Store → Prop) (action : Access α)
    (post : α → Store → Prop) (fails : Store → Prop) : Prop :=
  ∀ store : Store, pre store →
    (∀ value, (store.access action).1 = .ok value → post value (store.access action).2) ∧
      ∀ error, (store.access action).1 = .error error → fails (store.access action).2

namespace Access.Triple

variable {α β : Type} {pre fails : Store → Prop} {post : α → Store → Prop}

theorem pure {value : α} (hpost : ∀ store, pre store → post value store) :
    Triple pre (Pure.pure value) post fails :=
  fun store hpre => ⟨fun _ hvalue => Except.ok.inj hvalue ▸ hpost store hpre, nofun⟩

theorem throw {error : ModuleError} (hfails : ∀ store, pre store → fails store) :
    Triple pre (MonadExcept.throw error) post fails :=
  fun store hpre => ⟨nofun, fun _ _ => hfails store hpre⟩

theorem bind {action : Access α} {next : α → Access β} {post' : β → Store → Prop}
    (hfirst : Triple pre action post fails)
    (hnext : ∀ value, Triple (post value) (next value) post' fails) :
    Triple pre (action >>= next) post' fails := by
  intro store hpre
  obtain ⟨hok, herror⟩ := hfirst store hpre
  rw [Store.access_bind]
  generalize store.access action = ended at hok herror
  obtain ⟨result, store'⟩ := ended
  cases result with
  | ok value => exact hnext value store' (hok value rfl)
  | error error => exact ⟨nofun, fun _ _ => herror error rfl⟩

/-- An access that begins by looking at the store. -/
theorem get_bind {next : Store → Access β} {post' : β → Store → Prop}
    (hnext : ∀ store, pre store →
      (∀ value, (store.access (next store)).1 = .ok value → post' value (store.access (next store)).2) ∧
      ∀ error, (store.access (next store)).1 = .error error → fails (store.access (next store)).2) :
    Triple pre (get >>= next) post' fails := by
  intro store hpre
  rw [Store.access_bind, Store.access_get]
  exact hnext store hpre

theorem imp {pre' fails' : Store → Prop} {post' : α → Store → Prop} {action : Access α}
    (htriple : Triple pre action post fails) (hpre : ∀ store, pre' store → pre store)
    (hpost : ∀ value store, post value store → post' value store)
    (hfails : ∀ store, fails store → fails' store) : Triple pre' action post' fails' :=
  fun store hstore =>
    ⟨fun value hvalue => hpost value _ ((htriple store (hpre store hstore)).1 value hvalue),
      fun error herror => hfails _ ((htriple store (hpre store hstore)).2 error herror)⟩

/-- An access that leaves the store as it is. -/
theorem of_same {action : Access α} (hsame : ∀ store : Store, (store.access action).2 = store)
    (hpost : ∀ (store : Store) value, pre store → (store.access action).1 = .ok value →
      post value store) :
    Triple pre action post pre := by
  intro store hpre
  rw [hsame store]
  exact ⟨fun value hvalue => hpost store value hpre hvalue, fun _ _ => hpre⟩

end Access.Triple

namespace Store

/-- The object that is the exports value of a record. -/
def exposed? (store : Store) (ref : RecordRef) : Option ObjectRef :=
  ((store.record? ref).bind (·.exports?)).bind (·.value.toObject?)

/-- A store to which the body of a record has added something. -/
structure Outgrows (base : Store) (ref : RecordRef) (store : Store) : Prop where
  grounded : store.Grounded
  upright : store.Upright
  size : base.heap.size ≤ store.heap.size
  cells : base.cells.size ≤ store.cells.size
  object : ∀ other, other.index < base.heap.size → base.exposed? ref ≠ some other →
    store.heap.properties other = base.heap.properties other
  exposed : ∀ other, store.exposed? ref = some other →
    base.exposed? ref = some other ∨ base.heap.size ≤ other.index
  present : (store.record? ref).isSome
  declared : ∀ cell found, store.cell? cell = some found → base.cells.size ≤ cell.index →
    found.record = ref ∧ some found.owner = (store.record? ref).map (·.id) ∧
      store.binding? ref found.name = some (.cell cell)
  bound : ∀ name binding, store.binding? ref name = some binding →
    base.binding? ref name = some binding ∨
      ∃ cell, binding = .cell cell ∧ base.cells.size ≤ cell.index

variable {base store store' : Store} {ref : RecordRef}

theorem Outgrows.refl (hgrounded : store.Grounded) (hupright : store.Upright)
    (hpresent : (store.record? ref).isSome) : store.Outgrows ref store where
  grounded := hgrounded
  upright := hupright
  size := Nat.le_refl _
  cells := Nat.le_refl _
  object _ _ _ := rfl
  exposed _ hexposed := .inl hexposed
  present := hpresent
  declared cell found hfound hsize := by
    have hlt := (Array.getElem?_eq_some_iff.mp hfound).1
    omega
  bound _ _ hbound := .inl hbound

/-- A value that is read is grounded. -/
theorem Grounded.readCell (hgrounded : store.Grounded) {cell : CellRef} {value : Value}
    (hread : store.readCell cell = .ok value) : store.Grounds value := by
  unfold Store.readCell at hread
  cases hcell : store.cell? cell with
  | none =>
      rw [hcell] at hread
      exact Except.ok.inj hread ▸ trivial
  | some found =>
      rw [hcell] at hread
      dsimp only at hread
      cases hpoison : (store.record? found.record).bind (·.poison?) with
      | some error =>
          rw [hpoison] at hread
          cases hread
      | none =>
          rw [hpoison] at hread
          dsimp only at hread
          cases hvalue : found.value? with
          | none =>
              rw [hvalue] at hread
              cases hread
          | some kept =>
              rw [hvalue] at hread
              obtain rfl := Except.ok.inj hread
              exact hgrounded.cell cell found kept hcell hvalue

theorem Grounded.readExports (hgrounded : store.Grounded) {property? : Option String} {value : Value}
    (hread : store.readExports ref property? = .ok value) : store.Grounds value := by
  unfold Store.readExports at hread
  cases hrecord : store.record? ref with
  | none =>
      rw [hrecord] at hread
      exact Except.ok.inj hread ▸ trivial
  | some record =>
      rw [hrecord] at hread
      dsimp only at hread
      split at hread
      · cases hread
      · exact Except.ok.inj hread ▸ trivial
      · rename_i exports _ hexports
        split at hread
        · cases hread
        · split at hread
          · exact Except.ok.inj hread ▸ hgrounded.exports ref record exports hrecord hexports
          · exact Except.ok.inj hread ▸ hgrounded.heap.read _ _

theorem Grounded.read (hgrounded : store.Grounded) (hupright : store.Upright) {binding : Binding}
    {requester? : Option ModuleId} {value : Value}
    (hread : (store.read binding requester?).1 = .ok value) :
    (store.read binding requester?).2.Grounds value := by
  cases binding with
  | cell cell => exact hgrounded.readCell hread
  | exports ref property? => exact hgrounded.readExports hread
  | star id =>
      show (store.namespace_ id requester?).2.Grounds value
      change ((store.namespace_ id requester?).1.map Value.space) = .ok value at hread
      cases hfound : (store.namespace_ id requester?).1 with
      | error error =>
          rw [hfound] at hread
          cases hread
      | ok found =>
          rw [hfound] at hread
          obtain rfl := Except.ok.inj hread
          exact hupright.shows_of_ok hfound

theorem Caches.read {found : Namespace} (hshown : store.Caches found) (binding : Binding)
    (requester? : Option ModuleId) : (store.read binding requester?).2.Caches found := by
  cases binding with
  | cell | exports => exact hshown
  | star id => exact hshown.namespace_ id requester?

theorem Caches.readName {found other : Namespace} (hshown : store.Caches found) (name : String) :
    (store.readName other name).2.Caches found := by
  unfold Store.readName
  split
  · exact hshown
  · split
    · exact hshown.read _ _
    · exact hshown
    · exact hshown

theorem Grounded.readName (hgrounded : store.Grounded) (hupright : store.Upright)
    {found : Namespace} {name : String} {value : Value}
    (hread : (store.readName found name).1 = .ok value) :
    (store.readName found name).2.Grounds value := by
  unfold Store.readName at hread ⊢
  split
  · rename_i hdetached
    rw [if_pos hdetached] at hread
    cases hread
  · rename_i hattached
    rw [if_neg hattached] at hread
    cases hresolved : store.resolveExport found.id name with
    | found binding =>
        rw [hresolved] at hread
        exact hgrounded.read hupright hread
    | missing =>
        rw [hresolved] at hread
        exact Except.ok.inj hread ▸ trivial
    | ambiguous =>
        rw [hresolved] at hread
        cases hread

/-- Caching a namespace leaves all grounded. -/
theorem Grounded.cached (hgrounded : store.Grounded) (hcached : store.Cached store')
    (hshows : ∀ found, store.Caches found → store'.Caches found) : store'.Grounded := by
  have hsize : store.heap.size = store'.heap.size := by rw [hcached.heap]
  refine hgrounded.mono ?_ (Nat.le_of_eq hsize) hshows (fun ref cell value hfound hvalue => ?_)
    (fun ref record exports hrecord hfound => ?_)
  · rw [hcached.heap]
    intro index properties hobject
    exact (hgrounded.heap index properties hobject).mono (Nat.le_refl _) hshows
  · rw [hcached.cell?_eq] at hfound
    exact .inr ⟨cell, hfound, hvalue⟩
  · rw [hcached.record?_eq] at hrecord
    exact .inr ⟨record, exports, hrecord, hfound, rfl⟩

namespace Outgrows

variable (houtgrows : base.Outgrows ref store)
include houtgrows

/-! ### One thing after the other -/

/-- Objects are made, or one that the body exposes is changed. -/
theorem withHeap {heap : Heap} (hgrounded : heap.Grounded store.Caches)
    (hsize : store.heap.size ≤ heap.size)
    (hobject : ∀ other, other.index < base.heap.size → base.exposed? ref ≠ some other →
      heap.properties other = store.heap.properties other) :
    base.Outgrows ref { store with heap } :=
  { houtgrows with
    grounded := houtgrows.grounded.mono hgrounded hsize (fun _ hshown => hshown)
      (fun _ cell _ hfound hvalue => .inr ⟨cell, hfound, hvalue⟩)
      (fun _ record exports hrecord hfound => .inr ⟨record, exports, hrecord, hfound, rfl⟩)
    upright := houtgrows.upright.touch (.heap heap)
    size := Nat.le_trans houtgrows.size hsize
    object := fun other hother hexposed =>
      (hobject other hother hexposed).trans (houtgrows.object other hother hexposed) }

theorem cached (hcached : store.Cached store')
    (hshows : ∀ found, store.Caches found → store'.Caches found) : base.Outgrows ref store' := by
  have hrecord : store'.record? ref = store.record? ref := hcached.record?_eq ref
  have hexposed : store'.exposed? ref = store.exposed? ref := by
    unfold exposed?
    rw [hrecord]
  have hbinding : ∀ name, store'.binding? ref name = store.binding? ref name := by
    intro name
    unfold binding?
    rw [hrecord]
  refine ⟨houtgrows.grounded.cached hcached hshows, hcached.upright houtgrows.upright, ?_, ?_, ?_,
    ?_, ?_, ?_, ?_⟩
  · rw [hcached.heap]
    exact houtgrows.size
  · rw [hcached.cells]
    exact houtgrows.cells
  · rw [hcached.heap]
    exact houtgrows.object
  · rw [hexposed]
    exact houtgrows.exposed
  · rw [hrecord]
    exact houtgrows.present
  · intro cell found hfound hsize
    rw [hrecord, hbinding]
    exact houtgrows.declared cell found (hcached.cell?_eq cell ▸ hfound) hsize
  · intro name binding hbound
    exact houtgrows.bound name binding (hbinding name ▸ hbound)

theorem writeCell (cell : CellRef) {value : Value} (hvalue : store.Grounds value) :
    base.Outgrows ref (store.writeCell cell value) :=
  { houtgrows with
    grounded := by
      refine houtgrows.grounded.mono houtgrows.grounded.heap (Nat.le_refl _) (fun _ hshown => hshown)
        (fun other found kept hfound hkept => ?_)
        (fun other record exports hrecord hfound => .inr ⟨record, exports, hrecord, hfound, rfl⟩)
      rw [cell?_writeCell] at hfound
      split at hfound
      · obtain ⟨_, -, rfl⟩ := Option.map_eq_some_iff.mp hfound
        exact .inl (Option.some.inj hkept ▸ hvalue)
      · exact .inr ⟨found, hfound, hkept⟩
    upright := houtgrows.upright.touch (.write cell value)
    cells := by
      show _ ≤ (store.cells.modify _ _).size
      rw [Array.size_modify]
      exact houtgrows.cells
    declared := fun other found hfound hsize => by
      rw [cell?_writeCell] at hfound
      split at hfound
      · obtain ⟨before, hbefore, rfl⟩ := Option.map_eq_some_iff.mp hfound
        exact houtgrows.declared other before hbefore hsize
      · exact houtgrows.declared other found hfound hsize }

/-- A name that nothing binds is declared. -/
theorem declare {record : Record} (hrecord : store.record? ref = some record) {name : String}
    (hnew : store.binding? ref name = none) :
    base.Outgrows ref (store.declare ref record.id name).2 := by
  have hrecord' : (store.declare ref record.id name).2.record? ref = some { record with
      environment := record.environment.insert name (.cell ⟨store.cells.size⟩) } :=
    record?_declare_self hrecord
  have hbinding : ∀ other, (store.declare ref record.id name).2.binding? ref other =
      if other = name then some (.cell ⟨store.cells.size⟩) else store.binding? ref other := by
    intro other
    unfold binding?
    rw [hrecord', hrecord, Option.bind_some, Option.bind_some, Table.find?_insert]
  have hexposed : (store.declare ref record.id name).2.exposed? ref = store.exposed? ref := by
    unfold exposed?
    rw [hrecord', hrecord]
    rfl
  refine ⟨?_, houtgrows.upright.declare ref record.id name, houtgrows.size, ?_, houtgrows.object,
    ?_, ?_, ?_, ?_⟩
  · refine houtgrows.grounded.mono houtgrows.grounded.heap (Nat.le_refl _) (fun _ hshown => hshown)
      (fun other found kept hfound hkept => ?_) (fun other found exports hfound hexports => ?_)
    · rw [cell?_declare] at hfound
      split at hfound
      · obtain rfl := Option.some.inj hfound
        cases hkept
      · exact .inr ⟨found, hfound, hkept⟩
    · rw [record?_declare] at hfound
      split at hfound
      · obtain ⟨before, hbefore, rfl⟩ := Option.map_eq_some_iff.mp hfound
        exact .inr ⟨before, exports, hbefore, hexports, rfl⟩
      · exact .inr ⟨found, exports, hfound, hexports, rfl⟩
  · show _ ≤ (store.cells.push _).size
    rw [Array.size_push]
    exact Nat.le_succ_of_le houtgrows.cells
  · rw [hexposed]
    exact houtgrows.exposed
  · rw [hrecord']
    rfl
  · intro cell found hfound hsize
    rw [cell?_declare] at hfound
    rw [hrecord', hbinding]
    split at hfound
    · rename_i hindex
      obtain rfl := Option.some.inj hfound
      refine ⟨rfl, rfl, ?_⟩
      rw [if_pos rfl, ← hindex]
    · obtain ⟨hfrom, howner, hbound⟩ := houtgrows.declared cell found hfound hsize
      refine ⟨hfrom, by rw [howner, hrecord]; rfl, ?_⟩
      rw [if_neg, hbound]
      rintro rfl
      rw [hnew] at hbound
      cases hbound
  · intro other binding hbound
    rw [hbinding] at hbound
    split at hbound
    · exact .inr ⟨_, (Option.some.inj hbound).symm, houtgrows.cells⟩
    · exact houtgrows.bound other binding hbound

/-- The exports value is replaced by one that is new. -/
theorem replaceExports {value : Value} (hvalue : store.Grounds value)
    (hnew : value.IsNew base.heap.size) {record : Record} (hrecord : store.record? ref = some record)
    {found : Exports} :
    base.Outgrows ref (store.modify ref (fun record =>
      { record with exports? := some { found with value } })) := by
  have hrecord' : (store.modify ref (fun record =>
      { record with exports? := some { found with value } })).record? ref =
      some { record with exports? := some { found with value } } :=
    record?_modify_self _ hrecord
  have hbinding : ∀ name, (store.modify ref (fun record =>
      { record with exports? := some { found with value } })).binding? ref name =
      store.binding? ref name := by
    intro name
    unfold binding?
    rw [hrecord', hrecord]
    rfl
  refine ⟨?_, houtgrows.upright.modify ref (fun _ => rfl), houtgrows.size, houtgrows.cells,
    houtgrows.object, fun other hother => ?_, by rw [hrecord']; rfl, fun cell kept hkept hsize => ?_,
    fun name binding hbound => ?_⟩
  · refine houtgrows.grounded.mono houtgrows.grounded.heap (Nat.le_refl _) (fun _ hshown => hshown)
      (fun _ cell _ hfound hkept => .inr ⟨cell, hfound, hkept⟩)
      (fun other kept exports hkept hexports => ?_)
    rw [record?_modify] at hkept
    split at hkept
    · obtain ⟨_, -, rfl⟩ := Option.map_eq_some_iff.mp hkept
      exact .inl (Option.some.inj hexports ▸ hvalue)
    · exact .inr ⟨kept, exports, hkept, hexports, rfl⟩
  · unfold exposed? at hother
    rw [hrecord'] at hother
    exact .inr (hnew.2 other hother)
  · rw [hrecord', hbinding]
    have hbefore := houtgrows.declared cell kept hkept hsize
    rwa [hrecord] at hbefore
  · exact houtgrows.bound name binding (hbinding name ▸ hbound)

end Outgrows

end Store

namespace Scope

open Access (Triple)

variable {base : Store} {ref : RecordRef}

theorem outgrows_literal (json : Json) :
    Triple (base.Outgrows ref) (literal json)
      (fun value store => base.Outgrows ref store ∧ store.Grounds value ∧
        value.IsNew base.heap.size) (base.Outgrows ref) := by
  intro store houtgrows
  have hmade : store.heap.Extends store.Caches (Value.ofJson json store.heap).2 ∧ _ :=
    Value.extends_ofJson json store.heap
  obtain ⟨hextends, hvalue, hspace, hnew⟩ := hmade
  refine ⟨fun value hgiven => ?_, nofun⟩
  obtain rfl := Except.ok.inj hgiven
  refine ⟨houtgrows.withHeap (hextends.grounded houtgrows.grounded.heap) hextends.size
    (fun other hother _ => hextends.properties (Nat.lt_of_lt_of_le hother houtgrows.size)),
    hvalue, hspace, fun other hother => Nat.le_trans houtgrows.size (hnew other hother)⟩

theorem outgrows_lookup (name : String) :
    Triple (base.Outgrows ref) (lookup ref name) (fun _ => base.Outgrows ref)
      (base.Outgrows ref) := by
  refine .of_same (fun store => ?_) (fun _ _ houtgrows _ => houtgrows)
  rw [access_lookup]
  split <;> rfl

theorem outgrows_read (name : String) :
    Triple (base.Outgrows ref) (read ref name)
      (fun value store => base.Outgrows ref store ∧ store.Grounds value) (base.Outgrows ref) := by
  unfold read
  refine (outgrows_lookup name).bind (fun binding => ?_)
  have hid : Triple (base.Outgrows ref) (idOf ref) (fun _ => base.Outgrows ref)
      (base.Outgrows ref) := .of_same (fun _ => rfl) (fun _ _ houtgrows _ => houtgrows)
  refine hid.bind (fun id store houtgrows => ?_)
  have hcached : base.Outgrows ref (store.read binding (some id)).2 :=
    houtgrows.cached (store.cached_read binding (some id)) (fun _ hshown => hshown.read _ _)
  exact ⟨fun value hvalue => ⟨hcached, houtgrows.grounded.read houtgrows.upright hvalue⟩,
    fun _ _ => hcached⟩

theorem outgrows_property (value : Value) (name : String) :
    Triple (fun store => base.Outgrows ref store ∧ store.Grounds value) (property value name)
      (fun value store => base.Outgrows ref store ∧ store.Grounds value) (base.Outgrows ref) := by
  unfold property
  split
  · rename_i found
    rintro store ⟨houtgrows, -⟩
    have hcached : base.Outgrows ref (store.readName found name).2 :=
      houtgrows.cached (store.cached_readName found name) (fun _ hshown => hshown.readName _)
    exact ⟨fun value hvalue => ⟨hcached, houtgrows.grounded.readName houtgrows.upright hvalue⟩,
      fun _ _ => hcached⟩
  · rename_i object
    refine .get_bind (fun store hpre => ⟨fun value hvalue => ?_, nofun⟩)
    obtain rfl := Except.ok.inj hvalue
    exact ⟨hpre.1, hpre.1.grounded.heap.get object name⟩
  · exact .throw (fun _ hpre => hpre.1)

theorem outgrows_write (name : String) (value : Value) :
    Triple (fun store => base.Outgrows ref store ∧ store.Grounds value) (write ref name value)
      (fun _ => base.Outgrows ref) (base.Outgrows ref) := by
  rintro store ⟨houtgrows, hvalue⟩
  obtain ⟨record, hrecord⟩ := Option.isSome_iff_exists.mp houtgrows.present
  rw [access_write, hrecord, Option.map_some, Option.getD_some]
  dsimp only
  cases hbound : store.binding? ref name with
  | none => exact ⟨fun _ _ => (houtgrows.declare hrecord hbound).writeCell _ hvalue, nofun⟩
  | some binding =>
      cases binding with
      | star | exports => exact ⟨nofun, fun _ _ => houtgrows⟩
      | cell cell =>
          dsimp only
          split
          · exact ⟨fun _ _ => houtgrows.writeCell cell hvalue, nofun⟩
          · exact ⟨nofun, fun _ _ => houtgrows⟩

/-- The exports value that is found is that of the record. -/
theorem outgrows_exports {fact : Store → Prop} (hfact : ∀ store, fact store → base.Outgrows ref store) :
    Triple fact (exports ref)
      (fun found store => fact store ∧
        (store.record? ref).bind (·.exports?) = some found) (base.Outgrows ref) := by
  intro store hpre
  rw [access_exports]
  cases hexports : (store.record? ref).bind (·.exports?) with
  | none => exact ⟨nofun, fun _ _ => hfact store hpre⟩
  | some found =>
      refine ⟨fun other hother => ?_, nofun⟩
      obtain rfl := Except.ok.inj hother
      exact ⟨hpre, hexports⟩

theorem outgrows_replaceExports (value : Value) :
    Triple (fun store => base.Outgrows ref store ∧ store.Grounds value ∧
        value.IsNew base.heap.size) (replaceExports ref value)
      (fun _ => base.Outgrows ref) (base.Outgrows ref) := by
  unfold replaceExports
  refine (outgrows_exports (fun _ hpre => hpre.1)).bind (fun found => ?_)
  rintro store ⟨⟨houtgrows, hvalue, hnew⟩, -⟩
  obtain ⟨record, hrecord⟩ := Option.isSome_iff_exists.mp houtgrows.present
  exact ⟨fun _ _ => houtgrows.replaceExports hvalue hnew hrecord, nofun⟩

theorem outgrows_exportProperty (name : String) (value : Value) :
    Triple (fun store => base.Outgrows ref store ∧ store.Grounds value)
      (exportProperty ref name value) (fun _ => base.Outgrows ref) (base.Outgrows ref) := by
  unfold exportProperty
  refine (outgrows_exports (fun _ hpre => hpre.1)).bind (fun found => ?_)
  split
  · rintro store ⟨⟨houtgrows, -⟩, -⟩
    exact ⟨nofun, fun _ _ => houtgrows⟩
  · rename_i object hobject
    rintro store ⟨⟨houtgrows, hvalue⟩, hexports⟩
    refine ⟨fun _ _ => ?_, nofun⟩
    have hexposed : store.exposed? ref = some object := by
      unfold Store.exposed?
      rw [hexports]
      exact hobject
    -- the object changed is the one exposed when the body began, or one made since
    refine houtgrows.withHeap (houtgrows.grounded.heap.set object name hvalue)
      (Nat.le_of_eq (store.heap.size_set object name value).symm) (fun other hother hnot => ?_)
    refine store.heap.properties_set ?_ name value
    rintro rfl
    rcases houtgrows.exposed other hexposed with hbefore | hlater
    · exact hnot hbefore
    · omega

/-- **A statement adds to a store, and changes no object but the one exposed.** -/
theorem outgrows_run (statement : Statement) :
    Triple (base.Outgrows ref) (run ref statement) (fun _ => base.Outgrows ref)
      (base.Outgrows ref) := by
  have hdone {pre : Store → Prop} {action : Access Unit}
      (haction : Triple pre action (fun _ => base.Outgrows ref) (base.Outgrows ref)) :
      Triple pre (action >>= fun _ => (pure none : Access (Option String)))
        (fun _ => base.Outgrows ref) (base.Outgrows ref) :=
    haction.bind (fun _ => .pure (fun _ houtgrows => houtgrows))
  have hliteral (json : Json) : Triple (base.Outgrows ref) (literal json)
      (fun value store => base.Outgrows ref store ∧ store.Grounds value) (base.Outgrows ref) :=
    (outgrows_literal json).imp (fun _ hpre => hpre) (fun _ _ hpost => ⟨hpost.1, hpost.2.1⟩)
      (fun _ hfails => hfails)
  cases statement with
  | set name value => exact (hliteral value).bind (fun found => hdone (outgrows_write name found))
  | copy source target =>
      exact (outgrows_read source).bind (fun found => hdone (outgrows_write target found))
  | get object name target =>
      exact (outgrows_read object).bind (fun found => (outgrows_property found name).bind
        (fun value => hdone (outgrows_write target value)))
  | add name amount =>
      refine (outgrows_read name).bind (fun found => hdone ?_)
      exact (outgrows_write name _).imp (fun _ hpre => ⟨hpre.1, trivial⟩) (fun _ _ hpost => hpost)
        (fun _ hfails => hfails)
  | setDefault value =>
      exact (hliteral value).bind (fun found => hdone (outgrows_write defaultLocal found))
  | require specifier target? => exact .pure (fun _ houtgrows => houtgrows)
  | exportValue name value =>
      exact (hliteral value).bind (fun found => hdone (outgrows_exportProperty name found))
  | exportBinding name source =>
      exact (outgrows_read source).bind (fun found => hdone (outgrows_exportProperty name found))
  | setExports value =>
      exact (outgrows_literal value).bind (fun found => hdone (outgrows_replaceExports found))
  | throw text => exact .throw (fun _ houtgrows => houtgrows)
  | log name =>
      refine (outgrows_read name).bind (fun found => .get_bind (fun store hpre => ?_))
      exact ⟨fun _ _ => hpre.1, nofun⟩

end Scope

end Linkage
