import Linkage.Proofs.Renaming.Basic
import Linkage.Proofs.Store.Updates

/-!
# Stores under new names

Two stores mirror each other under new names if each thing of the one is in the other under its new
number, and the numbers that are given next correspond too.  The other store may hold things that
are not in the first.  Whatever is done to both goes on to be the same.

* `Heap.Mirrors`, `Store.Mirrors` : the relation.
* `Store.Mirrors.getOrCreate`, `Store.Mirrors.namespace_`, `Store.Mirrors.read` and their like :
  what the operations of a store make of it.
-/

namespace Linkage

variable {names : Renaming}

/-- Each object has its properties under its new number. -/
structure Heap.Mirrors (names : Renaming) (heap heap' : Heap) : Prop where
  object : ∀ ref, heap'.objects[(names.object ref).index]? =
    heap.objects[ref.index]?.map (Table.map (Value.rename names))
  fresh : ∀ more, names.object ⟨heap.size + more⟩ = ⟨heap'.size + more⟩

namespace Heap

variable {heap heap' : Heap}

theorem Mirrors.properties (hmirrors : heap.Mirrors names heap') (ref : ObjectRef) :
    heap'.properties (names.object ref) = (heap.properties ref).map (Value.rename names) := by
  unfold Heap.properties
  rw [hmirrors.object]
  cases heap.objects[ref.index]? <;> rfl

theorem Mirrors.get (hmirrors : heap.Mirrors names heap') (ref : ObjectRef) (key : String) :
    heap'.get? (names.object ref) key = (heap.get? ref key).map (Value.rename names) := by
  unfold Heap.get?
  rw [hmirrors.properties, Table.find?_map]

theorem Mirrors.read (hmirrors : heap.Mirrors names heap') (value : Value) (key : String) :
    heap'.read (value.rename names) key = (heap.read value key).rename names := by
  unfold Heap.read
  cases value with
  | object ref =>
      show (heap'.get? (names.object ref) key).getD .undefined = _
      rw [hmirrors.get]
      show _ = Value.rename names ((heap.get? ref key).getD .undefined)
      cases heap.get? ref key <;> rfl
  | _ => rfl

theorem Mirrors.alloc (hmirrors : heap.Mirrors names heap') (properties : Table Value) :
    (heap'.alloc (properties.map (Value.rename names))).1 =
        names.object (heap.alloc properties).1 ∧
      (heap.alloc properties).2.Mirrors names
        (heap'.alloc (properties.map (Value.rename names))).2 := by
  have hnew : names.object ⟨heap.size⟩ = ⟨heap'.size⟩ := hmirrors.fresh 0
  refine ⟨hnew.symm, fun ref => ?_, fun more => ?_⟩
  · show (heap'.objects.push _)[(names.object ref).index]? = (heap.objects.push _)[ref.index]?.map _
    rw [Array.getElem?_push, Array.getElem?_push, hmirrors.object]
    -- the number after all that are given is the fresh one, and only that
    have hiff : (names.object ref).index = heap'.objects.size ↔ ref.index = heap.objects.size := by
      refine ⟨fun hindex => ?_, fun hindex => ?_⟩
      · have hsame : names.object ref = names.object ⟨heap.size⟩ := by
          rw [hnew]
          exact congrArg ObjectRef.mk hindex
        exact congrArg ObjectRef.index (names.object_injective hsame)
      · have href : ref = ⟨heap.size⟩ := congrArg ObjectRef.mk hindex
        rw [href, hnew]
        rfl
    by_cases hindex : ref.index = heap.objects.size
    · rw [if_pos hindex, if_pos (hiff.mpr hindex)]
      rfl
    · rw [if_neg hindex, if_neg (fun hsame => hindex (hiff.mp hsame))]
  · show names.object ⟨(heap.objects.push properties).size + more⟩ =
      ⟨(heap'.objects.push _).size + more⟩
    rw [Array.size_push, Array.size_push, Nat.add_assoc, Nat.add_assoc, Nat.add_comm 1]
    exact hmirrors.fresh (more + 1)

theorem Mirrors.set (hmirrors : heap.Mirrors names heap') (ref : ObjectRef) (key : String)
    (value : Value) :
    (heap.set ref key value).Mirrors names
      (heap'.set (names.object ref) key (value.rename names)) := by
  refine ⟨fun other => ?_, fun more => ?_⟩
  · show (heap'.objects.modify _ _)[(names.object other).index]? =
      (heap.objects.modify _ _)[other.index]?.map _
    rw [Array.getElem?_modify, Array.getElem?_modify, hmirrors.object]
    have hiff : (names.object ref).index = (names.object other).index ↔ ref.index = other.index :=
      ⟨fun hindex => congrArg ObjectRef.index
          (names.object_injective (congrArg ObjectRef.mk hindex)),
        fun hindex => congrArg (fun ref => (names.object ref).index) (congrArg ObjectRef.mk hindex)⟩
    by_cases hindex : ref.index = other.index
    · rw [if_pos hindex, if_pos (hiff.mpr hindex), Option.map_map, Option.map_map]
      congr 1
      funext properties
      exact Table.insert_map _ properties key value
    · rw [if_neg hindex, if_neg (fun hsame => hindex (hiff.mp hsame))]
  · show names.object ⟨(heap.objects.modify _ _).size + more⟩ =
      ⟨(heap'.objects.modify _ _).size + more⟩
    rw [Array.size_modify, Array.size_modify]
    exact hmirrors.fresh more

/-- Every heap mirrors itself. -/
theorem Mirrors.refl (heap : Heap) : heap.Mirrors .same heap := by
  refine ⟨fun ref => ?_, fun _ => rfl⟩
  simp only [Renaming.same_object, Value.rename_same]
  cases heap.objects[ref.index]? with
  | none => rfl
  | some properties => rw [Option.map_some, Table.map_id]

end Heap

mutual

/-- A JSON value becomes the same in both heaps. -/
theorem Value.ofJson_mirrors (json : Json) {heap heap' : Heap}
    (hmirrors : heap.Mirrors names heap') :
    (Value.ofJson json heap').1 = (Value.ofJson json heap).1.rename names ∧
      (Value.ofJson json heap).2.Mirrors names (Value.ofJson json heap').2 := by
  cases json with
  | null | bool | int | float | str => exact ⟨rfl, hmirrors⟩
  | arr items =>
      obtain ⟨hproperties, hmirrors'⟩ := Value.ofItems_mirrors items 0 {} hmirrors
      have hlength : Value.number (Float.ofNat items.length) =
          (Value.number (Float.ofNat items.length)).rename names := rfl
      unfold Value.ofJson
      dsimp only
      rw [Table.map_empty] at hproperties hmirrors'
      rw [hproperties, hlength, Table.insert_map]
      obtain ⟨href, hmirrors''⟩ := hmirrors'.alloc ((Value.ofItems items 0 {} heap).1.insert "length"
        (Value.number (Float.ofNat items.length)))
      exact ⟨congrArg Value.object href, hmirrors''⟩
  | obj members =>
      obtain ⟨hproperties, hmirrors'⟩ := Value.ofMembers_mirrors members {} hmirrors
      unfold Value.ofJson
      dsimp only
      rw [Table.map_empty] at hproperties hmirrors'
      rw [hproperties]
      obtain ⟨href, hmirrors''⟩ := hmirrors'.alloc (Value.ofMembers members {} heap).1
      exact ⟨congrArg Value.object href, hmirrors''⟩

theorem Value.ofItems_mirrors (items : List Json) (position : Nat) (properties : Table Value)
    {heap heap' : Heap} (hmirrors : heap.Mirrors names heap') :
    (Value.ofItems items position (properties.map (Value.rename names)) heap').1 =
        (Value.ofItems items position properties heap).1.map (Value.rename names) ∧
      (Value.ofItems items position properties heap).2.Mirrors names
        (Value.ofItems items position (properties.map (Value.rename names)) heap').2 := by
  cases items with
  | nil => exact ⟨rfl, hmirrors⟩
  | cons item rest =>
      obtain ⟨hvalue, hmirrors'⟩ := Value.ofJson_mirrors item hmirrors
      unfold Value.ofItems
      dsimp only
      rw [hvalue, Table.insert_map]
      exact Value.ofItems_mirrors rest (position + 1) _ hmirrors'

theorem Value.ofMembers_mirrors (members : List (String × Json)) (properties : Table Value)
    {heap heap' : Heap} (hmirrors : heap.Mirrors names heap') :
    (Value.ofMembers members (properties.map (Value.rename names)) heap').1 =
        (Value.ofMembers members properties heap).1.map (Value.rename names) ∧
      (Value.ofMembers members properties heap).2.Mirrors names
        (Value.ofMembers members (properties.map (Value.rename names)) heap').2 := by
  cases members with
  | nil => exact ⟨rfl, hmirrors⟩
  | cons member rest =>
      obtain ⟨key, json⟩ := member
      obtain ⟨hvalue, hmirrors'⟩ := Value.ofJson_mirrors json hmirrors
      unfold Value.ofMembers
      dsimp only
      rw [hvalue, Table.insert_map]
      exact Value.ofMembers_mirrors rest _ hmirrors'

end

/-- Each thing of a store is in the other under its new number, and what is made next will be. -/
structure Store.Mirrors (names : Renaming) (store store' : Store) : Prop where
  heap : store.heap.Mirrors names store'.heap
  record : ∀ ref, store'.record? (names.record ref) =
    (store.record? ref).map (Record.rename names)
  cell : ∀ ref, store'.cell? (names.cell ref) = (store.cell? ref).map (Cell.rename names)
  registry : store'.registry = store.registry.map names.record
  namespaces : store'.namespaces = store.namespaces.map (CachedNamespace.rename names)
  closed : store'.closed = store.closed
  freshRecord : ∀ more, names.record ⟨store.records.size + more⟩ = ⟨store'.records.size + more⟩
  freshCell : ∀ more, names.cell ⟨store.cells.size + more⟩ = ⟨store'.cells.size + more⟩
  freshSerial : ∀ more, names.serial (store.issued + more) = store'.issued + more

namespace Store

variable {store store' : Store}

/-- Every store mirrors itself. -/
theorem Mirrors.refl (store : Store) : store.Mirrors .same store where
  heap := .refl store.heap
  record ref := by simp
  cell ref := by simp
  registry := (Table.map_id store.registry).symm
  namespaces := (List.map_id' store.namespaces).symm
  closed := rfl
  freshRecord _ := rfl
  freshCell _ := rfl
  freshSerial _ := rfl

/-! ## Looking things up -/

theorem Mirrors.lookup (hmirrors : store.Mirrors names store') (id : ModuleId) :
    store'.lookup? id = (store.lookup? id).map names.record := by
  unfold lookup?
  rw [hmirrors.registry, Table.find?_map]

theorem Mirrors.find (hmirrors : store.Mirrors names store') (id : ModuleId) :
    store'.find? id = (store.find? id).map (Record.rename names) := by
  unfold find?
  rw [hmirrors.lookup]
  cases store.lookup? id with
  | none => rfl
  | some ref => exact hmirrors.record ref

theorem Mirrors.ids (hmirrors : store.Mirrors names store') : store'.ids = store.ids := by
  unfold Store.ids
  rw [hmirrors.registry, Table.keys_map]

theorem Mirrors.size (hmirrors : store.Mirrors names store') : store'.size = store.size := by
  unfold Store.size
  rw [hmirrors.registry, Table.size_map]

theorem Mirrors.isAttached (hmirrors : store.Mirrors names store') (found : Namespace) :
    store'.isAttached (found.rename names) = store.isAttached found := by
  unfold Store.isAttached
  rw [hmirrors.closed]
  show (!store.closed && store'.lookup? found.id == some (names.record found.record)) = _
  rw [hmirrors.lookup]
  congr 1
  rw [Bool.eq_iff_iff, beq_iff_eq, beq_iff_eq, ← Option.map_some]
  exact (Option.map_injective names.record_injective).eq_iff

theorem Mirrors.binding (hmirrors : store.Mirrors names store') (ref : RecordRef) (name : String) :
    store'.binding? (names.record ref) name =
      (store.binding? ref name).map (Binding.rename names) := by
  unfold binding?
  rw [hmirrors.record]
  cases store.record? ref with
  | none => rfl
  | some record => exact Table.find?_map _ record.environment name

theorem Mirrors.ownCell (hmirrors : store.Mirrors names store') (record : Record) (name : String) :
    store'.ownCell? (record.rename names) name = (store.ownCell? record name).map names.cell := by
  unfold ownCell?
  rw [Record.rename_environment, Table.find?_map]
  cases record.environment.find? name with
  | none => rfl
  | some binding =>
      cases binding with
      | star | exports => rfl
      | cell ref =>
          show (if (store'.cell? (names.cell ref)).map (·.owner) = some record.id then _ else none) =
            _
          rw [hmirrors.cell, Option.map_map]
          show (if (store.cell? ref).map (·.owner) = some record.id then some (names.cell ref)
            else none) = _
          dsimp only
          split <;> rfl

/-! ## Changing one thing -/

theorem Mirrors.modify (hmirrors : store.Mirrors names store') (ref : RecordRef)
    {f f' : Record → Record} (hsame : ∀ record, f' (record.rename names) = (f record).rename names) :
    (store.modify ref f).Mirrors names (store'.modify (names.record ref) f') where
  heap := hmirrors.heap
  record other := by
    rw [record?_modify, record?_modify, hmirrors.record]
    by_cases href : other = ref
    · rw [if_pos href, if_pos (congrArg names.record href), Option.map_map, Option.map_map]
      congr 1
      funext record
      exact hsame record
    · rw [if_neg href, if_neg (fun heq => href (names.record_injective heq))]
  cell := hmirrors.cell
  registry := hmirrors.registry
  namespaces := hmirrors.namespaces
  closed := hmirrors.closed
  freshRecord more := by
    show names.record ⟨(store.records.modify _ _).size + more⟩ =
      ⟨(store'.records.modify _ _).size + more⟩
    rw [Array.size_modify, Array.size_modify]
    exact hmirrors.freshRecord more
  freshCell := hmirrors.freshCell
  freshSerial := hmirrors.freshSerial

theorem Mirrors.setStatus (hmirrors : store.Mirrors names store') (ref : RecordRef)
    (status : Status) :
    (store.setStatus ref status).Mirrors names (store'.setStatus (names.record ref) status) :=
  hmirrors.modify ref (fun _ => rfl)

theorem Mirrors.bind (hmirrors : store.Mirrors names store') (ref : RecordRef) (name : String)
    (binding : Binding) : (store.bind ref name binding).Mirrors names
      (store'.bind (names.record ref) name (binding.rename names)) := by
  refine hmirrors.modify ref (fun record => ?_)
  unfold Record.rename
  dsimp only
  rw [Table.insert_map]

theorem Mirrors.writeCell (hmirrors : store.Mirrors names store') (ref : CellRef) (value : Value) :
    (store.writeCell ref value).Mirrors names
      (store'.writeCell (names.cell ref) (value.rename names)) where
  heap := hmirrors.heap
  record := hmirrors.record
  cell other := by
    rw [cell?_writeCell, cell?_writeCell, hmirrors.cell]
    by_cases href : other = ref
    · rw [if_pos href, if_pos (congrArg names.cell href), Option.map_map, Option.map_map]
      rfl
    · rw [if_neg href, if_neg (fun heq => href (names.cell_injective heq))]
  registry := hmirrors.registry
  namespaces := hmirrors.namespaces
  closed := hmirrors.closed
  freshRecord := hmirrors.freshRecord
  freshCell more := by
    show names.cell ⟨(store.cells.modify _ _).size + more⟩ =
      ⟨(store'.cells.modify _ _).size + more⟩
    rw [Array.size_modify, Array.size_modify]
    exact hmirrors.freshCell more
  freshSerial := hmirrors.freshSerial

theorem Mirrors.withHeap (hmirrors : store.Mirrors names store') {heap heap' : Heap}
    (hheap : heap.Mirrors names heap') :
    Mirrors names { store with heap } { store' with heap := heap' } :=
  { hmirrors with heap := hheap }

theorem Mirrors.clear (hmirrors : store.Mirrors names store') :
    store.clear.Mirrors names store'.clear :=
  { hmirrors with registry := rfl, namespaces := rfl }

/-! ## Making something -/

/-- A number after all those given becomes the one after all those given there. -/
theorem Mirrors.fresh_record_iff (hmirrors : store.Mirrors names store') (ref : RecordRef) :
    (names.record ref).index = store'.records.size ↔ ref.index = store.records.size := by
  have hnew : names.record ⟨store.records.size⟩ = ⟨store'.records.size⟩ := hmirrors.freshRecord 0
  refine ⟨fun hindex => ?_, fun hindex => ?_⟩
  · have hsame : names.record ref = names.record ⟨store.records.size⟩ := by
      rw [hnew]
      exact congrArg RecordRef.mk hindex
    exact congrArg RecordRef.index (names.record_injective hsame)
  · have href : ref = ⟨store.records.size⟩ := congrArg RecordRef.mk hindex
    rw [href, hnew]

theorem Mirrors.fresh_cell_iff (hmirrors : store.Mirrors names store') (ref : CellRef) :
    (names.cell ref).index = store'.cells.size ↔ ref.index = store.cells.size := by
  have hnew : names.cell ⟨store.cells.size⟩ = ⟨store'.cells.size⟩ := hmirrors.freshCell 0
  refine ⟨fun hindex => ?_, fun hindex => ?_⟩
  · have hsame : names.cell ref = names.cell ⟨store.cells.size⟩ := by
      rw [hnew]
      exact congrArg CellRef.mk hindex
    exact congrArg CellRef.index (names.cell_injective hsame)
  · have href : ref = ⟨store.cells.size⟩ := congrArg CellRef.mk hindex
    rw [href, hnew]

theorem Mirrors.register (hmirrors : store.Mirrors names store') (record : Record) :
    (store'.register (record.rename names)).1 = names.record (store.register record).1 ∧
      (store.register record).2.Mirrors names (store'.register (record.rename names)).2 := by
  have hnew : names.record ⟨store.records.size⟩ = ⟨store'.records.size⟩ := hmirrors.freshRecord 0
  refine ⟨hnew.symm, { hmirrors with record := fun ref => ?_, registry := ?_, freshRecord := ?_ }⟩
  · rw [record?_register, record?_register, hmirrors.record]
    by_cases hindex : ref.index = store.records.size
    · rw [if_pos hindex, if_pos ((hmirrors.fresh_record_iff ref).mpr hindex)]
      rfl
    · rw [if_neg hindex, if_neg (fun hsame => hindex ((hmirrors.fresh_record_iff ref).mp hsame))]
  · show store'.registry.insert record.id.text ⟨store'.records.size⟩ = _
    rw [hmirrors.registry, ← hnew, Table.insert_map]
    rfl
  · intro more
    show names.record ⟨(store.records.push _).size + more⟩ =
      ⟨(store'.records.push _).size + more⟩
    rw [Array.size_push, Array.size_push, Nat.add_assoc, Nat.add_assoc, Nat.add_comm 1]
    exact hmirrors.freshRecord (more + 1)

theorem Mirrors.getOrCreate (hmirrors : store.Mirrors names store') (id : ModuleId)
    (format : Format) :
    (store'.getOrCreate id format).1 = names.record (store.getOrCreate id format).1 ∧
      (store.getOrCreate id format).2.Mirrors names (store'.getOrCreate id format).2 := by
  unfold Store.getOrCreate
  rw [hmirrors.lookup]
  cases store.lookup? id with
  | some ref => exact ⟨rfl, hmirrors⟩
  | none =>
      cases format with
      | modern => exact hmirrors.register (.modern id)
      | legacy =>
          obtain ⟨href, hheap⟩ := hmirrors.heap.alloc {}
          rw [Table.map_empty] at href hheap
          have hregister := (hmirrors.withHeap hheap).register
            (.legacy id (.object (store.heap.alloc {}).1))
          dsimp only [Option.map_none]
          rw [href]
          exact hregister

theorem Mirrors.declare (hmirrors : store.Mirrors names store') (ref : RecordRef)
    (owner : ModuleId) (name : String) :
    (store'.declare (names.record ref) owner name).1 =
        names.cell (store.declare ref owner name).1 ∧
      (store.declare ref owner name).2.Mirrors names
        (store'.declare (names.record ref) owner name).2 := by
  have hnew : names.cell ⟨store.cells.size⟩ = ⟨store'.cells.size⟩ := hmirrors.freshCell 0
  have hpushed : Mirrors names
      { store with cells := store.cells.push ⟨ref, owner, name, none⟩ }
      { store' with cells := store'.cells.push ⟨names.record ref, owner, name, none⟩ } := by
    refine { hmirrors with cell := fun cell => ?_, freshCell := fun more => ?_ }
    · show (store'.cells.push _)[(names.cell cell).index]? = (store.cells.push _)[cell.index]?.map _
      rw [Array.getElem?_push, Array.getElem?_push]
      have hcell : store'.cells[(names.cell cell).index]? =
          store.cells[cell.index]?.map (Cell.rename names) := hmirrors.cell cell
      rw [hcell]
      by_cases hindex : cell.index = store.cells.size
      · rw [if_pos hindex, if_pos ((hmirrors.fresh_cell_iff cell).mpr hindex)]
        rfl
      · rw [if_neg hindex, if_neg (fun hsame => hindex ((hmirrors.fresh_cell_iff cell).mp hsame))]
    · show names.cell ⟨(store.cells.push _).size + more⟩ = ⟨(store'.cells.push _).size + more⟩
      rw [Array.size_push, Array.size_push, Nat.add_assoc, Nat.add_assoc, Nat.add_comm 1]
      exact hmirrors.freshCell (more + 1)
  refine ⟨hnew.symm, hpushed.modify ref (fun record => ?_)⟩
  unfold Record.rename
  dsimp only
  rw [← hnew, ← Table.insert_map]
  rfl

theorem Mirrors.namespace_ (hmirrors : store.Mirrors names store') (id : ModuleId)
    (requester? : Option ModuleId) :
    (store'.namespace_ id requester?).1 =
        (store.namespace_ id requester?).1.map (Namespace.rename names) ∧
      (store.namespace_ id requester?).2.Mirrors names (store'.namespace_ id requester?).2 := by
  have hcached : store'.cached? id requester? =
      (store.cached? id requester?).map (Namespace.rename names) := by
    unfold Store.cached?
    rw [hmirrors.namespaces, List.find?_map, Option.map_map, Option.map_map]
    rfl
  unfold Store.namespace_
  rw [hcached]
  cases store.cached? id requester? with
  | some found => exact ⟨rfl, hmirrors⟩
  | none =>
      rw [hmirrors.lookup, hmirrors.find]
      cases store.lookup? id with
      | none => exact ⟨rfl, hmirrors⟩
      | some ref =>
          cases store.find? id with
          | none => exact ⟨rfl, hmirrors⟩
          | some record =>
              have hnew : names.serial store.issued = store'.issued := hmirrors.freshSerial 0
              have hfresh : (⟨store'.issued, names.record ref, record.id,
                  (record.rename names).format, requester?⟩ : Namespace) =
                  Namespace.rename names
                    ⟨store.issued, ref, record.id, record.format, requester?⟩ := by
                rw [Record.rename_format, ← hnew]
                rfl
              refine ⟨congrArg Except.ok hfresh,
                { hmirrors with namespaces := ?_, freshSerial := fun more => ?_ }⟩
              · show store'.namespaces ++ [_] = (store.namespaces ++ [_]).map _
                rw [hmirrors.namespaces, List.map_append, List.map_singleton]
                congr 2
                exact congrArg (CachedNamespace.mk id requester?) hfresh
              · show names.serial (store.issued + 1 + more) = store'.issued + 1 + more
                rw [Nat.add_assoc, Nat.add_assoc, Nat.add_comm 1]
                exact hmirrors.freshSerial (more + 1)

/-- A namespace as a value. -/
theorem Mirrors.space (hmirrors : store.Mirrors names store') (id : ModuleId)
    (requester? : Option ModuleId) :
    (store'.namespace_ id requester?).1.map Value.space =
      ((store.namespace_ id requester?).1.map Value.space).map (Value.rename names) := by
  rw [(hmirrors.namespace_ id requester?).1]
  cases (store.namespace_ id requester?).1 <;> rfl

/-! ## Reading -/

theorem Mirrors.readCell (hmirrors : store.Mirrors names store') (ref : CellRef) :
    store'.readCell (names.cell ref) = (store.readCell ref).map (Value.rename names) := by
  unfold Store.readCell
  rw [hmirrors.cell]
  cases store.cell? ref with
  | none => rfl
  | some cell =>
      have hpoison : (store'.record? (names.record cell.record)).bind (·.poison?) =
          (store.record? cell.record).bind (·.poison?) := by
        rw [hmirrors.record]
        cases store.record? cell.record <;> rfl
      dsimp only [Option.map_some, Cell.rename]
      rw [hpoison]
      cases (store.record? cell.record).bind (·.poison?) with
      | some error => rfl
      | none =>
          dsimp only [Cell.rename]
          cases cell.value? <;> rfl

theorem Mirrors.readExports (hmirrors : store.Mirrors names store') (ref : RecordRef)
    (property? : Option String) :
    store'.readExports (names.record ref) property? =
      (store.readExports ref property?).map (Value.rename names) := by
  unfold Store.readExports
  rw [hmirrors.record]
  cases store.record? ref with
  | none => rfl
  | some record =>
      dsimp only [Option.map_some]
      rw [Record.rename_poison, Record.rename_exports, Record.rename_id]
      cases record.poison? with
      | some error => rfl
      | none =>
          cases record.exports? with
          | none => rfl
          | some exports =>
              dsimp only [Option.map_some, Exports.rename]
              cases exports.started with
              | false => rfl
              | true =>
                  cases property? with
                  | none => rfl
                  | some name => exact congrArg Except.ok (hmirrors.heap.read exports.value name)

theorem Mirrors.read (hmirrors : store.Mirrors names store') (binding : Binding)
    (requester? : Option ModuleId) :
    (store'.read (binding.rename names) requester?).1 =
        (store.read binding requester?).1.map (Value.rename names) ∧
      (store.read binding requester?).2.Mirrors names
        (store'.read (binding.rename names) requester?).2 := by
  cases binding with
  | cell ref => exact ⟨hmirrors.readCell ref, hmirrors⟩
  | exports ref property? => exact ⟨hmirrors.readExports ref property?, hmirrors⟩
  | star id => exact ⟨hmirrors.space id requester?, (hmirrors.namespace_ id requester?).2⟩

end Store

end Linkage
