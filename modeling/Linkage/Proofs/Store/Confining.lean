import Linkage.Proofs.Store.Access

/-!
# What a module can reach

A module acts on the store through its scope and through the bindings it has kept.  Of the slots that
modules share, its cells, its environment and its exports value are all it can change; what is bound
stays bound, nothing of another module changes, and an operation that fails has changed nothing.

* `Scope.Operation` : the operations, with the statements of scripts among them.
* `Store.SameSlots` : only objects and cached namespaces may have come.
* `Store.StaysInside` : what an operation may change, however it ends.
* `Scope.Operation.Leaves` : what it has changed when it succeeds.
* `Scope.Operation.stays` : every operation of every module.
-/

namespace Linkage

namespace Store

/-- Cells, records and the register of modules are as they were. -/
structure SameSlots (store store' : Store) : Prop where
  cells : store'.cells = store.cells
  records : store'.records = store.records
  registry : store'.registry = store.registry

/-- What a module may change: the values of its own cells, its environment where nothing is bound
yet, and its exports value. -/
structure StaysInside (store : Store) (ref : RecordRef) (id : ModuleId) (store' : Store) : Prop where
  cell : ∀ cell found, store.cell? cell = some found → ∃ value?,
    store'.cell? cell = some { found with value? } ∧ (found.owner ≠ id → value? = found.value?)
  other : ∀ other, other ≠ ref → store'.record? other = store.record? other
  own : ∀ record, store.record? ref = some record → ∃ environment exports?,
    store'.record? ref = some { record with environment, exports? } ∧
    exports?.map (·.started) = record.exports?.map (·.started) ∧
    ∀ name binding, record.environment.find? name = some binding →
      environment.find? name = some binding
  registry : store'.registry = store.registry

/-- One name of a record has been assigned: the record owns the cell under it, and no other cell, no
other name and nothing else of the record has changed. -/
structure Assigns (store : Store) (ref : RecordRef) (name : String) (store' : Store) : Prop where
  cell : ∃ cell record, store'.record? ref = some record ∧ store'.OwnsCell record name cell ∧
    ∀ other, other ≠ cell → store'.cell? other = store.cell? other
  record : ∀ record, store.record? ref = some record → ∃ environment,
    store'.record? ref = some { record with environment } ∧
    ∀ other, other ≠ name → environment.find? other = record.environment.find? other

/-- The exports value of a record has been replaced, and no other slot has changed. -/
structure Replaces (store : Store) (ref : RecordRef) (store' : Store) : Prop where
  cells : store'.cells = store.cells
  record : ∀ record, store.record? ref = some record → ∃ found value,
    record.exports? = some found ∧
    store'.record? ref = some { record with exports? := some { found with value } }

variable {store store' store'' : Store} {ref : RecordRef} {id : ModuleId} {name : String}

namespace SameSlots

theorem refl (store : Store) : store.SameSlots store := ⟨rfl, rfl, rfl⟩

theorem trans (hfirst : store.SameSlots store') (hsecond : store'.SameSlots store'') :
    store.SameSlots store'' :=
  ⟨hsecond.cells.trans hfirst.cells, hsecond.records.trans hfirst.records,
    hsecond.registry.trans hfirst.registry⟩

theorem record (hsame : store.SameSlots store') (ref : RecordRef) :
    store'.record? ref = store.record? ref := by
  rw [record?, hsame.records]
  rfl

theorem cell (hsame : store.SameSlots store') (cell : CellRef) :
    store'.cell? cell = store.cell? cell := by
  rw [cell?, hsame.cells]
  rfl

theorem staysInside (hsame : store.SameSlots store') (ref : RecordRef) (id : ModuleId) :
    store.StaysInside ref id store' where
  cell cell found hfound := ⟨found.value?, by rw [hsame.cell, hfound], fun _ => rfl⟩
  other other _ := hsame.record other
  own record hrecord := ⟨record.environment, record.exports?, by rw [hsame.record, hrecord], rfl,
    fun _ _ hbound => hbound⟩
  registry := hsame.registry

end SameSlots

theorem StaysInside.trans (hfirst : store.StaysInside ref id store')
    (hsecond : store'.StaysInside ref id store'') : store.StaysInside ref id store'' where
  cell cell found hfound := by
    obtain ⟨value?, hfound', hkept⟩ := hfirst.cell cell found hfound
    obtain ⟨value?', hfound'', hkept'⟩ := hsecond.cell cell _ hfound'
    exact ⟨value?', hfound'', fun hne => (hkept' hne).trans (hkept hne)⟩
  other other hother := (hsecond.other other hother).trans (hfirst.other other hother)
  own record hrecord := by
    obtain ⟨_, _, hrecord', hstarted, hbound⟩ := hfirst.own record hrecord
    obtain ⟨environment, exports?, hrecord'', hstarted', hbound'⟩ := hsecond.own _ hrecord'
    exact ⟨environment, exports?, hrecord'', hstarted'.trans hstarted,
      fun name binding hfind => hbound' name binding (hbound name binding hfind)⟩
  registry := hsecond.registry.trans hfirst.registry

/-! What comes after slots have been left as they were. -/

theorem Assigns.after (hassigns : store'.Assigns ref name store'')
    (hsame : store.SameSlots store') : store.Assigns ref name store'' where
  cell := by
    obtain ⟨cell, record, hrecord, howns, hothers⟩ := hassigns.cell
    exact ⟨cell, record, hrecord, howns, fun other hother =>
      (hothers other hother).trans (hsame.cell other)⟩
  record record hrecord := hassigns.record record (hsame.record ref ▸ hrecord)

theorem Replaces.after (hreplaces : store'.Replaces ref store'')
    (hsame : store.SameSlots store') : store.Replaces ref store'' where
  cells := hreplaces.cells.trans hsame.cells
  record record hrecord := hreplaces.record record (hsame.record ref ▸ hrecord)

/-! ## The changes themselves -/

/-- A cell that the module owns may be written. -/
theorem staysInside_writeCell {cell : CellRef} (howner : (store.cell? cell).map (·.owner) = some id)
    (ref : RecordRef) (value : Value) : store.StaysInside ref id (store.writeCell cell value) where
  cell other found hfound := by
    rw [cell?_writeCell, hfound]
    split
    · rename_i hsame
      subst hsame
      refine ⟨some value, rfl, fun hne => absurd ?_ hne⟩
      simpa [hfound] using howner
    · exact ⟨found.value?, rfl, fun _ => rfl⟩
  other other _ := record?_writeCell cell value other
  own record hrecord := ⟨record.environment, record.exports?, hrecord, rfl, fun _ _ hbound => hbound⟩
  registry := rfl

theorem assigns_writeCell {record : Record} (hrecord : store.record? ref = some record)
    {cell : CellRef} (howns : store.OwnsCell record name cell) (value : Value) :
    store.Assigns ref name (store.writeCell cell value) where
  cell := by
    obtain ⟨hbound, found, hfound, howner⟩ := howns
    refine ⟨cell, record, hrecord, ⟨hbound, { found with value? := some value }, ?_, howner⟩,
      fun other hother => ?_⟩
    · rw [cell?_writeCell, if_pos rfl, hfound]
      rfl
    · rw [cell?_writeCell, if_neg hother]
  record found hfound := ⟨found.environment, hfound, fun _ _ => rfl⟩

theorem declare_cell (store : Store) (ref : RecordRef) (id : ModuleId) (name : String) :
    (store.declare ref id name).1 = ⟨store.cells.size⟩ := rfl

theorem record?_declare_self {record : Record} (hrecord : store.record? ref = some record) :
    (store.declare ref id name).2.record? ref = some { record with
      environment := record.environment.insert name (.cell ⟨store.cells.size⟩) } := by
  rw [record?_declare, if_pos rfl, hrecord]
  rfl

/-- A name that nothing binds may be declared. -/
theorem staysInside_declare {record : Record} (hrecord : store.record? ref = some record)
    (hnew : store.binding? ref name = none) :
    store.StaysInside ref id (store.declare ref id name).2 where
  cell cell found hfound := ⟨found.value?, cell?_declare_of_cell hfound, fun _ => rfl⟩
  other other hother := by rw [record?_declare, if_neg hother]
  own found hfound := by
    obtain rfl := Option.some.inj (hrecord.symm.trans hfound)
    refine ⟨_, record.exports?, record?_declare_self hrecord, rfl,
      fun other binding hbound => ?_⟩
    rw [binding?, hrecord] at hnew
    rw [Table.find?_insert_ne _ (fun hsame => ?_), hbound]
    subst hsame
    rw [Option.bind_some, hbound] at hnew
    cases hnew
  registry := rfl

/-- A name that is declared and then written. -/
theorem assigns_declare {record : Record} (hrecord : store.record? ref = some record)
    (value : Value) : store.Assigns ref name
      ((store.declare ref record.id name).2.writeCell (store.declare ref record.id name).1 value) where
  cell := by
    refine ⟨⟨store.cells.size⟩, _, record?_declare_self hrecord,
      ⟨Table.find?_insert_self _ _ _, ⟨ref, record.id, name, some value⟩, ?_, rfl⟩, ?_⟩
    · rw [declare_cell, cell?_writeCell, if_pos rfl, cell?_declare, if_pos rfl]
      rfl
    · intro other hother
      have hne : other.index ≠ store.cells.size := fun hsame => hother (by rw [← hsame])
      rw [declare_cell, cell?_writeCell, if_neg hother, cell?_declare, if_neg hne]
  record found hfound := by
    obtain rfl := Option.some.inj (hrecord.symm.trans hfound)
    exact ⟨_, record?_declare_self hrecord, fun other hother => Table.find?_insert_ne _ hother _⟩

/-- An action of a module stays inside; when it succeeds it has done something, and when it fails it
has left all slots as they were. -/
def Stays {α : Type} (store : Store) (ref : RecordRef) (id : ModuleId) (post : Store → Prop)
    (action : Access α) : Prop :=
  store.StaysInside ref id (store.access action).2 ∧
    (∀ value, (store.access action).1 = .ok value → post (store.access action).2) ∧
    ∀ error, (store.access action).1 = .error error → store.SameSlots (store.access action).2

end Store

/-! ## Operations -/

namespace Scope

/-- An action of any module that stays inside, wherever it is carried out. -/
def Bounded {α : Type} (ref : RecordRef) (id : ModuleId) (post : Store → Store → Prop)
    (action : Access α) : Prop :=
  ∀ store record, Store.record? store ref = some record → record.id = id →
    store.Stays ref id (post store) action

/-- An action that leaves all slots as they are. -/
def Looks {α : Type} (action : Access α) : Prop :=
  ∀ store : Store, store.SameSlots (store.access action).2

variable {α β : Type} {ref : RecordRef} {id : ModuleId} {post : Store → Store → Prop}

namespace Looks

theorem bounded {action : Access α} (hlooks : Looks action) :
    Bounded ref id Store.SameSlots action :=
  fun store _ _ _ => ⟨(hlooks store).staysInside ref id, fun _ _ => hlooks store,
    fun _ _ => hlooks store⟩

theorem pure (value : α) : Looks (Pure.pure value) := fun store => .refl store

theorem throw (error : ModuleError) : Looks (MonadExcept.throw error : Access α) :=
  fun store => .refl store

theorem bind {action : Access α} {next : α → Access β} (hfirst : Looks action)
    (hnext : ∀ value, Looks (next value)) : Looks (action >>= next) := by
  intro store
  have hstore := hfirst store
  rw [Store.access_bind]
  generalize store.access action = ended at hstore
  obtain ⟨result, store'⟩ := ended
  cases result with
  | ok value => exact hstore.trans (hnext value store')
  | error error => exact hstore

end Looks

namespace Bounded

/-- Looking at something first does not matter. -/
theorem after {action : Access α} {next : α → Access β} (hfirst : Looks action)
    (hpost : ∀ {store store' store'' : Store}, store.SameSlots store' → post store' store'' →
      post store store'')
    (hnext : ∀ value, Bounded ref id post (next value)) : Bounded ref id post (action >>= next) := by
  intro store record hrecord hid
  have hstore := hfirst store
  unfold Store.Stays
  rw [Store.access_bind]
  generalize store.access action = ended at hstore
  obtain ⟨result, store'⟩ := ended
  cases result with
  | error error => exact ⟨hstore.staysInside ref id, nofun, fun _ _ => hstore⟩
  | ok value =>
      obtain ⟨hinside, hok, herror⟩ :=
        hnext value store' record ((hstore.record ref).trans hrecord) hid
      exact ⟨(hstore.staysInside ref id).trans hinside,
        fun result hresult => hpost hstore (hok result hresult),
        fun error hfailed => hstore.trans (herror error hfailed)⟩

/-- What is given in the end does not matter. -/
theorem giving {action : Access α} (hbounded : Bounded ref id post action) (result : β) :
    Bounded ref id post (do let _ ← action; return result) := by
  intro store record hrecord hid
  have hstore := hbounded store record hrecord hid
  unfold Store.Stays at hstore ⊢
  rw [Store.access_bind]
  generalize store.access action = ended at hstore
  obtain ⟨result, store'⟩ := ended
  cases result with
  | ok value => exact ⟨hstore.1, fun _ _ => hstore.2.1 value rfl, nofun⟩
  | error error => exact ⟨hstore.1, nofun, fun _ _ => hstore.2.2 error rfl⟩

end Bounded

theorem looks_lookup (ref : RecordRef) (name : String) : Looks (lookup ref name) := by
  intro store
  rw [access_lookup]
  split <;> exact .refl store

theorem looks_idOf (ref : RecordRef) : Looks (idOf ref) := fun store => .refl store

theorem sameSlots_read (store : Store) (binding : Binding) (requester? : Option ModuleId) :
    store.SameSlots (store.read binding requester?).2 := by
  cases binding with
  | star id =>
      show store.SameSlots (store.namespace_ id requester?).2
      unfold Store.namespace_
      split
      · exact .refl store
      · split
        · exact ⟨rfl, rfl, rfl⟩
        · exact .refl store
  | cell | exports => exact .refl store

theorem sameSlots_readName (store : Store) (found : Namespace) (name : String) :
    store.SameSlots (store.readName found name).2 := by
  unfold Store.readName
  split
  · exact .refl store
  · split
    · exact sameSlots_read store _ _
    · exact .refl store
    · exact .refl store

theorem looks_read (ref : RecordRef) (name : String) : Looks (read ref name) :=
  (looks_lookup ref name).bind (fun binding => (looks_idOf ref).bind (fun id store =>
    sameSlots_read store binding (some id)))

theorem looks_exports (ref : RecordRef) : Looks (exports ref) := by
  intro store
  rw [access_exports]
  split <;> exact .refl store

theorem looks_capture (ref : RecordRef) (name : String) : Looks (capture ref name) :=
  (looks_lookup ref name).bind (fun _ => (looks_idOf ref).bind (fun _ => .pure _))

theorem looks_literal (json : Json) : Looks (literal json) := fun _ => ⟨rfl, rfl, rfl⟩

theorem looks_property (value : Value) (name : String) : Looks (property value name) := by
  unfold property
  split
  · exact fun store => sameSlots_readName store _ name
  · exact fun store => .refl store
  · exact .throw _

/-- A property of an exports value is a property of an object, and no slot. -/
theorem looks_exportProperty (ref : RecordRef) (name : String) (value : Value) :
    Looks (exportProperty ref name value) := by
  refine (looks_exports ref).bind (fun found => ?_)
  split
  · exact (looks_idOf ref).bind (fun _ => .throw _)
  · exact fun _ => ⟨rfl, rfl, rfl⟩

/-- To assign a name writes an own cell, declares one, or fails. -/
theorem bounded_write (name : String) (value : Value) :
    Bounded ref id (fun store store' => store.Assigns ref name store') (write ref name value) := by
  rintro store record hrecord rfl
  unfold Store.Stays
  rw [access_write, hrecord, Option.map_some, Option.getD_some]
  have hkept := Store.SameSlots.refl store
  cases hbound : store.binding? ref name with
  | none =>
      refine ⟨(Store.staysInside_declare hrecord hbound).trans
        (Store.staysInside_writeCell ?_ ref value), fun _ _ => Store.assigns_declare hrecord value,
        nofun⟩
      show ((store.declare ref record.id name).2.cell? ⟨store.cells.size⟩).map (·.owner) = _
      rw [Store.cell?_declare, if_pos rfl]
      rfl
  | some binding =>
      cases binding with
      | star source => exact ⟨hkept.staysInside ref _, nofun, fun _ _ => hkept⟩
      | exports source property? => exact ⟨hkept.staysInside ref _, nofun, fun _ _ => hkept⟩
      | cell cell =>
          dsimp only
          split
          · rename_i howner
            obtain ⟨found, hfound, howns⟩ := Option.map_eq_some_iff.mp howner
            have hfind : record.environment.find? name = some (.cell cell) := by
              rw [Store.binding?, hrecord] at hbound
              exact hbound
            exact ⟨Store.staysInside_writeCell howner ref value, fun _ _ =>
              Store.assigns_writeCell hrecord ⟨hfind, found, hfound, howns⟩ value, nofun⟩
          · exact ⟨hkept.staysInside ref _, nofun, fun _ _ => hkept⟩

/-- To replace the exports value changes that of the module alone. -/
theorem bounded_replaceExports (value : Value) :
    Bounded ref id (fun store store' => store.Replaces ref store') (replaceExports ref value) := by
  rintro store record hrecord rfl
  unfold Store.Stays replaceExports
  rw [Store.access_bind, access_exports, hrecord, Option.bind_some]
  have hkept := Store.SameSlots.refl store
  cases hexports : record.exports? with
  | none => exact ⟨hkept.staysInside ref _, nofun, fun _ _ => hkept⟩
  | some found =>
      have hrecord' : (store.modify ref (fun record =>
          { record with exports? := some { found with value } })).record? ref =
          some { record with exports? := some { found with value } } :=
        Store.record?_modify_self _ hrecord
      refine ⟨⟨fun cell slot hslot => ⟨slot.value?, hslot, fun _ => rfl⟩,
        fun other hother => Store.record?_modify_ne hother _, fun other hother => ?_, rfl⟩,
        fun _ _ => ⟨rfl, fun other hother => ?_⟩, nofun⟩
      · obtain rfl := Option.some.inj (hrecord.symm.trans hother)
        refine ⟨record.environment, _, hrecord', ?_, fun _ _ hfind => hfind⟩
        rw [hexports]
        rfl
      · obtain rfl := Option.some.inj (hrecord.symm.trans hother)
        exact ⟨found, value, hexports, hrecord'⟩

/-- What a statement of a script has changed when it succeeds. -/
def StatementLeaves (ref : RecordRef) (store store' : Store) : Statement → Prop
  | .set name _ | .copy _ name | .get _ _ name | .add name _ => store.Assigns ref name store'
  | .setDefault _ => store.Assigns ref defaultLocal store'
  | .setExports _ => store.Replaces ref store'
  | _ => store.SameSlots store'

theorem bounded_run (statement : Statement) :
    Bounded ref id (fun store store' => StatementLeaves ref store store' statement)
      (run ref statement) := by
  -- values are found first, and then a name is assigned or the exports value is changed
  cases statement with
  | set name value =>
      exact .after (looks_literal value) (fun hsame hassigns => hassigns.after hsame)
        (fun found => (bounded_write name found).giving none)
  | copy source target =>
      exact .after (looks_read ref source) (fun hsame hassigns => hassigns.after hsame)
        (fun found => (bounded_write target found).giving none)
  | get object name target =>
      exact .after (looks_read ref object) (fun hsame hassigns => hassigns.after hsame)
        (fun found => .after (looks_property found name) (fun hsame hassigns => hassigns.after hsame)
          (fun value => (bounded_write target value).giving none))
  | add name amount =>
      exact .after (looks_read ref name) (fun hsame hassigns => hassigns.after hsame)
        (fun found => (bounded_write name _).giving none)
  | setDefault value =>
      exact .after (looks_literal value) (fun hsame hassigns => hassigns.after hsame)
        (fun found => (bounded_write defaultLocal found).giving none)
  | require specifier target? => exact (Looks.pure _).bounded
  | exportValue name value =>
      exact ((looks_literal value).bind (fun found =>
        (looks_exportProperty ref name found).bind (fun _ => .pure _))).bounded
  | exportBinding name source =>
      exact ((looks_read ref source).bind (fun found =>
        (looks_exportProperty ref name found).bind (fun _ => .pure _))).bounded
  | setExports value =>
      exact .after (looks_literal value) (fun hsame hreplaces => hreplaces.after hsame)
        (fun found => (bounded_replaceExports found).giving none)
  | throw text => exact (Looks.throw _).bounded
  | log name =>
      have hheap : Looks (get : Access Store) := fun store => .refl store
      exact ((looks_read ref name).bind (fun found => hheap.bind (fun _ => .pure _))).bounded

/-- What a module does to the store, through its scope or through a binding that it has kept, or by
running a statement of a script. -/
inductive Operation where
  /-- Read a name. -/
  | read (name : String)
  /-- Assign a name. -/
  | write (name : String) (value : Value)
  /-- Give the default export its value. -/
  | writeDefault (value : Value)
  /-- Keep what a name refers to. -/
  | capture (name : String)
  /-- Read the exports value. -/
  | exports
  /-- Replace the exports value. -/
  | replaceExports (value : Value)
  /-- Set a property of the exports value. -/
  | exportProperty (name : String) (value : Value)
  /-- Read what was kept of a name. -/
  | readLive (name : String) (live : LiveBinding)
  /-- Write what was kept of a name. -/
  | writeLive (name : String) (live : LiveBinding) (value : Value)
  /-- Run a statement. -/
  | run (statement : Statement)

namespace Operation

/-- Carry an operation out for a record. -/
def perform (ref : RecordRef) : Operation → Access Unit
  | .read name => do let _ ← Scope.read ref name; return ()
  | .write name value => Scope.write ref name value
  | .writeDefault value => Scope.write ref defaultLocal value
  | .capture name => do let _ ← Scope.capture ref name; return ()
  | .exports => do let _ ← Scope.exports ref; return ()
  | .replaceExports value => Scope.replaceExports ref value
  | .exportProperty name value => Scope.exportProperty ref name value
  | .readLive _ live => do let _ ← live.read; return ()
  | .writeLive _ live value => live.write value
  | .run statement => do let _ ← Scope.run ref statement; return ()

/-- Operations that a module may carry out: what was kept of a name was kept for the module, and the
name refers to it still; to require another module does more than these operations do. -/
def HeldBy (store : Store) (ref : RecordRef) (id : ModuleId) : Operation → Prop
  | .readLive name live | .writeLive name live _ =>
      live.requester = id ∧ store.binding? ref name = some live.binding
  | .run statement => ∀ specifier target?, statement ≠ .require specifier target?
  | _ => True

/-- What an operation has changed when it succeeds. -/
def Leaves (ref : RecordRef) (store store' : Store) : Operation → Prop
  | .write name _ | .writeLive name _ _ => store.Assigns ref name store'
  | .writeDefault _ => store.Assigns ref defaultLocal store'
  | .replaceExports _ => store.Replaces ref store'
  | .run statement => StatementLeaves ref store store' statement
  | .read _ | .capture _ | .exports | .exportProperty _ _ | .readLive _ _ => store.SameSlots store'

/-- To write what was kept of a name writes the cell of the module that the name refers to, or
fails. -/
theorem stays_writeLive {store : Store} {record : Record}
    (hrecord : store.record? ref = some record) {name : String} {live : LiveBinding}
    (hrequester : live.requester = record.id)
    (hbound : store.binding? ref name = some live.binding) (value : Value) :
    store.Stays ref record.id (fun store' => store.Assigns ref name store') (live.write value) := by
  unfold Store.Stays LiveBinding.write
  rw [Store.access_bind, Store.access_get, hrequester]
  have hkept := Store.SameSlots.refl store
  cases hbinding : live.binding with
  | star source => exact ⟨hkept.staysInside ref _, nofun, fun _ _ => hkept⟩
  | exports source property? => exact ⟨hkept.staysInside ref _, nofun, fun _ _ => hkept⟩
  | cell cell =>
      dsimp only
      split
      · rename_i howner
        obtain ⟨found, hfound, howns⟩ := Option.map_eq_some_iff.mp howner
        rw [Store.binding?, hrecord, hbinding] at hbound
        exact ⟨Store.staysInside_writeCell howner ref value, fun _ _ =>
          Store.assigns_writeCell hrecord ⟨hbound, found, hfound, howns⟩ value, nofun⟩
      · exact ⟨hkept.staysInside ref _, nofun, fun _ _ => hkept⟩

/-- **Whatever a module does in any store, it stays inside.** -/
theorem stays {store : Store} {record : Record} (hrecord : store.record? ref = some record)
    {operation : Operation} (hheld : operation.HeldBy store ref record.id) :
    store.Stays ref record.id (fun store' => operation.Leaves ref store store')
      (operation.perform ref) := by
  cases operation with
  | read name => exact (looks_read ref name).bounded.giving () store record hrecord rfl
  | write name value => exact bounded_write name value store record hrecord rfl
  | writeDefault value => exact bounded_write defaultLocal value store record hrecord rfl
  | capture name => exact (looks_capture ref name).bounded.giving () store record hrecord rfl
  | exports => exact (looks_exports ref).bounded.giving () store record hrecord rfl
  | replaceExports value => exact bounded_replaceExports value store record hrecord rfl
  | exportProperty name value =>
      exact (looks_exportProperty ref name value).bounded store record hrecord rfl
  | readLive name live =>
      have hlooks : Looks live.read := fun store => sameSlots_read store _ _
      exact hlooks.bounded.giving () store record hrecord rfl
  | writeLive name live value => exact stays_writeLive hrecord hheld.1 hheld.2 value
  | run statement => exact (bounded_run statement).giving () store record hrecord rfl

end Operation

end Scope

end Linkage
