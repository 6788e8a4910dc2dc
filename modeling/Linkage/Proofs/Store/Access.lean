import Linkage.Proofs.Store.Touch
import Linkage.Store.Scope

/-!
# What accesses do

The equations of `Store.access`, and what the operations of a scope leave behind: they change
values, and at most they declare a name of the running module that nothing binds.
-/

namespace Linkage

namespace Store

variable {α β : Type} {store : Store}

@[simp] theorem access_pure (value : α) : store.access (pure value) = (.ok value, store) := rfl

@[simp] theorem access_throw (error : ModuleError) :
    store.access (throw error : Access α) = (.error error, store) := rfl

@[simp] theorem access_get : store.access get = (.ok store, store) := rfl

@[simp] theorem access_set (store' : Store) : store.access (set store') = (.ok ⟨⟩, store') := rfl

@[simp] theorem access_of (f : Store → Except ModuleError α × Store) :
    store.access (Access.of f) = f store := rfl

@[simp] theorem access_modifyGet (f : Store → α × Store) :
    store.access (modifyGet f) = (.ok (f store).1, (f store).2) := rfl

theorem access_bind (action : Access α) (next : α → Access β) :
    store.access (action >>= next) = match store.access action with
      | (.ok value, store) => store.access (next value)
      | (.error error, store) => (.error error, store) := by
  unfold access
  rw [ExceptT.run_bind, StateT.run_bind]
  generalize action.run.run store = ended
  obtain ⟨result, store'⟩ := ended
  cases result with
  | ok value => rfl
  | error error => rfl

/-- What a body of a record does to the store: it changes values, or the exports value of the record,
or declares a name that nothing binds. -/
inductive Works (ref : RecordRef) (store : Store) : Store → Prop
  | stir {store' : Store} (hstir : store.Stir store') : Works ref store store'
  | exports (value : Value) : Works ref store (store.modify ref (fun record =>
      { record with exports? := record.exports?.map (fun exports => { exports with value }) }))
  | declare {owner : ModuleId} {name : String} (hnew : store.binding? ref name = none)
      (howner : ∀ record, store.record? ref = some record → record.id = owner) :
      Works ref store (store.declare ref owner name).2

theorem works_of_stirs {ref : RecordRef} {store' : Store} (hstirs : store.Stirs store') :
    Relation.ReflTransGen (Works ref) store store' := by
  induction hstirs with
  | refl => exact .refl
  | tail _ hstir ih => exact ih.tail (.stir hstir)

theorem stirs_read (store : Store) (binding : Binding) (requester? : Option ModuleId) :
    store.Stirs (store.read binding requester?).2 := by
  cases binding with
  | cell ref => exact .refl
  | star id => exact .single (.space id requester?)
  | exports ref property? => exact .refl

theorem stirs_readName (store : Store) (found : Namespace) (name : String) :
    store.Stirs (store.readName found name).2 := by
  unfold readName
  split
  · exact .refl
  · split
    · exact stirs_read store _ found.requester?
    · exact .refl
    · exact .refl

end Store

/-- An access that does no more than a body of the record may. -/
def Access.Within {α : Type} (ref : RecordRef) (action : Access α) : Prop :=
  ∀ store : Store, Relation.ReflTransGen (Store.Works ref) store (store.access action).2

namespace Access.Within

variable {α β : Type} {ref : RecordRef}

theorem of_stirs {action : Access α}
    (hstirs : ∀ store : Store, store.Stirs (store.access action).2) : Within ref action :=
  fun store => Store.works_of_stirs (hstirs store)

theorem bind {action : Access α} {next : α → Access β} (hfirst : Within ref action)
    (hnext : ∀ value, Within ref (next value)) : Within ref (action >>= next) := by
  intro store
  have hstore := hfirst store
  rw [Store.access_bind]
  generalize store.access action = ended at hstore
  obtain ⟨result, store'⟩ := ended
  cases result with
  | ok value => exact hstore.trans (hnext value store')
  | error error => exact hstore

theorem pure (value : α) : Within ref (Pure.pure value) := fun _ => .refl

theorem throw (error : ModuleError) : Within ref (MonadExcept.throw error : Access α) :=
  fun _ => .refl

/-- An access that leaves the store as it is. -/
theorem of_same {action : Access α} (hsame : ∀ store : Store, (store.access action).2 = store) :
    Within ref action := by
  intro store
  rw [hsame store]

end Access.Within

namespace Scope

variable {store : Store} (ref : RecordRef)

theorem access_idOf : store.access (idOf ref) =
    (.ok (((store.record? ref).map (·.id)).getD default), store) := rfl

theorem access_lookup (name : String) : store.access (lookup ref name) =
    match store.binding? ref name with
      | some binding => (.ok binding, store)
      | none => (.error (.unresolvedName (((store.record? ref).map (·.id)).getD default) name),
          store) := by
  unfold lookup
  rw [Store.access_bind, Store.access_get]
  dsimp only
  cases store.binding? ref name with
  | some binding => rfl
  | none => rfl

theorem access_exports : store.access (exports ref) =
    match (store.record? ref).bind (·.exports?) with
      | some exports => (.ok exports, store)
      | none => (.error (.notLegacy (((store.record? ref).map (·.id)).getD default)), store) := by
  unfold exports
  rw [Store.access_bind, Store.access_get]
  dsimp only
  cases (store.record? ref).bind (·.exports?) with
  | some exports => rfl
  | none => rfl

/-- Reading a name that is bound reads the slot on behalf of the module. -/
theorem access_read {record : Record} {name : String} {binding : Binding}
    (hrecord : store.record? ref = some record)
    (hbound : store.binding? ref name = some binding) :
    store.access (read ref name) = store.read binding (some record.id) := by
  unfold read
  rw [Store.access_bind, access_lookup, hbound]
  dsimp only
  rw [Store.access_bind, access_idOf, hrecord]
  rfl

/-- Writing a name: an own cell is written, an import is refused, and a name that nothing binds is
declared. -/
theorem access_write (name : String) (value : Value) : store.access (write ref name value) =
    let id := ((store.record? ref).map (·.id)).getD default
    match store.binding? ref name with
      | some (.cell cell) =>
          if (store.cell? cell).map (·.owner) = some id then (.ok ⟨⟩, store.writeCell cell value)
          else (.error (.immutableBinding id name), store)
      | some _ => (.error (.immutableBinding id name), store)
      | none => (.ok ⟨⟩, (store.declare ref id name).2.writeCell (store.declare ref id name).1
          value) := by
  unfold write
  rw [Store.access_bind, Store.access_get]
  dsimp only
  rw [Store.access_bind, access_idOf]
  dsimp only
  cases store.binding? ref name with
  | none => rfl
  | some binding =>
      cases binding with
      | cell cell =>
          dsimp only
          split <;> rfl
      | star id => rfl
      | exports record property? => rfl

/-- A name that is written is declared first if nothing binds it. -/
theorem within_write (name : String) (value : Value) :
    Access.Within ref (write ref name value) := by
  intro store
  rw [access_write]
  dsimp only
  cases hbound : store.binding? ref name with
  | some binding =>
      cases binding with
      | cell cell =>
          dsimp only
          split
          · exact .single (.stir (.write cell value))
          · exact .refl
      | star id => exact .refl
      | exports record property? => exact .refl
  | none =>
      refine .tail (.single (.declare hbound ?_)) (.stir (.write _ value))
      intro record hrecord
      rw [hrecord]
      rfl

theorem within_read (name : String) : Access.Within ref (read ref name) := by
  unfold read
  refine Access.Within.bind (.of_same (fun store => ?_)) (fun binding => ?_)
  · rw [access_lookup]
    split <;> rfl
  · refine Access.Within.bind (.of_same (fun store => rfl)) (fun id => ?_)
    exact .of_stirs (fun store => store.stirs_read binding (some id))

theorem within_exports : Access.Within ref (exports ref) := by
  refine .of_same (fun store => ?_)
  rw [access_exports]
  split <;> rfl

theorem within_literal (json : Json) : Access.Within ref (literal json) :=
  .of_stirs (fun _ => .single (.heap _))

theorem within_property (value : Value) (name : String) :
    Access.Within ref (property value name) := by
  unfold property
  split
  · exact .of_stirs (fun store => store.stirs_readName _ name)
  · exact .of_same (fun store => rfl)
  · exact .throw _

theorem within_replaceExports (value : Value) : Access.Within ref (replaceExports ref value) := by
  intro store
  unfold replaceExports
  rw [Store.access_bind, access_exports]
  cases hexports : (store.record? ref).bind (·.exports?) with
  | none => exact .refl
  | some found =>
      -- the handle that was read is the one the record has, so only its value is replaced
      have hsame : store.modify ref (fun record =>
          { record with exports? := some { found with value } }) =
        store.modify ref (fun record =>
          { record with exports? := record.exports?.map (fun old => { old with value }) }) := by
        refine Store.modify_congr (fun record hrecord => ?_)
        rw [hrecord, Option.bind_some] at hexports
        simp only [hexports, Option.map_some]
      have hworks : store.Works ref _ := .exports value
      rw [← hsame] at hworks
      exact .single hworks

theorem within_exportProperty (name : String) (value : Value) :
    Access.Within ref (exportProperty ref name value) := by
  unfold exportProperty
  refine (within_exports ref).bind (fun found => ?_)
  split
  · exact Access.Within.bind (.of_same (fun store => rfl)) (fun _ => .throw _)
  · exact .of_stirs (fun store => .single (.heap _))

theorem within_capture (name : String) : Access.Within ref (capture ref name) := by
  unfold capture
  refine Access.Within.bind (.of_same (fun store => ?_)) (fun binding => ?_)
  · rw [access_lookup]
    split <;> rfl
  · exact Access.Within.bind (.of_same (fun store => rfl)) (fun _ => .pure _)

/-- A statement of a script does no more than a body may. -/
theorem within_run (statement : Statement) : Access.Within ref (run ref statement) := by
  cases statement with
  | set name value =>
      exact (within_literal ref value).bind (fun found =>
        (within_write ref name found).bind (fun _ => .pure _))
  | copy source target =>
      exact (within_read ref source).bind (fun found =>
        (within_write ref target found).bind (fun _ => .pure _))
  | get object name target =>
      exact (within_read ref object).bind (fun found =>
        (within_property ref found name).bind (fun value =>
          (within_write ref target value).bind (fun _ => .pure _)))
  | add name amount =>
      exact (within_read ref name).bind (fun found =>
        (within_write ref name _).bind (fun _ => .pure _))
  | setDefault value =>
      exact (within_literal ref value).bind (fun found =>
        (within_write ref defaultLocal found).bind (fun _ => .pure _))
  | require specifier target? => exact .pure _
  | exportValue name value =>
      exact (within_literal ref value).bind (fun found =>
        (within_exportProperty ref name found).bind (fun _ => .pure _))
  | exportBinding name source =>
      exact (within_read ref source).bind (fun found =>
        (within_exportProperty ref name found).bind (fun _ => .pure _))
  | setExports value =>
      exact (within_literal ref value).bind (fun found =>
        (within_replaceExports ref found).bind (fun _ => .pure _))
  | throw text => exact .throw _
  | log name =>
      exact (within_read ref name).bind (fun found =>
        Access.Within.bind (.of_same (fun store => rfl)) (fun _ => .pure _))

end Scope

end Linkage
