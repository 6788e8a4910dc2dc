import Linkage.Proofs.Renaming.Linking
import Linkage.Proofs.Store.Access

/-!
# Bodies under new names

What a body does with the names of its module does the same to stores that mirror each other.

* `Access.Mirrors` : two accesses that do the same under new names.
* `Scope.run_mirrors`, `LiveBinding.read_mirrors` and their like : the operations of a scope.
-/

namespace Linkage

variable {names : Renaming}

/-- Two accesses that do the same to stores that mirror each other, and give results that
correspond. -/
def Access.Mirrors {α β : Type} (names : Renaming) (R : α → β → Prop) (action : Access α)
    (action' : Access β) : Prop :=
  ∀ store store' : Store, store.Mirrors names store' →
    Matches R (store.access action).1 (store'.access action').1 ∧
      (store.access action).2.Mirrors names (store'.access action').2

namespace Access.Mirrors

variable {α α' β β' : Type} {R : α → α' → Prop} {S : β → β' → Prop}

theorem pure {value : α} {value' : α'} (hvalue : R value value') :
    Access.Mirrors names R (Pure.pure value) (Pure.pure value') :=
  fun _ _ hmirrors => ⟨.ok hvalue, hmirrors⟩

theorem throw (error : ModuleError) :
    Access.Mirrors names R (MonadExcept.throw error) (MonadExcept.throw error) :=
  fun _ _ hmirrors => ⟨.error error, hmirrors⟩

theorem bind {action : Access α} {action' : Access α'} {more : α → Access β}
    {more' : α' → Access β'} (hfirst : Access.Mirrors names R action action')
    (hmore : ∀ value value', R value value' →
      Access.Mirrors names S (more value) (more' value')) :
    Access.Mirrors names S (action >>= more) (action' >>= more') := by
  intro store store' hmirrors
  obtain ⟨hresult, hmirrors'⟩ := hfirst store store' hmirrors
  rw [Store.access_bind, Store.access_bind]
  generalize store.access action = ended at hresult hmirrors'
  generalize store'.access action' = ended' at hresult hmirrors'
  obtain ⟨result, store⟩ := ended
  obtain ⟨result', store'⟩ := ended'
  cases hresult with
  | error error => exact ⟨.error error, hmirrors'⟩
  | ok hvalue => exact hmore _ _ hvalue _ _ hmirrors'

/-- An access that begins by looking at the store. -/
theorem get_bind {more : Store → Access β} {more' : Store → Access β'}
    (hmore : ∀ store store' : Store, store.Mirrors names store' →
      Matches S (store.access (more store)).1 (store'.access (more' store')).1 ∧
        (store.access (more store)).2.Mirrors names (store'.access (more' store')).2) :
    Access.Mirrors names S (get >>= more) (get >>= more') := by
  intro store store' hmirrors
  rw [Store.access_bind, Store.access_bind, Store.access_get, Store.access_get]
  exact hmore store store' hmirrors

/-- An access made of a function on stores. -/
theorem of {f : Store → Except ModuleError α × Store} {f' : Store → Except ModuleError α' × Store}
    (hsame : ∀ store store' : Store, store.Mirrors names store' →
      Matches R (f store).1 (f' store').1 ∧ (f store).2.Mirrors names (f' store').2) :
    Access.Mirrors names R (Access.of f) (Access.of f') := hsame

/-- An access that changes the store and gives a result. -/
theorem modifyGet {f : Store → α × Store} {f' : Store → α' × Store}
    (hsame : ∀ store store' : Store, store.Mirrors names store' →
      R (f store).1 (f' store').1 ∧ (f store).2.Mirrors names (f' store').2) :
    Access.Mirrors names R (MonadStateOf.modifyGet f) (MonadStateOf.modifyGet f') :=
  fun store store' hmirrors =>
    ⟨.ok (hsame store store' hmirrors).1, (hsame store store' hmirrors).2⟩

theorem mono {T : α → α' → Prop} {action : Access α} {action' : Access α'}
    (haction : Access.Mirrors names R action action')
    (himplies : ∀ value value', R value value' → T value value') :
    Access.Mirrors names T action action' :=
  fun store store' hmirrors =>
    ⟨(haction store store' hmirrors).1.mono himplies, (haction store store' hmirrors).2⟩

end Access.Mirrors

/-- Two accesses that give the same value under new names. -/
abbrev Access.SameValue (names : Renaming) (action action' : Access Value) : Prop :=
  Access.Mirrors names (fun value value' => value' = value.rename names) action action'

/-- Two accesses that give nothing. -/
abbrev Access.SameDeed (names : Renaming) (action action' : Access Unit) : Prop :=
  Access.Mirrors names (fun _ _ => True) action action'

namespace Scope

variable (ref : RecordRef)

theorem idOf_mirrors :
    Access.Mirrors names (fun id id' => id' = id) (idOf ref) (idOf (names.record ref)) := by
  refine .get_bind (fun store store' hmirrors => ⟨?_, hmirrors⟩)
  rw [hmirrors.record, Option.map_map]
  exact .ok rfl

theorem lookup_mirrors (name : String) :
    Access.Mirrors names (fun binding binding' => binding' = binding.rename names)
      (lookup ref name) (lookup (names.record ref) name) := by
  refine .get_bind (fun store store' hmirrors => ?_)
  rw [hmirrors.binding]
  cases store.binding? ref name with
  | some binding => exact ⟨.ok rfl, hmirrors⟩
  | none =>
      have hthrow : Access.Mirrors names
          (fun binding binding' : Binding => binding' = binding.rename names)
          (idOf ref >>= fun id => throw (.unresolvedName id name))
          (idOf (names.record ref) >>= fun id => throw (.unresolvedName id name)) := by
        refine (idOf_mirrors ref).bind (fun id id' hid => ?_)
        subst hid
        exact .throw _
      exact hthrow store store' hmirrors

theorem read_mirrors (name : String) :
    Access.SameValue names (read ref name) (read (names.record ref) name) := by
  refine (lookup_mirrors ref name).bind (fun binding _ hbinding => ?_)
  subst hbinding
  refine (idOf_mirrors ref).bind (fun id _ hid => ?_)
  subst hid
  exact .of (fun store store' hmirrors =>
    ⟨.of_map (hmirrors.read binding _).1, (hmirrors.read binding _).2⟩)

theorem write_mirrors (name : String) (value : Value) :
    Access.SameDeed names (write ref name value)
      (write (names.record ref) name (value.rename names)) := by
  refine .get_bind (fun store store' hmirrors => ?_)
  have hid : Matches (fun id id' => id' = id) (store.access (idOf ref)).1
      (store'.access (idOf (names.record ref))).1 ∧ _ := idOf_mirrors ref store store' hmirrors
  rw [access_idOf, access_idOf] at hid
  rw [Store.access_bind, Store.access_bind, access_idOf, access_idOf]
  obtain ⟨hsame, -⟩ := hid
  generalize ((store.record? ref).map (·.id)).getD default = id at hsame ⊢
  generalize ((store'.record? (names.record ref)).map (·.id)).getD default = id' at hsame ⊢
  obtain rfl : id' = id := by
    cases hsame with
    | ok hvalue => exact hvalue
  dsimp only
  rw [hmirrors.binding]
  cases store.binding? ref name with
  | none =>
      obtain ⟨hcell, hdeclared⟩ := hmirrors.declare ref id' name
      dsimp only [Option.map_none]
      rw [Store.access_set, Store.access_set, hcell]
      exact ⟨.ok trivial, hdeclared.writeCell _ value⟩
  | some binding =>
      cases binding with
      | star | exports => exact ⟨.error _, hmirrors⟩
      | cell cell =>
          have howner : (store'.cell? (names.cell cell)).map (·.owner) =
              (store.cell? cell).map (·.owner) := by
            rw [hmirrors.cell, Option.map_map]
            rfl
          dsimp only [Option.map_some, Binding.rename]
          rw [howner]
          split
          · exact ⟨.ok trivial, hmirrors.writeCell cell value⟩
          · exact ⟨.error _, hmirrors⟩

theorem exports_mirrors :
    Access.Mirrors names (fun exports exports' => exports' = exports.rename names)
      (exports ref) (exports (names.record ref)) := by
  refine .get_bind (fun store store' hmirrors => ?_)
  have hexports : (store'.record? (names.record ref)).bind (·.exports?) =
      ((store.record? ref).bind (·.exports?)).map (Exports.rename names) := by
    rw [hmirrors.record]
    cases store.record? ref <;> rfl
  rw [hexports]
  cases (store.record? ref).bind (·.exports?) with
  | some exports => exact ⟨.ok rfl, hmirrors⟩
  | none =>
      have hthrow : Access.Mirrors names
          (fun exports exports' : Exports => exports' = exports.rename names)
          (idOf ref >>= fun id => throw (.notLegacy id))
          (idOf (names.record ref) >>= fun id => throw (.notLegacy id)) := by
        refine (idOf_mirrors ref).bind (fun id id' hid => ?_)
        subst hid
        exact .throw _
      exact hthrow store store' hmirrors

theorem replaceExports_mirrors (value : Value) :
    Access.SameDeed names (replaceExports ref value)
      (replaceExports (names.record ref) (value.rename names)) := by
  refine (exports_mirrors ref).bind (fun exports _ hexports => ?_)
  subst hexports
  exact .modifyGet (fun store store' hmirrors =>
    ⟨trivial, hmirrors.modify ref (fun record => rfl)⟩)

theorem exportProperty_mirrors (name : String) (value : Value) :
    Access.SameDeed names (exportProperty ref name value)
      (exportProperty (names.record ref) name (value.rename names)) := by
  refine (exports_mirrors ref).bind (fun exports _ hexports => ?_)
  subst hexports
  dsimp only [Exports.rename]
  rw [Value.rename_toObject]
  cases exports.value.toObject? with
  | none =>
      refine (idOf_mirrors ref).bind (fun id _ hid => ?_)
      subst hid
      exact .throw _
  | some object =>
      exact .modifyGet (fun store store' hmirrors =>
        ⟨trivial, hmirrors.withHeap (hmirrors.heap.set object name value)⟩)

theorem capture_mirrors (name : String) :
    Access.Mirrors names (fun live live' => live' = live.rename names)
      (capture ref name) (capture (names.record ref) name) := by
  refine (lookup_mirrors ref name).bind (fun binding _ hbinding => ?_)
  subst hbinding
  refine (idOf_mirrors ref).bind (fun id _ hid => ?_)
  subst hid
  exact .pure rfl

theorem literal_mirrors (json : Json) : Access.SameValue names (literal json) (literal json) :=
  .modifyGet (fun _ _ hmirrors =>
    ⟨(Value.ofJson_mirrors json hmirrors.heap).1,
      hmirrors.withHeap (Value.ofJson_mirrors json hmirrors.heap).2⟩)

theorem property_mirrors (value : Value) (name : String) :
    Access.SameValue names (property value name) (property (value.rename names) name) := by
  cases value with
  | space found =>
      exact .of (fun store store' hmirrors =>
        ⟨.of_map (hmirrors.readName found name).1, (hmirrors.readName found name).2⟩)
  | object ref =>
      refine .get_bind (fun store store' hmirrors => ⟨.ok ?_, hmirrors⟩)
      rw [hmirrors.heap.get]
      cases store.heap.get? ref name <;> rfl
  | undefined | null | boolean | number | text => exact .throw _

/-- A statement that stays within the scope does the same under new names. -/
theorem run_mirrors (statement : Statement) :
    Access.Mirrors names (fun _ _ => True) (run ref statement)
      (run (names.record ref) statement) := by
  have hdone : ∀ {action action' : Access Unit}, Access.SameDeed names action action' →
      Access.Mirrors names (fun _ _ => True)
        (action >>= fun _ => (pure none : Access (Option String)))
        (action' >>= fun _ => (pure none : Access (Option String))) :=
    fun haction => haction.bind (fun _ _ _ => .pure trivial)
  have hthen : ∀ {action action' : Access Value} {deed deed' : Value → Access Unit},
      Access.SameValue names action action' →
      (∀ value, Access.SameDeed names (deed value) (deed' (value.rename names))) →
      Access.Mirrors names (fun _ _ => True)
        (action >>= fun value => deed value >>= fun _ => (pure none : Access (Option String)))
        (action' >>= fun value => deed' value >>= fun _ => (pure none : Access (Option String))) := by
    intro action action' deed deed' haction hdeed
    refine haction.bind (fun value _ hvalue => ?_)
    subst hvalue
    exact hdone (hdeed value)
  cases statement with
  | set name value => exact hthen (literal_mirrors value) (write_mirrors ref name)
  | copy source target => exact hthen (read_mirrors ref source) (write_mirrors ref target)
  | get object name target =>
      refine (read_mirrors ref object).bind (fun value _ hvalue => ?_)
      subst hvalue
      exact hthen (property_mirrors value name) (write_mirrors ref target)
  | add name amount =>
      refine (read_mirrors ref name).bind (fun value _ hvalue => ?_)
      subst hvalue
      rw [Value.rename_toNumber]
      exact hdone (write_mirrors ref name (.number _))
  | setDefault value => exact hthen (literal_mirrors value) (write_mirrors ref defaultLocal)
  | require specifier target => exact .pure trivial
  | exportValue name value => exact hthen (literal_mirrors value) (exportProperty_mirrors ref name)
  | exportBinding name source =>
      exact hthen (read_mirrors ref source) (exportProperty_mirrors ref name)
  | setExports value => exact hthen (literal_mirrors value) (replaceExports_mirrors ref)
  | throw text => exact .throw _
  | log name =>
      refine (read_mirrors ref name).bind (fun value _ hvalue => ?_)
      exact .get_bind (fun store store' hmirrors => ⟨.ok trivial, hmirrors⟩)

end Scope

namespace LiveBinding

variable (live : LiveBinding)

theorem read_mirrors : Access.SameValue names live.read (live.rename names).read :=
  .of (fun _ _ hmirrors =>
    ⟨.of_map (hmirrors.read live.binding _).1, (hmirrors.read live.binding _).2⟩)

theorem write_mirrors (value : Value) :
    Access.SameDeed names (live.write value) ((live.rename names).write (value.rename names)) := by
  obtain ⟨binding, requester⟩ := live
  cases binding with
  | star | exports =>
      exact .get_bind (fun store store' hmirrors => ⟨.error _, hmirrors⟩)
  | cell cell =>
      show Access.SameDeed names (write ⟨.cell cell, requester⟩ value)
        (write ⟨.cell (names.cell cell), requester⟩ (value.rename names))
      refine .get_bind (fun store store' hmirrors => ?_)
      have hcell : ∀ {γ : Type} (f : Cell → γ), (∀ cell, f (cell.rename names) = f cell) →
          (store'.cell? (names.cell cell)).map f = (store.cell? cell).map f := by
        intro γ f hsame
        rw [hmirrors.cell, Option.map_map]
        congr 1
        funext found
        exact hsame found
      dsimp only [nameIn]
      rw [hcell (·.owner) (fun _ => rfl), hcell (·.name) (fun _ => rfl)]
      split
      · exact ⟨.ok trivial, hmirrors.writeCell cell value⟩
      · exact ⟨.error _, hmirrors⟩

end LiveBinding

end Linkage
