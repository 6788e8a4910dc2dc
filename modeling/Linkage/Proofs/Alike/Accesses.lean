import Linkage.Proofs.Alike.Exports
import Linkage.Proofs.Store.Access

/-!
# Bodies in stores that are alike

What a body does with the names of its module does the same to stores that are alike.

* `Access.Alike` : two accesses that do the same.
* `Scope.alike_run`, `LiveBinding.alike_read` and their like : the operations of a scope.
-/

namespace Linkage

variable {pairing : Pairing}

/-- Two accesses leave stores that are alike so, and give results that correspond. -/
def Access.Alike {α β : Type} (pairing : Pairing) (R : α → β → Prop) (action : Access α)
    (action' : Access β) : Prop :=
  ∀ store store' : Store, store.Alike pairing store' →
    Matches R (store.access action).1 (store'.access action').1 ∧
      (store.access action).2.Alike pairing (store'.access action').2

namespace Access.Alike

variable {α α' β β' : Type} {R : α → α' → Prop} {S : β → β' → Prop}

theorem pure {value : α} {value' : α'} (hvalue : R value value') :
    Access.Alike pairing R (Pure.pure value) (Pure.pure value') :=
  fun _ _ halike => ⟨.ok hvalue, halike⟩

theorem throw (error : ModuleError) :
    Access.Alike pairing R (MonadExcept.throw error) (MonadExcept.throw error) :=
  fun _ _ halike => ⟨.error error, halike⟩

theorem bind {action : Access α} {action' : Access α'} {more : α → Access β}
    {more' : α' → Access β'} (hfirst : Access.Alike pairing R action action')
    (hmore : ∀ value value', R value value' →
      Access.Alike pairing S (more value) (more' value')) :
    Access.Alike pairing S (action >>= more) (action' >>= more') := by
  intro store store' halike
  obtain ⟨hresult, halike'⟩ := hfirst store store' halike
  rw [Store.access_bind, Store.access_bind]
  generalize store.access action = ended at hresult halike'
  generalize store'.access action' = ended' at hresult halike'
  obtain ⟨result, store⟩ := ended
  obtain ⟨result', store'⟩ := ended'
  cases hresult with
  | error error => exact ⟨.error error, halike'⟩
  | ok hvalue => exact hmore _ _ hvalue _ _ halike'

/-- An access that begins by looking at the store. -/
theorem get_bind {more : Store → Access β} {more' : Store → Access β'}
    (hmore : ∀ store store' : Store, store.Alike pairing store' →
      Matches S (store.access (more store)).1 (store'.access (more' store')).1 ∧
        (store.access (more store)).2.Alike pairing (store'.access (more' store')).2) :
    Access.Alike pairing S (get >>= more) (get >>= more') := by
  intro store store' halike
  rw [Store.access_bind, Store.access_bind, Store.access_get, Store.access_get]
  exact hmore store store' halike

/-- An access made of a function on stores. -/
theorem of {f : Store → Except ModuleError α × Store} {f' : Store → Except ModuleError α' × Store}
    (hsame : ∀ store store' : Store, store.Alike pairing store' →
      Matches R (f store).1 (f' store').1 ∧ (f store).2.Alike pairing (f' store').2) :
    Access.Alike pairing R (Access.of f) (Access.of f') := hsame

/-- An access that changes the store and gives a result. -/
theorem modifyGet {f : Store → α × Store} {f' : Store → α' × Store}
    (hsame : ∀ store store' : Store, store.Alike pairing store' →
      R (f store).1 (f' store').1 ∧ (f store).2.Alike pairing (f' store').2) :
    Access.Alike pairing R (MonadStateOf.modifyGet f) (MonadStateOf.modifyGet f') :=
  fun store store' halike => ⟨.ok (hsame store store' halike).1, (hsame store store' halike).2⟩

end Access.Alike

/-- Two accesses that give values that are alike. -/
abbrev Access.AlikeValue (pairing : Pairing) (action action' : Access Value) : Prop :=
  Access.Alike pairing (Value.Alike pairing) action action'

/-- Two accesses that give nothing. -/
abbrev Access.AlikeDeed (pairing : Pairing) (action action' : Access Unit) : Prop :=
  Access.Alike pairing (fun _ _ => True) action action'

namespace Scope

variable {ref ref' : RecordRef} (href : pairing.record ref ref') {value value' : Value}
include href

theorem alike_idOf : Access.Alike pairing Eq (idOf ref) (idOf ref') := by
  refine .get_bind (fun store store' halike => ⟨?_, halike⟩)
  rw [rel_map_eq (halike.record href) (fun _ _ hrecord => hrecord.id)]
  exact .ok rfl

/-- An error that names the module. -/
theorem alike_throw {α β : Type} {R : α → β → Prop} (error : ModuleId → ModuleError) :
    Access.Alike pairing R (idOf ref >>= fun id => throw (error id))
      (idOf ref' >>= fun id => throw (error id)) := by
  refine (alike_idOf href).bind (fun id id' hid => ?_)
  subst hid
  exact .throw _

theorem alike_lookup (name : String) :
    Access.Alike pairing (Binding.Alike pairing) (lookup ref name) (lookup ref' name) := by
  refine .get_bind (fun store store' halike => ?_)
  rcases rel_cases (halike.binding href name) with
    ⟨hnone, hnone'⟩ | ⟨_, _, hsome, hsome', hbinding⟩
  · rw [hnone, hnone']
    exact alike_throw href (.unresolvedName · name) store store' halike
  · rw [hsome, hsome']
    exact ⟨.ok hbinding, halike⟩

theorem alike_read (name : String) :
    Access.AlikeValue pairing (read ref name) (read ref' name) := by
  refine (alike_lookup href name).bind (fun binding binding' hbinding => ?_)
  refine (alike_idOf href).bind (fun id _ hid => ?_)
  subst hid
  exact .of (fun store store' halike => halike.read hbinding _)

theorem alike_write (name : String) (hvalue : value.Alike pairing value') :
    Access.AlikeDeed pairing (write ref name value) (write ref' name value') := by
  refine .get_bind (fun store store' halike => ?_)
  rw [Store.access_bind, Store.access_bind, access_idOf, access_idOf]
  dsimp only
  rw [rel_map_eq (halike.record href) (fun _ _ hrecord => hrecord.id)]
  generalize ((store'.record? ref').map (·.id)).getD default = id
  rcases rel_cases (halike.binding href name) with
    ⟨hnone, hnone'⟩ | ⟨_, _, hsome, hsome', hbinding⟩
  · rw [hnone, hnone']
    obtain ⟨hcell, hdeclared⟩ := halike.declare href id name
    dsimp only
    rw [Store.access_set, Store.access_set]
    exact ⟨.ok trivial, hdeclared.writeCell hcell hvalue⟩
  · rw [hsome, hsome']
    cases hbinding with
    | star | exports => exact ⟨.error _, halike⟩
    | cell hcell =>
        dsimp only
        rw [rel_map_eq (halike.cell hcell) (fun _ _ hfound => hfound.owner)]
        split
        · exact ⟨.ok trivial, halike.writeCell hcell hvalue⟩
        · exact ⟨.error _, halike⟩

theorem alike_exports :
    Access.Alike pairing (Exports.Alike pairing) (exports ref) (exports ref') := by
  refine .get_bind (fun store store' halike => ?_)
  rcases rel_cases (rel_bind (halike.record href) (fun _ _ hrecord => hrecord.exports)) with
    ⟨hnone, hnone'⟩ | ⟨_, _, hsome, hsome', hexports⟩
  · rw [hnone, hnone']
    exact alike_throw href .notLegacy store store' halike
  · rw [hsome, hsome']
    exact ⟨.ok hexports, halike⟩

theorem alike_replaceExports (hvalue : value.Alike pairing value') :
    Access.AlikeDeed pairing (replaceExports ref value) (replaceExports ref' value') := by
  refine (alike_exports href).bind (fun exports exports' hexports => ?_)
  exact .modifyGet (fun store store' halike => ⟨trivial, halike.modify href
    (fun _ _ hrecord => { hrecord with exports := .some { hexports with value := hvalue } })
    (fun _ => rfl) (fun _ => rfl)⟩)

theorem alike_exportProperty (name : String) (hvalue : value.Alike pairing value') :
    Access.AlikeDeed pairing (exportProperty ref name value) (exportProperty ref' name value') := by
  refine (alike_exports href).bind (fun exports exports' hexports => ?_)
  rcases rel_cases hexports.value.toObject with
    ⟨hnone, hnone'⟩ | ⟨_, _, hsome, hsome', hobject⟩
  · rw [hnone, hnone']
    exact alike_throw href (.invalidExports · name)
  · rw [hsome, hsome']
    exact .modifyGet (fun store store' halike =>
      ⟨trivial, halike.withHeap (halike.heap.set hobject name hvalue)⟩)

theorem alike_capture (name : String) :
    Access.Alike pairing (LiveBinding.Alike pairing) (capture ref name) (capture ref' name) := by
  refine (alike_lookup href name).bind (fun binding binding' hbinding => ?_)
  refine (alike_idOf href).bind (fun id _ hid => ?_)
  subst hid
  exact .pure ⟨hbinding, rfl⟩

omit href in
theorem alike_literal (json : Json) :
    Access.AlikeValue pairing (literal json) (literal json) :=
  .modifyGet (fun _ _ halike =>
    ⟨(Value.alike_ofJson json halike.heap).1,
      halike.withHeap (Value.alike_ofJson json halike.heap).2⟩)

omit href in
theorem alike_property (hvalue : value.Alike pairing value') (name : String) :
    Access.AlikeValue pairing (property value name) (property value' name) := by
  cases hvalue with
  | space hfound => exact .of (fun store store' halike => halike.readName hfound name)
  | object hobject =>
      exact .get_bind (fun store store' halike =>
        ⟨.ok (halike.heap.getD hobject name), halike⟩)
  | undefined | null | boolean | number | text => exact .throw _

/-- A statement that stays within the scope does the same in stores that are alike. -/
theorem alike_run (statement : Statement) :
    Access.Alike pairing (fun _ _ => True) (run ref statement) (run ref' statement) := by
  have hdone : ∀ {action action' : Access Unit}, Access.AlikeDeed pairing action action' →
      Access.Alike pairing (fun _ _ => True)
        (action >>= fun _ => (pure none : Access (Option String)))
        (action' >>= fun _ => (pure none : Access (Option String))) :=
    fun haction => haction.bind (fun _ _ _ => .pure trivial)
  have hthen : ∀ {action action' : Access Value} {deed deed' : Value → Access Unit},
      Access.AlikeValue pairing action action' →
      (∀ {value value'}, value.Alike pairing value' →
        Access.AlikeDeed pairing (deed value) (deed' value')) →
      Access.Alike pairing (fun _ _ => True)
        (action >>= fun value => deed value >>= fun _ => (pure none : Access (Option String)))
        (action' >>= fun value => deed' value >>= fun _ => (pure none : Access (Option String))) :=
    fun haction hdeed => haction.bind (fun _ _ hvalue => hdone (hdeed hvalue))
  cases statement with
  | set name value => exact hthen (alike_literal value) (alike_write href name)
  | copy source target => exact hthen (alike_read href source) (alike_write href target)
  | get object name target =>
      refine (alike_read href object).bind (fun value value' hvalue => ?_)
      exact hthen (alike_property hvalue name) (alike_write href target)
  | add name amount =>
      refine (alike_read href name).bind (fun value value' hvalue => ?_)
      rw [hvalue.toNumber]
      exact hdone (alike_write href name (.number _))
  | setDefault value => exact hthen (alike_literal value) (alike_write href defaultLocal)
  | require specifier target => exact .pure trivial
  | exportValue name value => exact hthen (alike_literal value) (alike_exportProperty href name)
  | exportBinding name source =>
      exact hthen (alike_read href source) (alike_exportProperty href name)
  | setExports value => exact hthen (alike_literal value) (alike_replaceExports href)
  | throw text => exact .throw _
  | log name =>
      refine (alike_read href name).bind (fun value value' hvalue => ?_)
      exact .get_bind (fun store store' halike => ⟨.ok trivial, halike⟩)

end Scope

namespace LiveBinding

variable {live live' : LiveBinding} (hlive : live.Alike pairing live')
include hlive

theorem alike_read : Access.AlikeValue pairing live.read live'.read := by
  unfold read
  rw [hlive.requester]
  exact .of (fun _ _ halike => halike.read hlive.binding _)

theorem alike_write {value value' : Value} (hvalue : value.Alike pairing value') :
    Access.AlikeDeed pairing (live.write value) (live'.write value') := by
  obtain ⟨binding, requester⟩ := live
  obtain ⟨binding', requester'⟩ := live'
  obtain ⟨hbinding, hrequester⟩ := hlive
  dsimp only at hbinding hrequester
  subst hrequester
  refine .get_bind (fun store store' halike => ?_)
  cases hbinding with
  | star | exports => exact ⟨.error _, halike⟩
  | cell hcell =>
      dsimp only [nameIn]
      rw [rel_map_eq (halike.cell hcell) (fun _ _ hfound => hfound.owner),
        rel_map_eq (halike.cell hcell) (fun _ _ hfound => hfound.name)]
      split
      · exact ⟨.ok trivial, halike.writeCell hcell hvalue⟩
      · exact ⟨.error _, halike⟩

end LiveBinding

end Linkage
