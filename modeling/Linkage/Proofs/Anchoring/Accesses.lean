import Linkage.Proofs.Anchoring.Stores
import Linkage.Proofs.Store.Outgrowing

/-!
# Bodies refer to what is there

Whatever a body does with the names of its module, all that the store refers to has been made, and so
has what the body is given.

* `Scope.anchored_read`, `Scope.anchored_write` and their like : the operations of a scope.
* `Scope.anchored_run` : statements.
* `LiveBinding.anchored_read`, `LiveBinding.anchored_write` : bindings that are kept.
-/

namespace Linkage

open Access (Triple)

variable {least : Extent}

/-- A value that is given, in a store all of which is anchored. -/
def Store.Gives (least : Extent) (value : Value) (store : Store) : Prop :=
  store.Anchored least ∧ value.Anchored store.extent

/-- What a live binding refers to has been made. -/
abbrev LiveBinding.Anchored (extent : Extent) (live : LiveBinding) : Prop :=
  live.binding.Anchored extent

/-- A slot is read. -/
theorem Store.Anchored.gives_read {store : Store} (hanchored : store.Anchored least)
    (binding : Binding) (requester? : Option ModuleId) :
    (∀ value, (store.read binding requester?).1 = .ok value →
      (store.read binding requester?).2.Gives least value) ∧
    (store.read binding requester?).2.Anchored least := by
  have hcached := store.cached_read binding requester?
  refine ⟨fun value hvalue => ⟨hanchored.cached hcached, ?_⟩, hanchored.cached hcached⟩
  rw [Store.Anchored.extent_of_cached hcached]
  exact hanchored.read hvalue

namespace Scope

variable {ref : RecordRef}

theorem anchored_literal (json : Json) :
    Triple (Store.Anchored least) (literal json) (Store.Gives least) (Store.Anchored least) := by
  intro store hanchored
  obtain ⟨hextends, hvalue, -⟩ :=
    @Value.extends_ofJson (fun found => found.record.Anchored store.extent) json store.heap
  refine ⟨fun value hgiven => ?_, nofun⟩
  obtain rfl := Except.ok.inj hgiven
  exact ⟨hanchored.withHeap (hextends.grounded hanchored.heap) hextends.size, hvalue⟩

theorem anchored_lookup (name : String) :
    Triple (Store.Anchored least) (lookup ref name)
      (fun binding store => store.Anchored least ∧ binding.Anchored store.extent)
      (Store.Anchored least) := by
  intro store hanchored
  rw [access_lookup]
  cases hbound : store.binding? ref name with
  | none => exact ⟨nofun, fun _ _ => hanchored⟩
  | some binding =>
      refine ⟨fun found hfound => ?_, nofun⟩
      obtain rfl := Except.ok.inj hfound
      exact ⟨hanchored, hanchored.binding hbound⟩

theorem anchored_read (name : String) :
    Triple (Store.Anchored least) (read ref name) (Store.Gives least) (Store.Anchored least) := by
  unfold read
  refine (anchored_lookup name).bind (fun binding => ?_)
  have hid : Triple (fun store => store.Anchored least ∧ binding.Anchored store.extent) (idOf ref)
      (fun _ => Store.Anchored least) (fun store => store.Anchored least) :=
    fun store hpre => ⟨fun _ _ => hpre.1, nofun⟩
  refine hid.bind (fun id store hanchored => ?_)
  obtain ⟨hgives, hkept⟩ := hanchored.gives_read binding (some id)
  exact ⟨hgives, fun _ _ => hkept⟩

theorem anchored_property (value : Value) (name : String) :
    Triple (Store.Anchored least) (property value name) (Store.Gives least)
      (Store.Anchored least) := by
  unfold property
  split
  · rename_i found
    intro store hanchored
    have hcached := store.cached_readName found name
    refine ⟨fun value hvalue => ⟨hanchored.cached hcached, ?_⟩, fun _ _ => hanchored.cached hcached⟩
    show value.Anchored (store.readName found name).2.extent
    rw [Store.Anchored.extent_of_cached hcached]
    exact hanchored.readName hvalue
  · rename_i object
    refine .get_bind (fun store hanchored => ⟨fun value hvalue => ?_, nofun⟩)
    obtain rfl := Except.ok.inj hvalue
    exact ⟨hanchored, hanchored.heap.get object name⟩
  · exact .throw (fun _ hanchored => hanchored)

/-- The exports value of a module is read. -/
theorem anchored_exports :
    Triple (Store.Anchored least) (exports ref)
      (fun exports => Store.Gives least exports.value) (Store.Anchored least) := by
  intro store hanchored
  rw [access_exports]
  cases hexports : (store.record? ref).bind (·.exports?) with
  | none => exact ⟨nofun, fun _ _ => hanchored⟩
  | some found =>
      refine ⟨fun other hother => ?_, nofun⟩
      obtain rfl := Except.ok.inj hother
      obtain ⟨record, hrecord, hfound⟩ := Option.bind_eq_some_iff.mp hexports
      exact ⟨hanchored, (hanchored.record ref record hrecord).exports found hfound⟩

/-- A look at the exports value leaves what else is given. -/
theorem anchored_exports_giving (value : Value) :
    Triple (Store.Gives least value) (exports ref) (fun _ => Store.Gives least value)
      (Store.Anchored least) := by
  intro store hgives
  rw [access_exports]
  split
  · exact ⟨fun _ _ => hgives, nofun⟩
  · exact ⟨nofun, fun _ _ => hgives.1⟩

theorem anchored_replaceExports (value : Value) :
    Triple (Store.Gives least value) (replaceExports ref value) (fun _ => Store.Anchored least)
      (Store.Anchored least) := by
  unfold replaceExports
  refine (anchored_exports_giving value).bind (fun found store hgives => ⟨fun _ _ => ?_, nofun⟩)
  refine hgives.1.modify ref (fun _ => rfl) (fun record hrecord => ⟨fun exports hexports => ?_,
    hrecord.environment⟩)
  exact Option.some.inj hexports ▸ hgives.2

theorem anchored_exportProperty (name : String) (value : Value) :
    Triple (Store.Gives least value) (exportProperty ref name value)
      (fun _ => Store.Anchored least) (Store.Anchored least) := by
  unfold exportProperty
  refine (anchored_exports_giving value).bind (fun found => ?_)
  split
  · exact fun store hgives => ⟨nofun, fun _ _ => hgives.1⟩
  · rename_i object hobject
    exact fun store hgives => ⟨fun _ _ => hgives.1.set object name hgives.2, nofun⟩

theorem anchored_capture (name : String) :
    Triple (Store.Anchored least) (capture ref name)
      (fun live store => store.Anchored least ∧ live.Anchored store.extent)
      (Store.Anchored least) := by
  unfold capture
  refine (anchored_lookup name).bind (fun binding store hpre => ⟨fun live hlive => ?_, nofun⟩)
  obtain rfl := Except.ok.inj hlive
  exact hpre

section Writing

variable (href : ref.Anchored least)
include href

theorem anchored_write (name : String) (value : Value) :
    Triple (Store.Gives least value) (write ref name value) (fun _ => Store.Anchored least)
      (Store.Anchored least) := by
  rintro store ⟨hanchored, hvalue⟩
  rw [access_write]
  dsimp only
  cases hbound : store.binding? ref name with
  | none =>
      refine ⟨fun _ _ => ?_, nofun⟩
      obtain ⟨hdeclared, -⟩ := hanchored.self.declare (href.mono hanchored.grown)
        (((store.record? ref).map (·.id)).getD default) name
      exact (hdeclared.weaken hanchored.grown).writeCell _ (hvalue.mono hdeclared.grown)
  | some binding =>
      cases binding with
      | star | exports => exact ⟨nofun, fun _ _ => hanchored⟩
      | cell cell =>
          dsimp only
          split
          · exact ⟨fun _ _ => hanchored.writeCell cell hvalue, nofun⟩
          · exact ⟨nofun, fun _ _ => hanchored⟩

/-- **A statement of a body** leaves nothing that dangles. -/
theorem anchored_run (statement : Statement) :
    Triple (Store.Anchored least) (run ref statement) (fun _ => Store.Anchored least)
      (Store.Anchored least) := by
  have hdone {pre : Store → Prop} {action : Access Unit}
      (haction : Triple pre action (fun _ => Store.Anchored least) (Store.Anchored least)) :
      Triple pre (action >>= fun _ => (pure none : Access (Option String)))
        (fun _ => Store.Anchored least) (Store.Anchored least) :=
    haction.bind (fun _ => .pure (fun _ hanchored => hanchored))
  cases statement with
  | set name value =>
      exact (anchored_literal value).bind (fun found => hdone (anchored_write href name found))
  | copy source target =>
      exact (anchored_read source).bind (fun found => hdone (anchored_write href target found))
  | get object name target =>
      refine (anchored_read object).bind (fun found => ?_)
      refine Triple.bind ?_ (fun value => hdone (anchored_write href target value))
      exact (anchored_property found name).imp (fun _ hgives => hgives.1) (fun _ _ hpost => hpost)
        (fun _ hfails => hfails)
  | add name amount =>
      refine (anchored_read name).bind (fun found => hdone ?_)
      exact (anchored_write href name _).imp (fun _ hgives => ⟨hgives.1, trivial⟩)
        (fun _ _ hpost => hpost) (fun _ hfails => hfails)
  | setDefault value =>
      exact (anchored_literal value).bind (fun found =>
        hdone (anchored_write href defaultLocal found))
  | require specifier target? => exact .pure (fun _ hanchored => hanchored)
  | exportValue name value =>
      exact (anchored_literal value).bind (fun found => hdone (anchored_exportProperty name found))
  | exportBinding name source =>
      exact (anchored_read source).bind (fun found => hdone (anchored_exportProperty name found))
  | setExports value =>
      exact (anchored_literal value).bind (fun found => hdone (anchored_replaceExports found))
  | throw text => exact .throw (fun _ hanchored => hanchored)
  | log name =>
      refine (anchored_read name).bind (fun found => .get_bind (fun store hgives => ?_))
      exact ⟨fun _ _ => hgives.1, nofun⟩

end Writing

end Scope

namespace LiveBinding

theorem anchored_read (live : LiveBinding) :
    Triple (Store.Anchored least) live.read (Store.Gives least) (Store.Anchored least) := by
  intro store hanchored
  obtain ⟨hgives, hkept⟩ := hanchored.gives_read live.binding (some live.requester)
  exact ⟨hgives, fun _ _ => hkept⟩

theorem anchored_write (live : LiveBinding) (value : Value) :
    Triple (Store.Gives least value) (live.write value) (fun _ => Store.Anchored least)
      (Store.Anchored least) := by
  unfold write
  refine .get_bind (fun store hgives => ?_)
  split
  · split
    · exact ⟨fun _ _ => hgives.1.writeCell _ hgives.2, nofun⟩
    · exact ⟨nofun, fun _ _ => hgives.1⟩
  · exact ⟨nofun, fun _ _ => hgives.1⟩

end LiveBinding

end Linkage
