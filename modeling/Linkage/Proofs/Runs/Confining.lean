import Linkage.Proofs.Runs.Closure
import Linkage.Proofs.Store.Confining

/-!
# Modules stay inside

What a module keeps of a name goes on to be what the name refers to, in every later state and even
when all modules are forgotten.  So whatever a module does with its names, or later with what it has
kept of them, changes nothing that belongs to another module.

* `Store.capture_eq_ok` : what is kept of a name.
* `Machine.operations_stay_inside` : every operation in every run.
-/

namespace Linkage

/-- What is kept of a name is what it refers to, on behalf of the module. -/
theorem Store.capture_eq_ok {store : Store} {ref : RecordRef} {record : Record}
    (hrecord : store.record? ref = some record) {name : String} {live : LiveBinding}
    (hkept : (store.access (Scope.capture ref name)).1 = .ok live) :
    live.requester = record.id ∧ store.binding? ref name = some live.binding := by
  unfold Scope.capture at hkept
  rw [access_bind, Scope.access_lookup] at hkept
  cases hbound : store.binding? ref name with
  | none =>
      rw [hbound] at hkept
      cases hkept
  | some binding =>
      rw [hbound] at hkept
      dsimp only at hkept
      rw [access_bind, Scope.access_idOf, hrecord] at hkept
      obtain rfl := Except.ok.inj hkept
      exact ⟨rfl, rfl⟩

/-- What was kept of an own name may be written. -/
theorem Store.access_writeLive {store : Store} {cell : CellRef} {id : ModuleId}
    (howner : (store.cell? cell).map (·.owner) = some id) (value : Value) :
    store.access (LiveBinding.write ⟨.cell cell, id⟩ value) =
      (.ok ⟨⟩, store.writeCell cell value) := by
  unfold LiveBinding.write
  rw [access_bind, access_get]
  dsimp only
  rw [if_pos howner]
  rfl

namespace Scope.Operation

/-- Operations of a module in a later state: what it has kept of a name it has kept when it was
linked.  To require another module does more than these operations do. -/
def KeptIn (store : Store) (ref : RecordRef) : Operation → Prop
  | .readLive name live | .writeLive name live _ =>
      (store.record? ref).map (·.status.hasLinked) = some true ∧
        (store.access (Scope.capture ref name)).1 = .ok live
  | .run statement => ∀ specifier target?, statement ≠ .require specifier target?
  | _ => True

/-- What was kept of a name of a linked module is still what the name refers to. -/
theorem KeptIn.heldBy {store store' : Store} {ref : RecordRef} {record : Record}
    (hrecord : store.record? ref = some record) (hadvances : store.Advances store')
    {operation : Operation} (hkept : operation.KeptIn store ref) :
    operation.HeldBy store' ref record.id := by
  have hlive {name : String} {live : LiveBinding}
      (hcaptured : (store.record? ref).map (·.status.hasLinked) = some true ∧
        (store.access (Scope.capture ref name)).1 = .ok live) :
      live.requester = record.id ∧ store'.binding? ref name = some live.binding := by
    obtain ⟨hlinked, hcaptured⟩ := hcaptured
    rw [hrecord, Option.map_some, Option.some.injEq] at hlinked
    obtain ⟨hrequester, hbound⟩ := Store.capture_eq_ok hrecord hcaptured
    obtain ⟨record', hrecord', hrecords⟩ := hadvances.record ref record hrecord
    rw [Store.binding?, hrecord] at hbound
    refine ⟨hrequester, ?_⟩
    rw [Store.binding?, hrecord']
    exact hrecords.bound hlinked name live.binding hbound
  cases operation with
  | readLive name live => exact hlive hkept
  | writeLive name live value => exact hlive hkept
  | run statement => exact hkept
  | _ => trivial

end Scope.Operation

namespace Machine

/-- **In every run, whatever a module does with its names, or with what it has kept of them,
stays inside.**  However the operation ends, no cell of another module, no other record, no name that
is bound, and no status, analysis or error has changed; if it succeeds it has changed at most the
slot it is about, and if it fails it has changed none. -/
theorem operations_stay_inside (place : Place) (config : Config) (acts more : List Act) :
    let before := ((new place config).perform acts).session.store
    let after := ((new place config).perform (acts ++ more)).session.store
    ∀ ref record, before.record? ref = some record → ∀ operation : Scope.Operation, operation.KeptIn before ref →
      let ended := after.access (operation.perform ref)
      after.StaysInside ref record.id ended.2 ∧
      (∀ value, ended.1 = .ok value → operation.Leaves ref after ended.2) ∧
      ∀ error, ended.1 = .error error → after.SameSlots ended.2 := by
  intro before after ref record hrecord operation hkept
  have hliving := living_perform place config acts
  have hchain := ((new place config).perform acts).chain_perform more
  rw [← perform_append] at hchain
  have hadvances : before.Advances after := hchain.advances hliving
  obtain ⟨record', hrecord', hrecords⟩ := hadvances.record ref record hrecord
  have hheld := hkept.heldBy hrecord hadvances
  rw [← hrecords.id] at hheld ⊢
  exact Scope.Operation.stays hrecord' hheld

/-- The module on the right has kept its own name while its body ran; it may write what it has kept
after its body has ended. -/
theorem operations_stay_inside_circle :
    let before := ((new (.shelf circle) .standard).perform circleBegun).session.store
    let after := ((new (.shelf circle) .standard).perform
      (circleBegun ++ [.step, .step])).session.store
    ∃ ref live, (before.access (Scope.capture ref "y")).1 = .ok live ∧ ∀ value,
      after.StaysInside ref (.ofPath "/right.mjs") (after.access (live.write value)).2 ∧
      after.Assigns ref "y" (after.access (live.write value)).2 := by
  intro before after
  have hfacts : (before.find? (.ofPath "/right.mjs")).map (fun record =>
      (record.id, record.status)) = some (.ofPath "/right.mjs", .evaluating) := by decide +kernel
  have hbound : (before.lookup? (.ofPath "/right.mjs")).map (fun ref => before.binding? ref "y") =
      some (some (.cell ⟨0⟩)) := by decide +kernel
  have howner : (after.cell? ⟨0⟩).map (·.owner) = some (.ofPath "/right.mjs") := by decide +kernel
  obtain ⟨record, hfind, hfields⟩ := Option.map_eq_some_iff.mp hfacts
  obtain ⟨hid, hstatus⟩ := Prod.mk.inj hfields
  obtain ⟨ref, hregistered⟩ := Store.exists_registered_of_find hfind
  rw [hregistered.lookup, Option.map_some, Option.some.injEq] at hbound
  have hcaptured : (before.access (Scope.capture ref "y")).1 =
      .ok ⟨.cell ⟨0⟩, .ofPath "/right.mjs"⟩ := by
    unfold Scope.capture
    rw [Store.access_bind, Scope.access_lookup, hbound]
    dsimp only
    rw [Store.access_bind, Scope.access_idOf, hregistered.record, ← hid]
    rfl
  have hlinked : (before.record? ref).map (·.status.hasLinked) = some true := by
    rw [hregistered.record, Option.map_some, hstatus]
    rfl
  refine ⟨ref, _, hcaptured, fun value => ?_⟩
  obtain ⟨hinside, hok, -⟩ := operations_stay_inside (.shelf circle) .standard circleBegun
    [.step, .step] ref record hregistered.record
    (.writeLive "y" ⟨.cell ⟨0⟩, .ofPath "/right.mjs"⟩ value) ⟨hlinked, hcaptured⟩
  rw [hid] at hinside
  refine ⟨hinside, hok ⟨⟩ ?_⟩
  exact congrArg Prod.fst (Store.access_writeLive howner value)

end Machine

end Linkage
