import Linkage.Proofs.Histories.Meeting

/-!
# Turns of one module leave the same

If all that has settled is alike when the turns of a module begin, its body does the same on both
sides and leaves the module alike; and so the module stays.  By induction on the turns of one engine,
all modules without cycles that have settled in two engines over one host are alike.

* `Meets.alike_after` : the body does the same.
* `Meets.into` : what belongs together afterwards does so in all later stores.
* `Meets.record_alike`, `Meets.cell_alike`, `Meets.object_alike` : what the turns leave of the module.
* `Chronicle.resembles` : all that has settled is alike.
-/

namespace Linkage

variable {config : Config} {host : Host}

namespace BodyTurn.Meets

variable {turns turns' : List BodyTurn} {turn turn' : BodyTurn}
  (hmeets : Meets config host turns turns' turn turn')

/-! ## While the bodies run -/

theorem fits : hmeets.begun.Fits turn.before turn'.before := by
  refine Pairing.between_fits (fun other hother other' hother' hregion hsame => ?_)
  rcases hregion with ⟨-, hsettled, hsettled'⟩ | hid
  · exact .inl ⟨hsettled, hsettled'⟩
  · obtain rfl := hmeets.moment.unique _ hother _ hmeets.mem hid
    obtain rfl := hmeets.moment'.unique _ hother' _ hmeets.mem' (hsame.trans hmeets.id.symm)
    exact .inr ⟨rfl, rfl⟩

/-- What belongs together while the bodies run. -/
def running : Pairing := hmeets.begun.withFresh turn.before turn'.before hmeets.fits

/-- **A body does the same in both engines.** -/
theorem alike_after (hresembles : turn.before.Resembles hmeets.known turn'.before) :
    turn.after.Alike hmeets.running turn'.after := by
  have hbegin : turn.before.Alike hmeets.running turn'.before :=
    (hmeets.resembles_begin hresembles).withFresh hmeets.fits
  have hran := hbegin.ran (.inl hmeets.begun_record) turn.statements
  unfold after
  rwa [hmeets.statements_eq]

/-! ## Afterwards -/

section After

variable {store store' : Store} (hmoment : store.Moment config host turns)
  (hmoment' : store'.Moment config host turns') (hleaves : turn.after.LeavesSettled store)
  (hleaves' : turn'.after.LeavesSettled store')
include hleaves hleaves'

include hmeets in
theorem shared : Store.Shared config host store store' turn.id := by
  refine ⟨hmeets.acyclic, hleaves.hasSettled hmeets.fair.settles, hleaves'.hasSettled ?_⟩
  rw [← hmeets.id]
  exact hmeets.fair'.settles

/-- What belongs together when the turns begin still does afterwards. -/
theorem begun_le : hmeets.begun.Le
    (.between hmoment hmoment' (Store.Shared config host store store')) := by
  have hfair := hmeets.fair
  have hfair' := hmeets.fair'
  have hregion : ∀ id, Store.Shared config host turn.before turn'.before id ∨ id = turn.id →
      Store.Shared config host store store' id := by
    rintro id (⟨hacyclic, hsettled, hsettled'⟩ | rfl)
    · exact ⟨hacyclic, (hfair.leaves.trans hleaves).hasSettled hsettled,
        (hfair'.leaves.trans hleaves').hasSettled hsettled'⟩
    · exact hmeets.shared hleaves hleaves'
  refine ⟨⟨?_, ?_, hregion⟩, ?_⟩
  · rintro ref ref' ⟨id, hid, hlookup, hlookup'⟩
    exact ⟨id, hregion id hid, (hfair.leaves.trans hleaves).lookup id ref hlookup,
      (hfair'.leaves.trans hleaves').lookup id ref' hlookup'⟩
  · rintro object object' ⟨other, hother, other', hother', hid, hsame, hpairs⟩
    exact ⟨other, hother, other', hother', hregion _ hid, hsame, hpairs⟩
  · rintro cell cell' ⟨id, name, hid, hslot, hslot'⟩
    refine ⟨id, name, hregion id hid,
      hfair.slot_of_leaves hleaves (hid.imp_left (·.2.1)) hslot,
      hfair'.slot_of_leaves hleaves' ?_ hslot'⟩
    exact hid.imp (·.2.2) (fun hid => hid.trans hmeets.id.symm)

/-- **What is there after the turns and belongs together does so in all later stores.** -/
theorem into : hmeets.running.Into
    (.between hmoment hmoment' (Store.Shared config host store store')) turn.after turn'.after := by
  have hle := hmeets.begun_le hmoment hmoment' hleaves hleaves'
  refine ⟨?_, ?_, hle.covers⟩
  · rintro ref ref' (href | hlate) hsome -
    · exact hle.record ref ref' href
    · -- a body registers no module
      have hbefore : (turn.before.record? ref).isSome := by
        by_cases href : ref = turn.ref
        · rw [href, hmeets.fair.registered.record]
          rfl
        · rwa [← hmeets.fair.ran.other ref href]
      obtain ⟨record, hrecord⟩ := Option.isSome_iff_exists.mp hbefore
      exact absurd (Array.getElem?_eq_some_iff.mp hrecord).1 (Nat.not_lt.mpr hlate.1)
  · rintro object object' (hobject | hlate) hindex hindex'
    · exact hle.object object object' hobject
    · exact ⟨turn, hmeets.mem, turn', hmeets.mem', hmeets.shared hleaves hleaves', hmeets.id,
        .inl ⟨hlate, hindex, hindex'⟩⟩

variable (hresembles : turn.before.Resembles hmeets.known turn'.before)
include hresembles

/-- Slots belong together for good. -/
theorem cell_into {cell cell' : CellRef} {found found' : Cell}
    (hcell : hmeets.running.cell cell cell') (hfound : turn.after.cell? cell = some found)
    (hfound' : turn'.after.cell? cell' = some found') :
    (Pairing.between hmoment hmoment' (Store.Shared config host store store')).cell cell cell' := by
  have hpaired := hcell
  rcases hcell with hbegun | hlate
  · exact (hmeets.begun_le hmoment hmoment' hleaves hleaves').cell _ _ hbegun
  · have hsame := (hmeets.alike_after hresembles).cell hpaired
    rw [hfound, hfound'] at hsame
    cases hsame with
    | some hsame =>
        have hslot := hmeets.fair.slot_of_declared hfound hlate.1
        have hslot' := hmeets.fair'.slot_of_declared hfound' hlate.2.1
        refine ⟨turn.id, found.name, hmeets.shared hleaves hleaves',
          hslot.leaves hmeets.fair.settles hleaves, ?_⟩
        rw [hsame.name, ← hmeets.id]
        exact hslot'.leaves hmeets.fair'.settles hleaves'

/-- **The record that the turns leave.** -/
theorem record_alike {ended ended' : Record} (hended : turn.after.record? turn.ref = some ended)
    (hended' : turn'.after.record? turn'.ref = some ended') :
    ended.Alike (.between hmoment hmoment' (Store.Shared config host store store')) ended' := by
  have hfair := hmeets.fair
  have hfair' := hmeets.fair'
  have hle := hmeets.begun_le hmoment hmoment' hleaves hleaves'
  have hrel := (hmeets.alike_after hresembles).record (.inl hmeets.begun_record)
  rw [hended, hended'] at hrel
  cases hrel with
  | some halike =>
      have hproper := hfair.proper_after
      have hproper' := hfair'.proper_after
      refine { halike with
        exports := Exports.Alike.into (hmeets.into hmoment hmoment' hleaves hleaves')
          hproper.regular.upright hproper'.regular.upright hproper.poised.grounded
          hproper'.poised.grounded hended hended' halike.exports
        environment := halike.environment.imp (fun name binding binding' hbound hbound' hsame => ?_)
        covered := fun entry hentry source hsource =>
          hle.covers source (halike.covered entry hentry source hsource) }
      have hbound? : turn.after.binding? turn.ref name = some binding := by
        rw [Store.binding?, hended]
        exact hbound
      rcases hfair.ran.outgrows.bound name binding hbound? with hold | ⟨cell, rfl, -⟩
      · -- what was bound when the turn began is bound to the same still
        rw [Store.binding?, hfair.registered.record] at hold
        obtain ⟨before', hbefore', hbegun⟩ :=
          rel_some (hmeets.environment hresembles name) hold
        obtain ⟨kept, hkept, -, -, -, -, -, hsame'⟩ := hfair'.ran.own
        cases hkept.symm.trans hended'
        cases (hsame' name before' hbefore').symm.trans hbound'
        exact hbegun.le hle
      · -- the body has declared it, on both sides
        cases hsame with
        | cell hcell =>
            obtain ⟨found, hfound, -⟩ := hproper.rooted turn.ref ended hended name _ hbound
            obtain ⟨found', hfound', -⟩ := hproper'.rooted turn'.ref ended' hended' name _ hbound'
            exact .cell (hmeets.cell_into hmoment hmoment' hleaves hleaves' hresembles hcell hfound
              hfound')

/-- **The slots that the turns leave.** -/
theorem cell_alike {name : String} {cell cell' : CellRef}
    (hslot : turn.after.Slot turn.id name cell) (hslot' : turn'.after.Slot turn'.id name cell') :
    Option.Rel (Cell.Alike (.between hmoment hmoment' (Store.Shared config host store store')))
      (turn.after.cell? cell) (turn'.after.cell? cell') := by
  have hproper := hmeets.fair.proper_after
  have hproper' := hmeets.fair'.proper_after
  have halike := hmeets.alike_after hresembles
  obtain ⟨ref, ended, value?, hregistered, hbound, hfound⟩ := hslot
  obtain ⟨ref', ended', value'?, hregistered', hbound', hfound'⟩ := hslot'
  cases hregistered.lookup.symm.trans
    (hmeets.fair.leaves.lookup _ _ hmeets.fair.registered.lookup)
  cases hregistered'.lookup.symm.trans
    (hmeets.fair'.leaves.lookup _ _ hmeets.fair'.registered.lookup)
  have href : hmeets.running.record turn.ref turn'.ref := .inl hmeets.begun_record
  have hcell : hmeets.running.cell cell cell' := by
    have hrel := halike.record href
    rw [hregistered.record, hregistered'.record] at hrel
    cases hrel with
    | some hrecord =>
        have hbinding := hrecord.environment name
        rw [hbound, hbound'] at hbinding
        cases hbinding with
        | some hbinding =>
            cases hbinding with
            | cell hcell => exact hcell
  have hrel := halike.cell hcell
  refine rel_imp hrel (fun found₁ found₁' hfound₁ hfound₁' hsame => ?_)
  cases hfound₁.symm.trans hfound
  cases hfound₁'.symm.trans hfound'
  exact hsame.into (hmeets.into hmoment hmoment' hleaves hleaves') hproper.regular.upright
    hproper'.regular.upright hproper.poised.grounded hproper'.poised.grounded hfound hfound'
    ((hmeets.begun_le hmoment hmoment' hleaves hleaves').record _ _ hmeets.begun_record)

/-- **The objects that the turns leave.** -/
theorem object_alike {object object' : ObjectRef} (hpairs : turn.Pairs turn' object object') :
    Option.Rel (Table.Alike (Value.Alike
        (.between hmoment hmoment' (Store.Shared config host store store'))))
      turn.after.heap.objects[object.index]? turn'.after.heap.objects[object'.index]? := by
  have hproper := hmeets.fair.proper_after
  have hproper' := hmeets.fair'.proper_after
  have hobject : hmeets.running.object object object' :=
    .inl ⟨turn, hmeets.mem, turn', hmeets.mem', .inr rfl, hmeets.id, hpairs⟩
  exact Table.Alike.into (hmeets.into hmoment hmoment' hleaves hleaves') hproper.regular.upright
    hproper'.regular.upright hproper.poised.grounded hproper'.poised.grounded
    ((hmeets.alike_after hresembles).heap.object hobject)

end After

end BodyTurn.Meets

/-! ## All turns -/

namespace Store.Chronicle

variable {turns turns' : List BodyTurn} {last last' store store' : Store}
  (hchronicle : last.Chronicle config host turns) (hchronicle' : last'.Chronicle config host turns')
include hchronicle hchronicle'

/-- The turns of a module that has settled in two stores. -/
theorem meets_of_shared (hmoment : store.Moment config host turns)
    (hmoment' : store'.Moment config host turns') {id : ModuleId}
    (hshared : Shared config host store store' id) : ∃ turn turn',
    BodyTurn.Meets config host turns turns' turn turn' ∧ turn.id = id ∧
      turn.after.LeavesSettled store ∧ turn'.after.LeavesSettled store' := by
  obtain ⟨hacyclic, hsettled, hsettled'⟩ := hshared
  obtain ⟨turn, hturn, rfl, hleaves⟩ := hmoment.told id hsettled
  obtain ⟨turn', hturn', hid, hleaves'⟩ := hmoment'.told _ hsettled'
  exact ⟨turn, turn', ⟨hchronicle.moment_before hturn, hchronicle'.moment_before hturn', hturn, hturn',
    hid, hacyclic⟩, rfl, hleaves, hleaves'⟩

/-- All that has settled in two stores is alike if it was so when its turns began. -/
theorem resembles_of_begin (hmoment : store.Moment config host turns)
    (hmoment' : store'.Moment config host turns')
    (hbegin : ∀ turn turn', ∀ hmeets : BodyTurn.Meets config host turns turns' turn turn',
      store.HasSettled turn.id → turn.before.Resembles hmeets.known turn'.before) :
    store.Resembles (.between hmoment hmoment' (Shared config host store store')) store' := by
  have hmeeting {id : ModuleId} (hshared : Shared config host store store' id) :=
    hchronicle.meets_of_shared hchronicle' hmoment hmoment' hshared
  refine ⟨?_, ?_, ?_, ?_, hmoment.proper.regular.upright, hmoment'.proper.regular.upright⟩
  · rintro object object' ⟨turn, hturn, turn', hturn', hshared, hid, hpairs⟩
    obtain ⟨turn, turn', hmeets, hsame, hleaves, hleaves'⟩ := hmeeting hshared
    obtain rfl := hmoment.unique _ hturn _ hmeets.mem hsame.symm
    obtain rfl := hmoment'.unique _ hturn' _ hmeets.mem' (hid.trans hmeets.id.symm)
    rw [hmeets.fair.object_of_leaves hleaves hpairs.owns.1,
      hmeets.fair'.object_of_leaves hleaves' hpairs.owns.2]
    exact hmeets.object_alike hmoment hmoment' hleaves hleaves' (hbegin _ _ hmeets hshared.2.1) hpairs
  · rintro ref ref' ⟨id, hshared, hlookup, hlookup'⟩
    obtain ⟨turn, turn', hmeets, rfl, hleaves, hleaves'⟩ := hmeeting hshared
    obtain ⟨ended, hended, -, hregistered⟩ := hmeets.fair.registered_of_leaves hleaves
    obtain ⟨ended', hended', -, hregistered'⟩ := hmeets.fair'.registered_of_leaves hleaves'
    rw [hmeets.id] at hregistered'
    cases hlookup.symm.trans hregistered.lookup
    cases hlookup'.symm.trans hregistered'.lookup
    rw [hregistered.record, hregistered'.record]
    exact .some (hmeets.record_alike hmoment hmoment' hleaves hleaves'
      (hbegin _ _ hmeets hshared.2.1) hended hended')
  · rintro cell cell' ⟨id, name, hshared, hslot, hslot'⟩
    obtain ⟨turn, turn', hmeets, rfl, hleaves, hleaves'⟩ := hmeeting hshared
    rw [← hmeets.id] at hslot'
    obtain ⟨hafter, hsame⟩ := hmeets.fair.slot_back hleaves hslot
    obtain ⟨hafter', hsame'⟩ := hmeets.fair'.slot_back hleaves' hslot'
    rw [hsame, hsame']
    exact hmeets.cell_alike hmoment hmoment' hleaves hleaves' (hbegin _ _ hmeets hshared.2.1) hafter
      hafter'
  · intro id hshared
    have hcovered := hshared
    obtain ⟨-, ⟨ref, _, hregistered, -⟩, ⟨ref', _, hregistered', -⟩⟩ := hshared
    rw [hregistered.lookup, hregistered'.lookup]
    exact .some ⟨id, hcovered, hregistered.lookup, hregistered'.lookup⟩

/-- All that has settled when the turns of a module begin is alike. -/
theorem resembles_before {turn turn' : BodyTurn}
    (hmeets : BodyTurn.Meets config host turns turns' turn turn') :
    turn.before.Resembles hmeets.known turn'.before := by
  -- on the place of the turn: what has settled before it has had an earlier turn
  induction hplace : turn.place using Nat.strong_induction_on generalizing turn turn' with
  | _ place ih =>
      subst hplace
      refine hchronicle.resembles_of_begin hchronicle' hmeets.moment hmeets.moment'
        (fun other other' hother hsettled => ?_)
      obtain ⟨earlier, hearlier, hid, hplace⟩ :=
        hchronicle.earlier turn hmeets.mem other.id hsettled
      obtain rfl := hchronicle.unique hearlier hother.mem hid
      exact ih earlier.place hplace hother rfl

/-- **All modules without cycles that have settled in two engines over one host are alike.** -/
theorem resembles : last.Resembles (.between hchronicle.moment hchronicle'.moment
    (Shared config host last last')) last' :=
  hchronicle.resembles_of_begin hchronicle' hchronicle.moment hchronicle'.moment
    (fun _ _ hmeets _ => hchronicle.resembles_before hchronicle' hmeets)

end Store.Chronicle

end Linkage
