import Linkage.Proofs.Alike.Widening
import Linkage.Proofs.Histories.Chronicles

/-!
# What belongs together in two chronicles

Two engines that have run the same modules may have done so at different times, and so have given
different numbers to what the modules made.  A record belongs to the record of the same module, a
slot to the slot of the same module and name, and an object to the one that was made just as late in
the turn of the same module.

* `Store.Moment` : a store somewhere in a chronicle; `Chronicle.moment`, `Chronicle.moment_before`.
* `BodyTurn.Pairs` : objects made equally late in the turns of one module.
* `Store.Slot` : the slot of a module under a local name; `Fair.slot_of_leaves`, `Fair.slot_back`.
* `Pairing.between` : what belongs together in two stores, for the modules of a region.
* `Pairing.between_fits` : what belongs together is there.
-/

namespace Linkage

variable {config : Config} {host : Host}

/-! ## Moments -/

namespace Store

/-- A store at which some of the turns of a chronicle are over. -/
structure Moment (config : Config) (host : Host) (turns : List BodyTurn) (store : Store) : Prop where
  proper : store.Proper config host
  fair : ∀ turn ∈ turns, turn.Fair config host
  told : ∀ id, store.HasSettled id → ∃ turn ∈ turns, turn.id = id ∧ turn.after.LeavesSettled store
  unique : ∀ turn ∈ turns, ∀ other ∈ turns, turn.id = other.id → turn = other
  separate : ∀ turn ∈ turns, ∀ other ∈ turns, ∀ object : ObjectRef, turn.Owns object →
    other.Owns object → turn = other

variable {store : Store} {turns : List BodyTurn} {turn : BodyTurn} {id : ModuleId}

namespace Chronicle

variable (hchronicle : store.Chronicle config host turns)
include hchronicle

theorem moment : store.Moment config host turns where
  proper := hchronicle.proper
  fair := hchronicle.fair
  told id hsettled := by
    obtain ⟨turn, hturn, hid⟩ := hchronicle.told id hsettled
    exact ⟨turn, hturn, hid, hchronicle.past turn hturn⟩
  unique _ hturn _ hother := hchronicle.unique hturn hother
  separate _ hturn _ hother _ := hchronicle.unique_of_owns hturn hother

theorem moment_before (hturn : turn ∈ turns) : turn.before.Moment config host turns where
  proper := (hchronicle.fair turn hturn).proper
  fair := hchronicle.fair
  told id hsettled := by
    obtain ⟨other, hother, hid, hplace⟩ := hchronicle.earlier turn hturn id hsettled
    exact ⟨other, hother, hid, hchronicle.later other hother turn hturn hplace⟩
  unique _ hturn _ hother := hchronicle.unique hturn hother
  separate _ hturn _ hother _ := hchronicle.unique_of_owns hturn hother

end Chronicle

namespace Moment

variable (hmoment : store.Moment config host turns)
include hmoment

/-- If a module has settled, its turn is over. -/
theorem leaves (hturn : turn ∈ turns) (hsettled : store.HasSettled turn.id) :
    turn.after.LeavesSettled store := by
  obtain ⟨other, hother, hid, hleaves⟩ := hmoment.told _ hsettled
  obtain rfl := hmoment.unique other hother turn hturn hid
  exact hleaves

end Moment

end Store

/-! ## Objects -/

/-- Two objects that were made equally late in the turns of one module, or that were its exports
values when the turns began. -/
def BodyTurn.Pairs (turn turn' : BodyTurn) (object object' : ObjectRef) : Prop :=
  (Late turn.before.heap.size turn'.before.heap.size object.index object'.index ∧
      object.index < turn.after.heap.size ∧ object'.index < turn'.after.heap.size) ∨
    turn.before.exposed? turn.ref = some object ∧ turn'.before.exposed? turn'.ref = some object'

namespace BodyTurn

variable {turn turn' : BodyTurn} {object object' other other' : ObjectRef}

theorem Pairs.owns (hpairs : turn.Pairs turn' object object') :
    turn.Owns object ∧ turn'.Owns object' := by
  rcases hpairs with ⟨hlate, hsize, hsize'⟩ | ⟨hexposed, hexposed'⟩
  · exact ⟨.inl ⟨hlate.1, hsize⟩, .inl ⟨hlate.2.1, hsize'⟩⟩
  · exact ⟨.inr hexposed, .inr hexposed'⟩

/-- The exports value of a module is there when its turn begins. -/
theorem Fair.size_of_exposed (hfair : turn.Fair config host)
    (hexposed : turn.before.exposed? turn.ref = some object) :
    object.index < turn.before.heap.size :=
  hfair.proper.poised.size_of_exposed hfair.registered.record hexposed

theorem Pairs.iff (hfair : turn.Fair config host) (hfair' : turn'.Fair config host)
    (hpairs : turn.Pairs turn' object object') (hother : turn.Pairs turn' other other') :
    object = other ↔ object' = other' := by
  have hnumber : ∀ one other : ObjectRef, one = other ↔ one.index = other.index :=
    fun one other => ⟨congrArg _, congrArg ObjectRef.mk⟩
  rcases hpairs with ⟨hlate, -⟩ | ⟨hexposed, hexposed'⟩ <;>
    rcases hother with ⟨hlate', -⟩ | ⟨hheld, hheld'⟩
  · rw [hnumber, hnumber]
    unfold Late at hlate hlate'
    omega
  · have hsize := hfair.size_of_exposed hheld
    have hsize' := hfair'.size_of_exposed hheld'
    rw [hnumber, hnumber]
    unfold Late at hlate
    omega
  · have hsize := hfair.size_of_exposed hexposed
    have hsize' := hfair'.size_of_exposed hexposed'
    rw [hnumber, hnumber]
    unfold Late at hlate'
    omega
  · obtain rfl := Option.some.inj (hexposed.symm.trans hheld)
    obtain rfl := Option.some.inj (hexposed'.symm.trans hheld')
    exact iff_of_true rfl rfl

end BodyTurn

/-! ## Slots -/

namespace Store

/-- The slot of a module under a local name. -/
def Slot (store : Store) (id : ModuleId) (name : String) (cell : CellRef) : Prop :=
  ∃ ref record value?, store.Registered id ref record ∧
    record.environment.find? name = some (.cell cell) ∧
    store.cell? cell = some ⟨ref, id, name, value?⟩

namespace Slot

variable {store next : Store} {id id' : ModuleId} {name name' : String} {cell cell' : CellRef}

theorem unique (hslot : store.Slot id name cell) (hslot' : store.Slot id name cell') :
    cell = cell' := by
  obtain ⟨_, _, _, hregistered, hbound, -⟩ := hslot
  obtain ⟨_, _, _, hregistered', hbound', -⟩ := hslot'
  obtain ⟨rfl, rfl⟩ := hregistered.unique hregistered'
  cases hbound.symm.trans hbound'
  rfl

theorem named (hslot : store.Slot id name cell) (hslot' : store.Slot id' name' cell) :
    id = id' ∧ name = name' := by
  obtain ⟨_, _, _, _, _, hfound⟩ := hslot
  obtain ⟨_, _, _, _, _, hfound'⟩ := hslot'
  cases hfound.symm.trans hfound'
  exact ⟨rfl, rfl⟩

/-- A slot of a module that has settled stays. -/
theorem leaves (hslot : store.Slot id name cell) (hsettled : store.HasSettled id)
    (hleaves : store.LeavesSettled next) : next.Slot id name cell := by
  obtain ⟨ref, record, value?, hregistered, hbound, hfound⟩ := hslot
  obtain ⟨_, _, hregistered', hstatus⟩ := hsettled
  obtain ⟨rfl, rfl⟩ := hregistered.unique hregistered'
  exact ⟨_, _, value?, hleaves.registered hregistered hstatus, hbound,
    hleaves.cell_of_hasSettled hfound ⟨_, _, hregistered, hstatus⟩⟩

end Slot

end Store

namespace BodyTurn.Fair

variable {turn : BodyTurn} (hfair : turn.Fair config host) {store : Store} {id : ModuleId} {name : String}
  {cell : CellRef}
include hfair

/-- A slot of a module is there after its turn. -/
theorem slot_after (hslot : turn.before.Slot turn.id name cell) :
    turn.after.Slot turn.id name cell := by
  obtain ⟨ref, record, value?, hregistered, hbound, hfound⟩ := hslot
  obtain ⟨rfl, rfl⟩ := hfair.registered.unique hregistered
  obtain ⟨ended, hended, -, -, -, -, -, hkept⟩ := hfair.ran.own
  obtain ⟨value'?, hfound', -⟩ := hfair.ran.cell cell _ hfound
  exact ⟨turn.ref, ended, value'?, ⟨hfair.leaves.lookup _ _ hregistered.lookup, hended⟩,
    hkept name _ hbound, hfound'⟩

/-- What the body declares are slots of its module. -/
theorem slot_of_declared {found : Cell} (hfound : turn.after.cell? cell = some found)
    (hsize : turn.before.cells.size ≤ cell.index) : turn.after.Slot turn.id found.name cell := by
  obtain ⟨ended, hended, hid, -⟩ := hfair.ran.own
  obtain ⟨hfrom, howner, hbound⟩ := hfair.ran.outgrows.declared cell found hfound hsize
  obtain ⟨record, owner, local_, value?⟩ := found
  unfold Store.binding? at hbound
  rw [hended] at howner hbound
  obtain rfl : owner = turn.id := (Option.some.inj howner).trans (hid.trans hfair.id_eq)
  obtain rfl : record = turn.ref := hfrom
  exact ⟨turn.ref, ended, value?, ⟨hfair.leaves.lookup _ _ hfair.registered.lookup, hended⟩, hbound,
    hfound⟩

variable (hleaves : turn.after.LeavesSettled store)
include hleaves

/-- The record of a module stays as its turn has left it. -/
theorem registered_of_leaves : ∃ ended, turn.after.record? turn.ref = some ended ∧
    ended.status.isSettled = true ∧ store.Registered turn.id turn.ref ended := by
  obtain ⟨ended, hended, -, -, -, -, hsettled, -⟩ := hfair.ran.own
  refine ⟨ended, hended, hsettled, ?_⟩
  exact hleaves.registered ⟨hfair.leaves.lookup _ _ hfair.registered.lookup, hended⟩ hsettled

/-- Slots of settled modules, and of the module whose turn it is, are there after the turn. -/
theorem slot_of_leaves (hid : turn.before.HasSettled id ∨ id = turn.id)
    (hslot : turn.before.Slot id name cell) : store.Slot id name cell := by
  rcases hid with hsettled | rfl
  · exact hslot.leaves hsettled (hfair.leaves.trans hleaves)
  · exact (hfair.slot_after hslot).leaves hfair.settles hleaves

/-- The slots of a module stay as its turn has left them. -/
theorem slot_back (hslot : store.Slot turn.id name cell) :
    turn.after.Slot turn.id name cell ∧ store.cell? cell = turn.after.cell? cell := by
  obtain ⟨ref, record, value?, hregistered, hbound, hfound⟩ := hslot
  obtain ⟨ended, hended, -, hregistered'⟩ := hfair.registered_of_leaves hleaves
  obtain ⟨rfl, rfl⟩ := hregistered'.unique hregistered
  obtain ⟨before, hbefore, -⟩ := hfair.proper_after.rooted turn.ref record hended name cell hbound
  obtain ⟨value'?, hkept, hsame⟩ := hleaves.cell cell before hbefore
  rw [hfound] at hkept
  have howner : before.owner = turn.id := congrArg Cell.owner (Option.some.inj hkept).symm
  rw [hsame (howner ▸ hfair.settles)] at hkept
  obtain rfl : (⟨turn.ref, turn.id, name, value?⟩ : Cell) = before := Option.some.inj hkept
  exact ⟨⟨turn.ref, record, value?, ⟨hfair.leaves.lookup _ _ hfair.registered.lookup, hended⟩, hbound,
    hbefore⟩, hfound.trans hbefore.symm⟩

/-- The objects of a turn stay as it has left them. -/
theorem object_of_leaves {object : ObjectRef} (howns : turn.Owns object) :
    store.heap.objects[object.index]? = turn.after.heap.objects[object.index]? := by
  obtain ⟨hindex, hfree⟩ := hfair.free_of_owns howns
  exact hleaves.object object hindex hfree

end BodyTurn.Fair

/-! ## Pairings -/

section Between

variable {turns turns' : List BodyTurn} {store store' next next' : Store}
  {region region' : ModuleId → Prop}

/-- What belongs together in two stores, for the modules of a region. -/
def Pairing.between (hmoment : store.Moment config host turns)
    (hmoment' : store'.Moment config host turns') (region : ModuleId → Prop) : Pairing where
  record ref ref' := ∃ id, region id ∧ store.lookup? id = some ref ∧ store'.lookup? id = some ref'
  cell cell cell' := ∃ id name, region id ∧ store.Slot id name cell ∧ store'.Slot id name cell'
  object object object' := ∃ turn ∈ turns, ∃ turn' ∈ turns', region turn.id ∧ turn'.id = turn.id ∧
    turn.Pairs turn' object object'
  covers := region
  record_iff := by
    rintro one one' other other' ⟨id, -, hlookup, hlookup'⟩ ⟨id₂, -, hother, hother'⟩
    constructor
    · rintro rfl
      obtain rfl := hmoment.proper.regular.living.named.unique hlookup hother
      exact Option.some.inj (hlookup'.symm.trans hother')
    · rintro rfl
      obtain rfl := hmoment'.proper.regular.living.named.unique hlookup' hother'
      exact Option.some.inj (hlookup.symm.trans hother)
  cell_iff := by
    rintro one one' other other' ⟨id, name, -, hslot, hslot'⟩ ⟨id₂, name₂, -, hother, hother'⟩
    constructor
    · rintro rfl
      obtain ⟨rfl, rfl⟩ := hslot.named hother
      exact hslot'.unique hother'
    · rintro rfl
      obtain ⟨rfl, rfl⟩ := hslot'.named hother'
      exact hslot.unique hother
  object_iff := by
    rintro one one' other other' ⟨turn, hturn, turn', hturn', -, hid, hpairs⟩
      ⟨late, hlate, late', hlate', -, hid', hpairs'⟩
    have howns := hpairs.owns
    have howns' := hpairs'.owns
    constructor
    · rintro rfl
      obtain rfl := hmoment.separate turn hturn late hlate one howns.1 howns'.1
      obtain rfl := hmoment'.unique turn' hturn' late' hlate' (hid.trans hid'.symm)
      exact ((hpairs.iff (hmoment.fair _ hturn) (hmoment'.fair _ hturn')) hpairs').mp rfl
    · rintro rfl
      obtain rfl := hmoment'.separate turn' hturn' late' hlate' one' howns.2 howns'.2
      obtain rfl := hmoment.unique turn hturn late hlate (hid.symm.trans hid')
      exact ((hpairs.iff (hmoment.fair _ hturn) (hmoment'.fair _ hturn')) hpairs').mpr rfl

variable {hmoment : store.Moment config host turns} {hmoment' : store'.Moment config host turns'}

namespace Pairing

/-- What belongs together for the modules of a region does so for those of a larger one. -/
theorem between_mono (hregion : ∀ id, region id → region' id) :
    (between hmoment hmoment' region).Le (between hmoment hmoment' region') where
  record := fun _ _ ⟨id, hid, hlookup⟩ => ⟨id, hregion id hid, hlookup⟩
  cell := fun _ _ ⟨id, name, hid, hslot⟩ => ⟨id, name, hregion id hid, hslot⟩
  object := fun _ _ ⟨turn, hturn, turn', hturn', hid, hpairs⟩ =>
    ⟨turn, hturn, turn', hturn', hregion _ hid, hpairs⟩
  covers := hregion

/-- Whatever belongs together is there, if the turns of its modules are over or about to begin. -/
theorem between_fits (hnow : ∀ turn ∈ turns, ∀ turn' ∈ turns', region turn.id → turn'.id = turn.id →
      store.HasSettled turn.id ∧ store'.HasSettled turn.id ∨
        turn.before = store ∧ turn'.before = store') :
    (between hmoment hmoment' region).Fits store store' where
  record := by
    rintro ref ref' ⟨id, -, hlookup, hlookup'⟩
    obtain ⟨_, hrecord, -⟩ := hmoment.proper.regular.living.named id ref hlookup
    obtain ⟨_, hrecord', -⟩ := hmoment'.proper.regular.living.named id ref' hlookup'
    exact .inl ⟨(Array.getElem?_eq_some_iff.mp hrecord).1, (Array.getElem?_eq_some_iff.mp hrecord').1⟩
  cell := by
    rintro cell cell' ⟨id, name, -, ⟨_, _, _, -, -, hfound⟩, ⟨_, _, _, -, -, hfound'⟩⟩
    exact .inl ⟨(Array.getElem?_eq_some_iff.mp hfound).1, (Array.getElem?_eq_some_iff.mp hfound').1⟩
  object := by
    rintro object object' ⟨turn, hturn, turn', hturn', hid, hsame, hpairs⟩
    have hfair := hmoment.fair turn hturn
    have hfair' := hmoment'.fair turn' hturn'
    rcases hnow turn hturn turn' hturn' hid hsame with ⟨hsettled, hsettled'⟩ | ⟨hbefore, hbefore'⟩
    · obtain ⟨howns, howns'⟩ := hpairs.owns
      exact .inl
        ⟨Nat.lt_of_lt_of_le (hfair.free_of_owns howns).1 (hmoment.leaves hturn hsettled).size,
          Nat.lt_of_lt_of_le (hfair'.free_of_owns howns').1
            (hmoment'.leaves hturn' (hsame ▸ hsettled')).size⟩
    · rw [← hbefore, ← hbefore']
      rcases hpairs with ⟨hlate, -⟩ | ⟨hexposed, hexposed'⟩
      · exact .inr hlate
      · exact .inl ⟨hfair.size_of_exposed hexposed, hfair'.size_of_exposed hexposed'⟩

end Pairing

end Between

end Linkage
