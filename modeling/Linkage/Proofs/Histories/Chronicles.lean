import Linkage.Proofs.Declarations.Recalling
import Linkage.Proofs.Histories.Poising
import Linkage.Proofs.Runs.Requiring

/-!
# Chronicles

Where no body requires another module, bodies run one after the other, each from its beginning to its
end.  A chronicle lists them: for each the store in which it began.  What happens between two turns
leaves alone all that has settled, so a later store still shows what each turn has left behind.

* `Store.Proper` : what holds of every store between two turns.
* `BodyTurn`, `BodyTurn.Fair` : the body of a module runs, and it finds what it needs.
* `BodyTurn.Owns` : the objects that belong to a turn, which no later turn changes.
* `Store.Chronicle` : all turns there have been; `Chronicle.goesOn`, `Chronicle.ran` continue one.
* `Chronicle.settled_of_reached` : whatever a settled module without cycles leads to has settled.
-/

namespace Linkage

open Relation (ReflTransGen TransGen)

variable {config : Config} {host : Host}

namespace Store

/-- What holds of a store while no body runs. -/
structure Proper (config : Config) (host : Host) (store : Store) : Prop where
  regular : store.Regular
  rooted : store.Rooted
  poised : store.Poised
  foretold : store.Foretold config host

/-- What a module asks for has settled, and a modern module is furnished. -/
structure Provided (config : Config) (host : Host) (store : Store) (ref : RecordRef)
    (record : Record) : Prop where
  settled : ∀ other, config.Asks host record.id other → store.HasSettled other
  furnished : record.format = .modern → store.Furnished ref record

variable {store next : Store} {id : ModuleId} {ref : RecordRef} {record : Record}
  {order : List ModuleId} {statements : List Statement}

theorem Regular.upright (hregular : store.Regular) : store.Upright :=
  ⟨hregular.living.named, hregular.current⟩

/-! ## What happens to a store -/

theorem Ran.knowsSame (hran : store.Ran ref record next)
    (hrecord : store.record? ref = some record) : store.KnowsSame next where
  lookup id := by
    unfold lookup?
    rw [hran.registry]
  record other found hfound := by
    by_cases hother : other = ref
    · subst hother
      obtain rfl := Option.some.inj (hfound.symm.trans hrecord)
      obtain ⟨ended, hended, hid, hsource, hanalysis, hformat, -⟩ := hran.own
      exact ⟨ended, hended, hid, hformat, hsource, hanalysis⟩
    · exact ⟨found, (hran.other other hother).trans hfound, .refl found⟩
  none other hnone := by
    rw [hran.other other ?_, hnone]
    rintro rfl
    cases hnone.symm.trans hrecord

namespace Proper

variable (hproper : store.Proper config host)
include hproper

theorem chain {marks : List Mark} (hchain : Chain ⟨[], [], store⟩ marks ⟨[], [], next⟩)
    (hpoised : next.Poised) (hforetold : next.Foretold config host) : next.Proper config host where
  regular := hchain.regular hproper.regular
  rooted := hchain.rooted hproper.regular.living hproper.rooted
  poised := hpoised
  foretold := hforetold

theorem learns (hlearns : store.Learns next) (htouches : store.Touches next)
    (hforetold : next.Foretold config host) : next.Proper config host :=
  hproper.chain (.of_touches htouches) (Learns.poised hlearns hproper.poised) hforetold

theorem link (hspans : store.Spans order) : (store.link order).2.Proper config host :=
  hproper.chain (.single (.link hspans)) (hproper.poised.link order)
    (hproper.foretold.knowsSame (.of_rebinds (store.rebinds_link order)))

theorem namespace_ (id : ModuleId) (requester? : Option ModuleId) :
    (store.namespace_ id requester?).2.Proper config host :=
  hproper.chain (.single (.touch (.space id requester?)))
    (hproper.poised.namespace_ id requester?)
    (hproper.foretold.knowsSame (.of_stir (.space id requester?)))

theorem ran_of_registered (hregistered : store.Registered id ref record) :
    store.Ran ref record (store.ran ref statements) :=
  ran_of_grounded hproper.poised.grounded hproper.regular.upright hregistered.record statements

theorem ran (hregistered : store.Registered id ref record) (hstartable : record.Startable statements)
    (hunsettled : record.status.isSettled = false) :
    (store.ran ref statements).Proper config host := by
  have hran : store.Ran ref record (store.ran ref statements) :=
    hproper.ran_of_registered hregistered
  obtain ⟨marks, -, hchain⟩ := chain_ran hregistered.record hstartable
  exact hproper.chain hchain (hproper.poised.ran hran hregistered.record hunsettled)
    (hproper.foretold.knowsSame (hran.knowsSame hregistered.record))

theorem id_of_registered (hregistered : store.Registered id ref record) : record.id = id := by
  obtain ⟨found, hfound, rfl⟩ := hproper.regular.living.named id ref hregistered.lookup
  rw [Option.some.inj (hregistered.record.symm.trans hfound)]

/-- A module asks for what its record names. -/
theorem asks_of_requested (hregistered : store.Registered id ref record) {other : ModuleId}
    (hmem : other ∈ record.requested) : config.Asks host id other := by
  have hforetold := hproper.foretold _ _ _ hregistered
  obtain ⟨analysis, hanalysis⟩ : ∃ analysis, record.analysis? = some analysis := by
    unfold Record.requested at hmem
    cases hanalysis : record.analysis? with
    | none => simp [hanalysis] at hmem
    | some analysis => exact ⟨analysis, rfl⟩
  have hanalyzed : record.analysis?.isSome := by rw [hanalysis]; rfl
  have hsourced := (hproper.regular.closed.coherent _ _ hregistered.record).sourced hanalyzed
  rw [← hproper.id_of_registered hregistered]
  refine (hforetold.mem_dependencies_iff hsourced hanalyzed).mp ?_
  unfold Record.dependencies
  cases hformat : record.format with
  | modern => exact hmem
  | legacy =>
      -- the declarations of a legacy module name no module
      obtain ⟨source, hsource⟩ := Option.isSome_iff_exists.mp hsourced
      have hlegacy := (hforetold.analysis source analysis hsource hanalysis).legacy
        (hforetold.format.symm.trans hformat)
      rw [Record.requested, hanalysis, hlegacy] at hmem
      cases hmem

end Proper

theorem proper_empty (config : Config) (host : Host) : empty.Proper config host where
  regular := Machine.regular_perform default default []
  rooted _ _ hrecord := by cases hrecord
  poised := poised_empty
  foretold _ _ _ hregistered := by cases hregistered.lookup

/-! ### No module settles on the way -/

theorem Learns.hasSettled_back (hlearns : store.Learns next) (hsettled : next.HasSettled id) :
    store.HasSettled id := by
  obtain ⟨ref, record', hregistered, hstatus⟩ := hsettled
  rcases (Learns.enriches hlearns).back ref record' hregistered.record with
    ⟨record, hrecord, hinformed⟩ | ⟨-, fresh, ⟨_, _, rfl⟩, hinformed⟩
  · refine ⟨ref, record, ⟨?_, hrecord⟩, hinformed.status ▸ hstatus⟩
    rcases Learns.lookup_back hlearns hregistered.lookup with hlookup | hnone
    · exact hlookup
    · cases hnone.symm.trans hrecord
  · rw [hinformed.status] at hstatus
    cases hstatus

theorem hasSettled_link_back (hnodup : (store.pendingLinks order).Nodup)
    (hsettled : (store.link order).2.HasSettled id) : store.HasSettled id := by
  obtain ⟨ref, record', hregistered, hstatus⟩ := hsettled
  have hrebinds := store.rebinds_link order
  have hlookup : store.lookup? id = some ref := (hrebinds.lookup id).symm.trans hregistered.lookup
  cases hrecord : store.record? ref with
  | none => cases (hrebinds.none ref hrecord).symm.trans hregistered.record
  | some record =>
      rcases link_record hnodup hrecord with ⟨-, hkept⟩ | ⟨-, environment, hkept⟩
      · obtain rfl := Option.some.inj (hkept.symm.trans hregistered.record)
        exact ⟨ref, record, ⟨hlookup, hrecord⟩, hstatus⟩
      · obtain rfl := Option.some.inj (hkept.symm.trans hregistered.record)
        split at hstatus <;> cases hstatus

theorem Cached.hasSettled_back (hcached : store.Cached next) (hsettled : next.HasSettled id) :
    store.HasSettled id := by
  obtain ⟨ref, record, hregistered, hstatus⟩ := hsettled
  exact ⟨ref, record, ⟨(hcached.lookup?_eq id).symm.trans hregistered.lookup,
    (hcached.record?_eq ref).symm.trans hregistered.record⟩, hstatus⟩

end Store

/-! ## Turns -/

/-- The body of a module runs from its beginning to its end. -/
structure BodyTurn where
  /-- How many turns there have been before. -/
  place : Nat
  /-- The module. -/
  id : ModuleId
  /-- Its record. -/
  ref : RecordRef
  /-- What is known of it then. -/
  record : Record
  /-- The body. -/
  statements : List Statement
  /-- The store in which the body begins. -/
  before : Store

namespace BodyTurn

/-- The store in which the body has ended. -/
def after (turn : BodyTurn) : Store := turn.before.ran turn.ref turn.statements

/-- A body that may begin, and that finds what it needs if its module leads to no cycle. -/
structure Fair (config : Config) (host : Host) (turn : BodyTurn) : Prop where
  proper : turn.before.Proper config host
  registered : turn.before.Registered turn.id turn.ref turn.record
  startable : turn.record.Startable turn.statements
  provided : config.Acyclic host turn.id →
    turn.before.Provided config host turn.ref turn.record

/-- An object that the body has made, or that was the exports value of its module. -/
def Owns (turn : BodyTurn) (object : ObjectRef) : Prop :=
  (turn.before.heap.size ≤ object.index ∧ object.index < turn.after.heap.size) ∨
    turn.before.exposed? turn.ref = some object

namespace Fair

variable {turn : BodyTurn} (hfair : turn.Fair config host)
include hfair

theorem id_eq : turn.record.id = turn.id := hfair.proper.id_of_registered hfair.registered

theorem unsettled : turn.record.status.isSettled = false := by
  rw [hfair.startable.status]
  split <;> rfl

theorem ran : turn.before.Ran turn.ref turn.record turn.after :=
  hfair.proper.ran_of_registered hfair.registered

theorem proper_after : turn.after.Proper config host :=
  hfair.proper.ran hfair.registered hfair.startable hfair.unsettled

theorem leaves : turn.before.LeavesSettled turn.after :=
  hfair.ran.leavesSettled hfair.registered hfair.id_eq hfair.unsettled

theorem not_hasSettled : ¬ turn.before.HasSettled turn.id := by
  rintro ⟨ref, record, hregistered, hsettled⟩
  obtain ⟨-, rfl⟩ := hfair.registered.unique hregistered
  cases hsettled.symm.trans hfair.unsettled

theorem settles : turn.after.HasSettled turn.id := by
  obtain ⟨ended, hended, -, -, -, -, hsettled, -⟩ := hfair.ran.own
  refine ⟨turn.ref, ended, ⟨?_, hended⟩, hsettled⟩
  exact hfair.leaves.lookup turn.id turn.ref hfair.registered.lookup

theorem settled_back {id : ModuleId} (hsettled : turn.after.HasSettled id) :
    id = turn.id ∨ turn.before.HasSettled id := by
  obtain ⟨ref, record, hregistered, hstatus⟩ := hsettled
  have hlookup : turn.before.lookup? id = some ref := by
    rw [← hregistered.lookup]
    exact ((hfair.ran.knowsSame hfair.registered.record).lookup id).symm
  by_cases href : ref = turn.ref
  · subst href
    exact .inl (hfair.proper.regular.living.named.unique hfair.registered.lookup hlookup)
  · refine .inr ⟨ref, record, ⟨hlookup, ?_⟩, hstatus⟩
    rw [← hfair.ran.other ref href, hregistered.record]

/-- A module that has not settled afterwards had not settled before, and exposes what it exposed. -/
theorem waiting_back {ref : RecordRef} {record : Record} {object : ObjectRef}
    (hrecord : turn.after.record? ref = some record) (hunsettled : record.status.isSettled = false)
    (hexposed : turn.after.exposed? ref = some object) :
    ref ≠ turn.ref ∧ turn.before.record? ref = some record ∧
      turn.before.exposed? ref = some object := by
  have href : ref ≠ turn.ref := by
    rintro rfl
    obtain ⟨ended, hended, -, -, -, -, hsettled, -⟩ := hfair.ran.own
    obtain rfl := Option.some.inj (hended.symm.trans hrecord)
    cases hsettled.symm.trans hunsettled
  have hbefore : turn.before.record? ref = some record := by
    rw [← hfair.ran.other ref href, hrecord]
  rw [Store.exposed?_of_record hrecord, ← Store.exposed?_of_record hbefore] at hexposed
  exact ⟨href, hbefore, hexposed⟩

/-- What belongs to a turn is changed by no other module afterwards. -/
theorem free_of_owns {object : ObjectRef} (howns : turn.Owns object) :
    object.index < turn.after.heap.size ∧ turn.after.Free object := by
  have hpoised := hfair.proper.poised
  rcases howns with ⟨hnew, hindex⟩ | hown
  · refine ⟨hindex, fun ref record hrecord hunsettled hexposed => ?_⟩
    obtain ⟨-, hbefore, hheld⟩ := hfair.waiting_back hrecord hunsettled hexposed
    have hold := hpoised.size_of_exposed hbefore hheld
    omega
  · refine ⟨Nat.lt_of_lt_of_le (hpoised.size_of_exposed hfair.registered.record hown)
      hfair.leaves.size, fun ref record hrecord hunsettled hexposed => ?_⟩
    obtain ⟨hother, hbefore, hheld⟩ := hfair.waiting_back hrecord hunsettled hexposed
    exact hother (hpoised.apart _ _ _ _ _ hbefore hfair.registered.record hunsettled
      hfair.unsettled hheld hown)

end Fair

end BodyTurn

/-! ## Chronicles -/

namespace Store

/-- All turns that there have been until a store was as it is. -/
structure Chronicle (config : Config) (host : Host) (turns : List BodyTurn) (store : Store) : Prop where
  proper : store.Proper config host
  fair : ∀ turn ∈ turns, turn.Fair config host
  past : ∀ turn ∈ turns, turn.after.LeavesSettled store
  told : ∀ id, store.HasSettled id → ∃ turn ∈ turns, turn.id = id
  place : ∀ turn ∈ turns, turn.place < turns.length
  distinct : ∀ turn ∈ turns, ∀ other ∈ turns, turn.place = other.place → turn = other
  later : ∀ turn ∈ turns, ∀ other ∈ turns, turn.place < other.place →
    turn.after.LeavesSettled other.before
  earlier : ∀ turn ∈ turns, ∀ id, turn.before.HasSettled id →
    ∃ other ∈ turns, other.id = id ∧ other.place < turn.place

variable {store next : Store} {turns : List BodyTurn} {turn other : BodyTurn} {id : ModuleId}
  {object : ObjectRef}

theorem chronicle_empty (config : Config) (host : Host) :
    empty.Chronicle config host [] where
  proper := proper_empty config host
  fair := by simp
  past := by simp
  told _ := fun ⟨_, _, hregistered, _⟩ => by cases hregistered.lookup
  place := by simp
  distinct := by simp
  later := by simp
  earlier := by simp

namespace Chronicle

variable (hchronicle : store.Chronicle config host turns)
include hchronicle

/-- Something happens between two turns. -/
theorem goesOn (hproper : next.Proper config host) (hleaves : store.LeavesSettled next)
    (hback : ∀ id, next.HasSettled id → store.HasSettled id) :
    next.Chronicle config host turns :=
  { hchronicle with
    proper := hproper
    past := fun turn hturn => (hchronicle.past turn hturn).trans hleaves
    told := fun id hsettled => hchronicle.told id (hback id hsettled) }

/-- It is the turn of one more module. -/
theorem ran (hfair : turn.Fair config host) (hbefore : turn.before = store)
    (hplace : turn.place = turns.length) : turn.after.Chronicle config host (turn :: turns) := by
  subst hbefore
  refine ⟨hfair.proper_after, ?_, ?_, fun id hsettled => ?_, ?_, ?_, ?_, ?_⟩
  · exact List.forall_mem_cons.mpr ⟨hfair, hchronicle.fair⟩
  · exact List.forall_mem_cons.mpr ⟨.refl _, fun other hother =>
      (hchronicle.past other hother).trans hfair.leaves⟩
  · rcases hfair.settled_back hsettled with rfl | hsettled
    · exact ⟨turn, List.mem_cons_self, rfl⟩
    · obtain ⟨other, hother, hid⟩ := hchronicle.told id hsettled
      exact ⟨other, List.mem_cons_of_mem _ hother, hid⟩
  · refine List.forall_mem_cons.mpr ⟨by simp [hplace], fun other hother => ?_⟩
    exact Nat.lt_succ_of_lt (hchronicle.place other hother)
  · rintro one hone two htwo hsame
    rcases List.mem_cons.mp hone with rfl | hone' <;> rcases List.mem_cons.mp htwo with rfl | htwo'
    · rfl
    · have := hchronicle.place two htwo'
      omega
    · have := hchronicle.place one hone'
      omega
    · exact hchronicle.distinct one hone' two htwo' hsame
  · rintro one hone two htwo hlater
    rcases List.mem_cons.mp hone with rfl | hone' <;> rcases List.mem_cons.mp htwo with rfl | htwo'
    · omega
    · have := hchronicle.place two htwo'
      omega
    · exact hchronicle.past one hone'
    · exact hchronicle.later one hone' two htwo' hlater
  · rintro one hone id hsettled
    rcases List.mem_cons.mp hone with rfl | hone
    · obtain ⟨other, hother, hid⟩ := hchronicle.told id hsettled
      exact ⟨other, List.mem_cons_of_mem _ hother, hid, hplace ▸ hchronicle.place other hother⟩
    · obtain ⟨other, hother, hid, hless⟩ := hchronicle.earlier one hone id hsettled
      exact ⟨other, List.mem_cons_of_mem _ hother, hid, hless⟩

theorem hasSettled (hturn : turn ∈ turns) : store.HasSettled turn.id :=
  (hchronicle.past turn hturn).hasSettled (hchronicle.fair turn hturn).settles

/-- One of two turns that are not the same comes first. -/
theorem eq_or_later (hturn : turn ∈ turns) (hother : other ∈ turns) :
    turn = other ∨ turn.after.LeavesSettled other.before ∨
      other.after.LeavesSettled turn.before := by
  rcases Nat.lt_trichotomy turn.place other.place with hless | hsame | hless
  · exact .inr (.inl (hchronicle.later turn hturn other hother hless))
  · exact .inl (hchronicle.distinct turn hturn other hother hsame)
  · exact .inr (.inr (hchronicle.later other hother turn hturn hless))

/-- A module has one turn. -/
theorem unique (hturn : turn ∈ turns) (hother : other ∈ turns) (hid : turn.id = other.id) :
    turn = other := by
  have hfair := hchronicle.fair turn hturn
  have hfair' := hchronicle.fair other hother
  rcases hchronicle.eq_or_later hturn hother with hsame | hleaves | hleaves
  · exact hsame
  · exact absurd (hid ▸ hleaves.hasSettled hfair.settles) hfair'.not_hasSettled
  · exact absurd (hid ▸ hleaves.hasSettled hfair'.settles) hfair.not_hasSettled

/-- An object belongs to one turn. -/
theorem unique_of_owns (hturn : turn ∈ turns) (hother : other ∈ turns) (howns : turn.Owns object)
    (howns' : other.Owns object) : turn = other := by
  -- what belongs to the first of two turns is there and free when the second begins
  have hapart {one two : BodyTurn} (hfair : one.Fair config host) (hfair' : two.Fair config host)
      (hone : one.Owns object) (htwo : two.Owns object)
      (hleaves : one.after.LeavesSettled two.before) : False := by
    obtain ⟨hindex, hfree⟩ := hfair.free_of_owns hone
    rcases htwo with ⟨hnew, -⟩ | hexposed
    · have := hleaves.size
      omega
    · exact hleaves.free object hindex hfree _ _ hfair'.registered.record hfair'.unsettled hexposed
  have hfair := hchronicle.fair turn hturn
  have hfair' := hchronicle.fair other hother
  rcases hchronicle.eq_or_later hturn hother with hsame | hleaves | hleaves
  · exact hsame
  · exact (hapart hfair hfair' howns howns' hleaves).elim
  · exact (hapart hfair' hfair howns' howns hleaves).elim

/-- **What a settled module without cycles leads to has settled.** -/
theorem settled_of_reached (hsettled : store.HasSettled id) (hacyclic : config.Acyclic host id)
    {last : ModuleId} (hreached : ReflTransGen (config.Asks host) id last) :
    store.HasSettled last := by
  induction hreached with
  | refl => exact hsettled
  | tail hreached hasks ih =>
      obtain ⟨turn, hturn, rfl⟩ := hchronicle.told _ ih
      have hfair := hchronicle.fair turn hturn
      have hprovided := hfair.provided (hacyclic.of_reached hreached)
      exact (hfair.leaves.trans (hchronicle.past turn hturn)).hasSettled
        (hprovided.settled _ (hfair.id_eq ▸ hasks))

end Chronicle

end Store

end Linkage
