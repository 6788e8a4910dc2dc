import Linkage.Proofs.Histories.Matching

/-!
# The turns of one module

When a module without cycles has its turn in two engines over one host, all that it leads to has
settled in both.  If that is alike, the names of the module lead to what belongs together, and both
sides begin alike.

* `Store.Shared` : the modules that are compared.
* `BodyTurn.Meets` : the turns of one module in two chronicles.
* `Meets.same`, `Meets.statements_eq` : both sides know the same of the module and run one body.
* `Meets.environment` : its names belong together.
* `Meets.resembles_begin` : if all that has settled is alike when the turns begin, so is the module.
-/

namespace Linkage

variable {config : Config} {host : Host}

/-- Modules that lead to no cycle and have settled in two stores. -/
def Store.Shared (config : Config) (host : Host) (store store' : Store) (id : ModuleId) : Prop :=
  config.Acyclic host id ∧ store.HasSettled id ∧ store'.HasSettled id

/-- Two stores in which paired things are alike give one import what is alike. -/
theorem Store.Resembles.supplies {pairing : Pairing} {store store' : Store} {entry : ImportEntry}
    {binding binding' : Binding} (hresembles : store.Resembles pairing store')
    (hcovered : pairing.covers entry.source) (hsupplies : store.Supplies entry binding)
    (hsupplies' : store'.Supplies entry binding') : binding.Alike pairing binding' := by
  unfold Store.Supplies at hsupplies hsupplies'
  cases himported : entry.imported with
  | star =>
      rw [himported] at hsupplies hsupplies'
      rw [hsupplies, hsupplies']
      exact .star hcovered
  | name name =>
      rw [himported] at hsupplies hsupplies'
      have hsame := hresembles.resolveExport hcovered name
      rw [hsupplies, hsupplies'] at hsame
      cases hsame with
      | found hbinding => exact hbinding

namespace BodyTurn

/-! ## When a turn begins -/

namespace Fair

variable {turn : BodyTurn} (hfair : turn.Fair config host)
include hfair

/-- A module that begins has no error. -/
theorem error_eq : turn.record.error? = none ∧ turn.record.poison? = none := by
  have htells := hfair.proper.regular.tells _ _ hfair.registered.record
  have hagrees := hfair.proper.regular.agrees _ _ hfair.registered.record
  have herror : turn.record.error? = none := by
    rw [← Option.not_isSome_iff_eq_none]
    intro hsome
    have hunsettled := hfair.unsettled
    rw [htells.mp hsome] at hunsettled
    cases hunsettled
  exact ⟨herror, hagrees.trans herror⟩

/-- A legacy module begins as it was made. -/
theorem pristine (hlegacy : turn.record.format = .legacy) :
    turn.record.environment = {} ∧ ∃ object : ObjectRef,
      turn.record.exports? = some ⟨.object object, false⟩ ∧
        turn.before.exposed? turn.ref = some object ∧
        turn.before.heap.objects[object.index]? = some {} := by
  have hstatus := hfair.startable.status
  rw [hlegacy] at hstatus
  obtain ⟨henvironment, object, hexports, hempty⟩ :=
    hfair.proper.poised.pristine _ _ hfair.registered.record hlegacy hstatus
  refine ⟨henvironment, object, hexports, ?_, hempty⟩
  rw [Store.exposed?_of_record hfair.registered.record, hexports]
  rfl

end Fair

/-- The turns of one module in two chronicles. -/
structure Meets (config : Config) (host : Host) (turns turns' : List BodyTurn) (turn turn' : BodyTurn) :
    Prop where
  moment : turn.before.Moment config host turns
  moment' : turn'.before.Moment config host turns'
  mem : turn ∈ turns
  mem' : turn' ∈ turns'
  id : turn'.id = turn.id
  acyclic : config.Acyclic host turn.id

namespace Meets

variable {turns turns' : List BodyTurn} {turn turn' : BodyTurn}

/-- What belongs together of all that has settled when the turns begin. -/
def known (hmeets : Meets config host turns turns' turn turn') : Pairing :=
  .between hmeets.moment hmeets.moment' (Store.Shared config host turn.before turn'.before)

/-- What belongs together of all that has settled when the turns begin, and of their module. -/
def begun (hmeets : Meets config host turns turns' turn turn') : Pairing :=
  .between hmeets.moment hmeets.moment'
    (fun id => Store.Shared config host turn.before turn'.before id ∨ id = turn.id)

variable (hmeets : Meets config host turns turns' turn turn')

theorem known_le_begun : hmeets.known.Le hmeets.begun := Pairing.between_mono (fun _ => .inl)

include hmeets

theorem fair : turn.Fair config host := hmeets.moment.fair turn hmeets.mem

theorem fair' : turn'.Fair config host := hmeets.moment'.fair turn' hmeets.mem'

theorem acyclic' : config.Acyclic host turn'.id := hmeets.id ▸ hmeets.acyclic

/-- What the module asks for has settled on both sides. -/
theorem shared_of_requested {other : ModuleId} (hmem : other ∈ turn.record.requested) :
    Store.Shared config host turn.before turn'.before other := by
  have hasks := hmeets.fair.proper.asks_of_requested hmeets.fair.registered hmem
  have hprovided := hmeets.fair.provided hmeets.acyclic
  have hprovided' := hmeets.fair'.provided hmeets.acyclic'
  refine ⟨hmeets.acyclic.of_reached (.single hasks), hprovided.settled other ?_,
    hprovided'.settled other ?_⟩
  · rwa [hmeets.fair.id_eq]
  · rwa [hmeets.fair'.id_eq, hmeets.id]

/-- Both sides know the same of the module. -/
theorem same : turn'.record.format = turn.record.format ∧
    turn'.record.source? = turn.record.source? ∧
    turn'.record.analysis? = turn.record.analysis? := by
  have hfair := hmeets.fair
  have hfair' := hmeets.fair'
  obtain ⟨source, hsource, -⟩ := hfair.startable.source
  obtain ⟨source', hsource', -⟩ := hfair'.startable.source
  refine (hfair.proper.foretold _ _ _ hfair.registered).unique
    (hfair'.proper.foretold _ _ _ hfair'.registered) ?_ (by rw [hsource]; rfl)
    (by rw [hsource']; rfl) hfair.startable.analyzed hfair'.startable.analyzed
  rw [hfair.id_eq, hfair'.id_eq, hmeets.id]

/-- Both sides run the same body. -/
theorem statements_eq : turn'.statements = turn.statements := by
  obtain ⟨source, hsource, hbody⟩ := hmeets.fair.startable.source
  obtain ⟨source', hsource', hbody'⟩ := hmeets.fair'.startable.source
  have hsame := hmeets.same.2.1
  rw [hsource, hsource'] at hsame
  obtain rfl := Option.some.inj hsame
  exact List.map_injective_iff.mpr (fun _ _ => Instruction.statement.inj) (hbody'.symm.trans hbody)

theorem exportEntries_eq : turn'.record.exportEntries = turn.record.exportEntries := by
  unfold Record.exportEntries
  rw [hmeets.same.2.2]

theorem importOf?_eq (name : String) :
    turn'.record.importOf? name = turn.record.importOf? name := by
  unfold Record.importOf? Record.imports
  rw [hmeets.same.2.2]

/-- Whatever the module imports belongs together. -/
theorem imported (hresembles : turn.before.Resembles hmeets.known turn'.before)
    {entry : ImportEntry} (hentry : entry ∈ turn.record.imports) {binding binding' : Binding}
    (hsupplies : turn.before.Supplies entry binding)
    (hsupplies' : turn'.before.Supplies entry binding') : binding.Alike hmeets.known binding' := by
  have hcoherent := hmeets.fair.proper.regular.closed.coherent _ _ hmeets.fair.registered.record
  exact hresembles.supplies (hmeets.shared_of_requested (hcoherent.source_of_import hentry))
    hsupplies hsupplies'

theorem begun_record : hmeets.begun.record turn.ref turn'.ref := by
  refine ⟨turn.id, .inr rfl, hmeets.fair.registered.lookup, ?_⟩
  rw [← hmeets.id]
  exact hmeets.fair'.registered.lookup

/-- The names of the module belong together. -/
theorem environment (hresembles : turn.before.Resembles hmeets.known turn'.before) :
    turn.record.environment.Alike (Binding.Alike hmeets.begun) turn'.record.environment := by
  have hfair := hmeets.fair
  have hfair' := hmeets.fair'
  obtain ⟨hformat, -, -⟩ := hmeets.same
  cases hmodern : turn.record.format with
  | legacy =>
      rw [(hfair.pristine hmodern).1, (hfair'.pristine (hformat.trans hmodern)).1]
      exact Table.alike_empty
  | modern =>
      have hfurnished := (hfair.provided hmeets.acyclic).furnished hmodern
      have hfurnished' := (hfair'.provided hmeets.acyclic').furnished (hformat.trans hmodern)
      intro name
      cases himport : turn.record.importOf? name with
      | some entry =>
          obtain ⟨binding, hbound, hsupplies⟩ := hfurnished.imported name entry himport
          obtain ⟨binding', hbound', hsupplies'⟩ :=
            hfurnished'.imported name entry ((hmeets.importOf?_eq name).trans himport)
          rw [hbound, hbound']
          exact .some ((hmeets.imported hresembles (Record.mem_of_importOf? himport) hsupplies
            hsupplies').le hmeets.known_le_begun)
      | none =>
          have himport' := (hmeets.importOf?_eq name).trans himport
          by_cases hname : Store.OwnName turn.record.exportEntries name
          · have hname' : Store.OwnName turn'.record.exportEntries name :=
              hmeets.exportEntries_eq ▸ hname
            obtain ⟨cell, hbound, hfound⟩ := hfurnished.own name himport hname
            obtain ⟨cell', hbound', hfound'⟩ := hfurnished'.own name himport' hname'
            rw [hbound, hbound']
            refine .some (.cell ⟨turn.id, name, .inr rfl,
              ⟨_, _, none, hfair.registered, hbound, hfair.id_eq ▸ hfound⟩, ?_⟩)
            rw [← hmeets.id]
            exact ⟨_, _, none, hfair'.registered, hbound', hfair'.id_eq ▸ hfound'⟩
          · have hname' : ¬ Store.OwnName turn'.record.exportEntries name :=
              hmeets.exportEntries_eq ▸ hname
            rw [hfurnished.other name himport hname, hfurnished'.other name himport' hname']
            exact .none

/-- A slot of the module is one of its own local names, and nothing has been written to it. -/
theorem slot_begun (hresembles : turn.before.Resembles hmeets.known turn'.before) {name : String}
    {cell cell' : CellRef} (hslot : turn.before.Slot turn.id name cell)
    (hslot' : turn'.before.Slot turn.id name cell') :
    turn.before.cell? cell = some ⟨turn.ref, turn.id, name, none⟩ ∧
      turn'.before.cell? cell' = some ⟨turn'.ref, turn.id, name, none⟩ := by
  have hfair := hmeets.fair
  have hfair' := hmeets.fair'
  obtain ⟨hformat, -, -⟩ := hmeets.same
  have hfilled := hslot
  obtain ⟨ref, record, _, hregistered, hbound, -⟩ := hslot
  obtain ⟨rfl, rfl⟩ := hfair.registered.unique hregistered
  obtain ⟨ref', record', _, hregistered', hbound', -⟩ := hslot'
  rw [← hmeets.id] at hregistered'
  obtain ⟨rfl, rfl⟩ := hfair'.registered.unique hregistered'
  have hmodern : turn.record.format = .modern := by
    cases hformat : turn.record.format with
    | modern => rfl
    | legacy =>
        rw [(hfair.pristine hformat).1] at hbound
        cases hbound
  have hfurnished := (hfair.provided hmeets.acyclic).furnished hmodern
  have hfurnished' := (hfair'.provided hmeets.acyclic').furnished (hformat.trans hmodern)
  cases himport : turn.record.importOf? name with
  | some entry =>
      -- what is imported belongs to a module that has settled
      obtain ⟨_, himported, hsupplies⟩ := hfurnished.imported name entry himport
      obtain ⟨_, himported', hsupplies'⟩ :=
        hfurnished'.imported name entry ((hmeets.importOf?_eq name).trans himport)
      cases himported.symm.trans hbound
      cases himported'.symm.trans hbound'
      cases hmeets.imported hresembles (Record.mem_of_importOf? himport) hsupplies hsupplies' with
      | cell hcell =>
          obtain ⟨id, other, hshared, hother, -⟩ := hcell
          obtain ⟨rfl, -⟩ := hother.named hfilled
          exact absurd hshared.2.1 hfair.not_hasSettled
  | none =>
      have himport' := (hmeets.importOf?_eq name).trans himport
      by_cases hname : Store.OwnName turn.record.exportEntries name
      · have hname' : Store.OwnName turn'.record.exportEntries name := hmeets.exportEntries_eq ▸ hname
        obtain ⟨_, hown, hfound⟩ := hfurnished.own name himport hname
        obtain ⟨_, hown', hfound'⟩ := hfurnished'.own name himport' hname'
        cases hown.symm.trans hbound
        cases hown'.symm.trans hbound'
        rw [hfair.id_eq] at hfound
        rw [hfair'.id_eq, hmeets.id] at hfound'
        exact ⟨hfound, hfound'⟩
      · cases (hfurnished.other name himport hname).symm.trans hbound

/-- The record of the module. -/
theorem record_begun (hresembles : turn.before.Resembles hmeets.known turn'.before) :
    turn.record.Alike hmeets.begun turn'.record := by
  have hfair := hmeets.fair
  have hfair' := hmeets.fair'
  obtain ⟨hformat, hsource, hanalysis⟩ := hmeets.same
  refine ⟨?_, ?_, hsource.symm, hanalysis.symm, ?_, ?_, ?_, hmeets.environment hresembles, ?_⟩
  · rw [hfair.id_eq, hfair'.id_eq, hmeets.id]
  · rw [hfair.startable.status, hfair'.startable.status, hformat]
  · rw [hfair.error_eq.1, hfair'.error_eq.1]
  · rw [hfair.error_eq.2, hfair'.error_eq.2]
  · cases hmodern : turn.record.format with
    | modern =>
        rw [Record.exports?_of_modern hmodern, Record.exports?_of_modern (hformat.trans hmodern)]
        exact .none
    | legacy =>
        obtain ⟨-, object, hexports, hexposed, -⟩ := hfair.pristine hmodern
        obtain ⟨-, object', hexports', hexposed', -⟩ := hfair'.pristine (hformat.trans hmodern)
        rw [hexports, hexports']
        exact .some ⟨.object ⟨turn, hmeets.mem, turn', hmeets.mem', .inr rfl, hmeets.id,
          .inr ⟨hexposed, hexposed'⟩⟩, rfl⟩
  · intro entry hentry source hsource
    have hcoherent := hfair.proper.regular.closed.coherent _ _ hfair.registered.record
    exact .inl (hmeets.shared_of_requested (hcoherent.source_of_export hentry hsource))

/-- An object that belongs to both turns is not there yet, or it is empty. -/
theorem object_begun {object object' : ObjectRef} (hpairs : turn.Pairs turn' object object') :
    Option.Rel (Table.Alike (Value.Alike hmeets.begun)) turn.before.heap.objects[object.index]?
      turn'.before.heap.objects[object'.index]? := by
  have hfair := hmeets.fair
  have hfair' := hmeets.fair'
  rcases hpairs with ⟨hlate, -⟩ | ⟨hexposed, hexposed'⟩
  · rw [Array.getElem?_eq_none hlate.1, Array.getElem?_eq_none hlate.2.1]
    exact .none
  · obtain ⟨-, _, -, hheld, hempty⟩ :=
      hfair.pristine (Store.format_of_exposed hfair.registered.record hexposed)
    obtain ⟨-, _, -, hheld', hempty'⟩ :=
      hfair'.pristine (Store.format_of_exposed hfair'.registered.record hexposed')
    cases hheld.symm.trans hexposed
    cases hheld'.symm.trans hexposed'
    rw [hempty, hempty']
    exact .some Table.alike_empty

/-- **If all that has settled is alike when the turns begin, so is their module.** -/
theorem resembles_begin (hresembles : turn.before.Resembles hmeets.known turn'.before) :
    turn.before.Resembles hmeets.begun turn'.before where
  object := by
    rintro object object' ⟨other, hother, other', hother', hshared | hid, hsame, hpairs⟩
    · refine rel_imp (hresembles.object ⟨other, hother, other', hother', hshared, hsame, hpairs⟩)
        (fun _ _ _ _ htable => htable.imp (fun _ _ _ _ _ hvalue => ?_))
      exact hvalue.within hmeets.known_le_begun.toWithin
    · obtain rfl := hmeets.moment.unique _ hother _ hmeets.mem hid
      obtain rfl := hmeets.moment'.unique _ hother' _ hmeets.mem' (hsame.trans hmeets.id.symm)
      exact hmeets.object_begun hpairs
  record := by
    rintro ref ref' ⟨id, hshared | rfl, hlookup, hlookup'⟩
    · exact rel_imp (hresembles.record ⟨id, hshared, hlookup, hlookup'⟩)
        (fun _ _ _ _ hrecord => hrecord.le hmeets.known_le_begun)
    · cases hlookup.symm.trans hmeets.fair.registered.lookup
      rw [← hmeets.id] at hlookup'
      cases hlookup'.symm.trans hmeets.fair'.registered.lookup
      rw [hmeets.fair.registered.record, hmeets.fair'.registered.record]
      exact .some (hmeets.record_begun hresembles)
  cell := by
    rintro cell cell' ⟨id, name, hshared | rfl, hslot, hslot'⟩
    · exact rel_imp (hresembles.cell ⟨id, name, hshared, hslot, hslot'⟩)
        (fun _ _ _ _ hfound => hfound.le hmeets.known_le_begun)
    · obtain ⟨hfound, hfound'⟩ := hmeets.slot_begun hresembles hslot hslot'
      rw [hfound, hfound']
      exact .some ⟨hmeets.begun_record, rfl, rfl, .none⟩
  lookup := by
    rintro id (hshared | rfl)
    · exact rel_imp (hresembles.lookup hshared)
        (fun _ _ _ _ href => hmeets.known_le_begun.record _ _ href)
    · rw [hmeets.fair.registered.lookup, ← hmeets.id, hmeets.fair'.registered.lookup]
      exact .some hmeets.begun_record
  upright := hmeets.fair.proper.regular.upright
  upright' := hmeets.fair'.proper.regular.upright

end Meets

end BodyTurn

end Linkage
