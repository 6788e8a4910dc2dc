import Linkage.Proofs.Linking.Supplying
import Linkage.Proofs.Runs.Closure
import Linkage.Proofs.Runs.Namespaces
import Linkage.Proofs.Store.Access

/-!
# Imports are live

Once a module is linked, each of its imports refers to the slot that the exported name leads to, in
every later state until all modules are forgotten.  What a name leads to is looked up anew for every
read through a namespace, so this says that the two ways to a slot never part.

* `Store.Imported` : the invariant, also where several imports have one local name.
* `Change.imported` : one change.
* `Store.Faithful`, `Chain.faithful` : what it says where imports have different local names.
* `Machine.linked_imports_follow_exports` : every run.
-/

namespace Linkage

namespace Store

/-- The imports of every module have different local names, none of them that of default
exports. -/
structure DistinctImports (store : Store) : Prop where
  nodup : ∀ record ∈ store.records, (record.imports.map (·.as_)).Nodup
  spares : store.SparesDefault

/-- Every name that a linked module imports is bound to what an import of that name leads to. -/
def Imported (store : Store) : Prop :=
  ∀ id ref record, store.Registered id ref record → record.format = .modern →
    record.status.hasLinked = true → ∀ entry ∈ record.imports, ∃ binding,
      record.environment.find? entry.as_ = some binding ∧
        store.ImportedAs record.imports entry.as_ binding

/-- Every import of a linked module is bound to what its name leads to. -/
def Faithful (store : Store) : Prop :=
  ∀ id ref record, store.Registered id ref record → record.format = .modern →
    record.status.hasLinked = true → ∀ entry ∈ record.imports, ∃ binding,
      record.environment.find? entry.as_ = some binding ∧ store.Supplies entry binding

variable {store store' : Store}

theorem DistinctImports.record (hdistinct : store.DistinctImports) {ref : RecordRef}
    {record : Record} (hrecord : store.record? ref = some record) :
    (record.imports.map (·.as_)).Nodup :=
  hdistinct.nodup record (Array.mem_of_getElem? hrecord)

/-- Imports do not change, so what is said of them at the end could be said before. -/
theorem DistinctImports.back (hdistinct : store'.DistinctImports)
    (hadvances : store.Advances store') : store.DistinctImports := by
  refine ⟨fun record hmem => ?_, hdistinct.spares.back hadvances⟩
  rcases hadvances.imports_back record hmem with hnone | ⟨record', hmem', hsame⟩
  · rw [hnone]
    exact List.nodup_nil
  · rw [← hsame]
    exact hdistinct.nodup record' hmem'

theorem Faithful.imported (hfaithful : store.Faithful) : store.Imported := by
  intro id ref record hregistered hmodern hlinked entry hentry
  obtain ⟨binding, hbinding, hsupplies⟩ :=
    hfaithful id ref record hregistered hmodern hlinked entry hentry
  exact ⟨binding, hbinding, entry, hentry, rfl, hsupplies⟩

/-- A name that only one import has is bound to what that import leads to. -/
theorem Imported.faithful (himported : store.Imported) (hdistinct : store.DistinctImports) :
    store.Faithful := by
  intro id ref record hregistered hmodern hlinked entry hentry
  obtain ⟨binding, hbinding, other, hother, hname, hsupplies⟩ :=
    himported id ref record hregistered hmodern hlinked entry hentry
  obtain rfl := List.inj_on_of_nodup_map (hdistinct.record hregistered.record) hother hentry hname
  exact ⟨binding, hbinding, hsupplies⟩

/-- What a ready module exports stays the same whatever becomes of the store. -/
theorem agreeOn_ready (hclosed : store.Closed) (hspares : store.SparesDefault)
    (hadvances : store.Advances store')
    (hlookup : ∀ id ref, store.lookup? id = some ref → store'.lookup? id = some ref) :
    AgreeOn store.Ready store store' where
  modules id hready := by
    obtain ⟨ref, record, hregistered, hanalyzed, hlinked⟩ := hready
    obtain ⟨record', hrecord', hrecord⟩ := hadvances.record ref record hregistered.record
    have hcoherent := hclosed.coherent ref record hregistered.record
    refine ⟨ref, record, record', hregistered,
      ⟨hlookup id ref hregistered.lookup, hrecord'⟩, hrecord.format, ?_, ?_⟩
    · rw [Record.exportEntries, hrecord.analyzed hanalyzed]
      rfl
    · intro hmodern name hname
      obtain ⟨cell, howns⟩ := hcoherent.owns (hspares.record hregistered.record) hmodern
        (hlinked hmodern) hname
      exact ⟨cell, howns, howns.advances hadvances hrecord (hlinked hmodern)⟩
  closed id ref record hready hregistered hmodern entry hentry source hsource := by
    obtain ⟨_, _, hfound, -, hlinked⟩ := hready
    obtain ⟨rfl, rfl⟩ := hregistered.unique hfound
    exact hclosed.ready id _ _ hregistered hmodern (hlinked hmodern) source
      ((hclosed.coherent _ _ hregistered.record).source_of_export hentry hsource)

section Linked

variable {order : List ModuleId} {id : ModuleId} {ref : RecordRef}

/-- A module that is registered after linking was so before, with the same record up to its status
and its environment, and so it is after the first pass. -/
theorem LinksAll.before (hlinks : LinksAll (store.pendingLinks order) store store')
    {record' : Record} (hregistered' : store'.Registered id ref record') :
    ∃ record status environment, store.Registered id ref record ∧
      ((store.pendingLinks order).foldl beginLink store).Registered id ref
        { record with status, environment } ∧
      record'.analysis? = record.analysis? ∧ record'.exports? = record.exports? := by
  have hbegun : Rebinds (store.pendingLinks order) store
      ((store.pendingLinks order).foldl beginLink store) :=
    .of_foldl rebinds_beginLink _ store
  have hlookup : store.lookup? id = some ref := by
    rw [← hlinks.rebinds.lookup, hregistered'.lookup]
  cases hrecord : store.record? ref with
  | none =>
      have hnone := hlinks.rebinds.none ref hrecord
      rw [hregistered'.record] at hnone
      cases hnone
  | some record =>
      obtain ⟨status', environment', hfound⟩ := hlinks.rebinds.record ref record hrecord
      obtain rfl := Option.some.inj (hfound.symm.trans hregistered'.record)
      obtain ⟨status, environment, hrecord'⟩ := hbegun.record ref record hrecord
      exact ⟨record, status, environment, ⟨hlookup, hrecord⟩,
        ⟨(hbegun.lookup id).trans hlookup, hrecord'⟩, rfl, rfl⟩

/-- After the first pass a module that will be ready owns what it exports of its own. -/
theorem LinksAll.owns (hlinks : LinksAll (store.pendingLinks order) store store')
    (hnodup : (store.pendingLinks order).Nodup)
    (hcoherent : ∀ ref record, store.record? ref = some record → store.Coherent record)
    (hspares : store.SparesDefault) {record begun record' : Record}
    (hrecord : store.record? ref = some record)
    (hbegun : ((store.pendingLinks order).foldl beginLink store).record? ref = some begun)
    (hrecord' : store'.record? ref = some record') (hmodern : record.format = .modern)
    (hlinked : record'.status.hasLinked = true) {name : String}
    (hname : OwnName record.exportEntries name) :
    ((store.pendingLinks order).foldl beginLink store).Owns begun name := by
  by_cases hpending : ref ∈ store.pendingLinks order
  · obtain ⟨found, hfound, hbegins⟩ := begun_record hnodup hpending hrecord
    obtain rfl := Option.some.inj (hfound.symm.trans hbegun)
    exact hbegins.owns name hname
  · -- the module was linked before, and the first pass leaves it alone
    have hkept : Rebinds (store.pendingLinks order) store
        ((store.pendingLinks order).foldl beginLink store) :=
      .of_foldl rebinds_beginLink _ store
    rw [hkept.other ref hpending, hrecord] at hbegun
    rw [hlinks.rebinds.other ref hpending, hrecord] at hrecord'
    obtain rfl := Option.some.inj hbegun
    obtain rfl := Option.some.inj hrecord'
    exact ((hcoherent ref record hrecord).owns (hspares.record hrecord) hmodern hlinked
      hname).rebinds hkept

/-- After the first pass the modules that will be ready offer what they export. -/
theorem LinksAll.offering (hlinks : LinksAll (store.pendingLinks order) store store')
    (hnodup : (store.pendingLinks order).Nodup)
    (hcoherent : ∀ ref record, store.record? ref = some record → store.Coherent record)
    (hspares : store.SparesDefault) (hclosed : store'.Closed) :
    Offering store'.Ready ((store.pendingLinks order).foldl beginLink store) where
  modules id hready := by
    obtain ⟨ref, record', hregistered', -⟩ := hready
    obtain ⟨_, _, _, -, hbegun, -⟩ := hlinks.before hregistered'
    exact ⟨ref, _, hbegun⟩
  closed id ref begun hready hbegun hmodern entry hentry source hsource := by
    obtain ⟨ref', record', hregistered', -, hlinked⟩ := hready
    obtain ⟨record, _, _, hregistered, hbegun', hanalysis, hexports⟩ := hlinks.before hregistered'
    obtain ⟨rfl, rfl⟩ := hbegun.unique hbegun'
    have hmodern' : record'.format = .modern := by
      rw [← hmodern, Record.format, hexports]
      rfl
    refine hclosed.ready id _ record' hregistered' hmodern' (hlinked hmodern') source ?_
    have hcoherent' := hclosed.coherent _ record' hregistered'.record
    refine hcoherent'.source_of_export ?_ hsource
    rw [Record.exportEntries, hanalysis]
    exact hentry
  owns id ref begun hready hbegun hmodern name hname := by
    obtain ⟨ref', record', hregistered', -, hlinked⟩ := hready
    obtain ⟨record, _, _, hregistered, hbegun', hanalysis, hexports⟩ := hlinks.before hregistered'
    obtain ⟨rfl, rfl⟩ := hbegun.unique hbegun'
    have hmodern' : record'.format = .modern := by
      rw [← hmodern, Record.format, hexports]
      rfl
    refine ⟨?_, ?_⟩
    · exact hlinks.owns hnodup hcoherent hspares hregistered.record hbegun.record
        hregistered'.record hmodern (hlinked hmodern') hname
    · exact (hcoherent _ record hregistered.record).apart (hspares.record hregistered.record) hname

/-- After the first pass the records taken can have their imports bound. -/
theorem LinksAll.linkable (hlinks : LinksAll (store.pendingLinks order) store store')
    (hnodup : (store.pendingLinks order).Nodup)
    (hcoherent : ∀ ref record, store.record? ref = some record → store.Coherent record)
    (hspares : store.SparesDefault) (hclosed : store'.Closed) :
    Linkable store'.Ready (store.pendingLinks order)
      ((store.pendingLinks order).foldl beginLink store) where
  offering := hlinks.offering hnodup hcoherent hspares hclosed
  taken ref hpending := by
    obtain ⟨id, -, record, hregistered, hmodern, -⟩ := mem_pendingLinks.mp hpending
    obtain ⟨begun, hbegun, ⟨environment, rfl⟩, -, honly⟩ :=
      begun_record hnodup hpending hregistered.record
    have hbefore := hcoherent ref record hregistered.record
    refine ⟨_, hbegun, fun entry (hentry : entry ∈ record.imports) => ⟨?_, ?_⟩⟩
    · obtain ⟨environment', hrecord', -⟩ := hlinks.linked ref hpending record hregistered.record
      have hlookup : store'.lookup? id = some ref := by
        rw [hlinks.rebinds.lookup, hregistered.lookup]
      exact hclosed.ready id ref _ ⟨hlookup, hrecord'⟩ hmodern rfl entry.source
        (hbefore.source_of_import hentry)
    · -- nothing is bound but local names that are exported, and no import has such a name
      by_contra hbound
      have hname := honly entry.as_ (Option.isSome_iff_ne_none.mpr hbound)
      exact hbefore.apart (hspares.record hregistered.record) hname entry hentry rfl

end Linked

end Store

namespace Change

variable {stage stage' : Stage} {marks : List Mark}

/-- Imported names go on to be bound to what they lead to, and are so bound when they are linked. -/
theorem imported (hchange : Change stage marks stage') (hliving : stage.Living)
    (hclosed : stage.store.Closed) (hspares : stage.store.SparesDefault)
    (himported : stage.store.Imported) : stage'.store.Imported := by
  intro id ref record' hregistered hmodern hlinked entry hentry
  obtain ⟨record, hbefore, hmodern', hadvances, hcases⟩ :=
    hchange.linked_back hliving hregistered hmodern hlinked
  -- an old binding leads where it led, since ready modules export the same; a new one was found in
  -- the store of the first pass, which exports the same as the store after linking
  rcases hcases with ⟨hlinked', hkept⟩ | ⟨order, hspans, hsame, hpending, hok, hlinks⟩
  · have hcoherent := hclosed.coherent ref record hbefore.record
    have himports : record'.imports = record.imports := by
      rw [Record.imports, hadvances.analyzed (hcoherent.linked hlinked').analyzed]
      rfl
    rw [himports] at hentry ⊢
    obtain ⟨binding, hbinding, hsupplies⟩ :=
      himported id ref record hbefore hmodern' hlinked' entry hentry
    refine ⟨binding, hadvances.bound hlinked' _ _ hbinding, ?_⟩
    have hagree := Store.agreeOn_ready hclosed hspares (hchange.advances hliving) hkept
    exact (hagree.importedAs (fun other hother => hclosed.ready id ref record hbefore hmodern'
      hlinked' other.source (hcoherent.source_of_import hother))).mpr hsupplies
  · have hnodup := Store.nodup_pendingLinks hliving.named hspans.nodup
    have hlinkable := hlinks.linkable hnodup hclosed.coherent hspares
      (hchange.closed hliving hclosed)
    rw [hsame] at hregistered ⊢
    exact Store.link_supplies hlinkable hok hpending hregistered.record hentry

end Change

namespace Chain

variable {stage stage' : Stage} {marks : List Mark}

/-- If no import has the local name of default exports in the end, imported names are bound to what
they lead to all the way. -/
theorem imported (hchain : Chain stage marks stage') (hliving : stage.Living)
    (hclosed : stage.store.Closed) (hspares : stage'.store.SparesDefault)
    (himported : stage.store.Imported) : stage'.store.Imported := by
  induction hchain with
  | refl => exact himported
  | tail hbefore hchange ih =>
      have hliving' := hbefore.living hliving
      -- the assumption speaks of the last store, and is carried back to each store before
      have hspares' := hspares.back (hchange.advances hliving')
      exact hchange.imported hliving' (hbefore.closed hliving hclosed) hspares' (ih hspares')

/-- If imports are distinct in the end, they are faithful. -/
theorem faithful (hchain : Chain stage marks stage') (hliving : stage.Living)
    (hclosed : stage.store.Closed) (hdistinct : stage'.store.DistinctImports)
    (hfaithful : stage.store.Faithful) : stage'.store.Faithful :=
  (hchain.imported hliving hclosed hdistinct.spares hfaithful.imported).faithful hdistinct

end Chain

namespace Store

/-- The error that spoils a cell, if the body of its owner has failed. -/
def spoilt? (store : Store) (cell : CellRef) : Option ModuleError :=
  (((store.cell? cell).map (·.record)).bind store.record?).bind (·.poison?)

variable {store : Store}

/-- What is written to a cell is read there, unless the owner has failed. -/
theorem readCell_writeCell {cell : CellRef} {found : Cell} (hfound : store.cell? cell = some found)
    (value : Value) : (store.writeCell cell value).readCell cell =
      match store.spoilt? cell with
        | some error => .error error
        | none => .ok value := by
  have hspoilt : store.spoilt? cell = (store.record? found.record).bind (·.poison?) := by
    rw [spoilt?, hfound]
    rfl
  unfold readCell
  rw [cell?_writeCell, if_pos rfl, hfound, hspoilt]
  show (match (store.record? found.record).bind (·.poison?) with
    | some error => .error error
    | none => .ok value : Except ModuleError Value) = _
  cases (store.record? found.record).bind (·.poison?) <;> rfl

/-- A read through a namespace that is attached reads the slot that the name leads to. -/
theorem readName_of_found {found : Namespace} {name : String} {binding : Binding}
    (hattached : store.isAttached found = true)
    (hresolved : store.resolveExport found.id name = .found binding) :
    store.readName found name = store.read binding found.requester? := by
  rw [readName, hattached, hresolved]
  rfl

/-- A slot that a module may write is a cell, and holds what is written to it. -/
theorem access_write_binding {owner : RecordRef} {name : String} {value : Value}
    {binding : Binding} {written : Store} (hbound : store.binding? owner name = some binding)
    (hwritten : store.access (Scope.write owner name value) = (.ok ⟨⟩, written)) :
    ∃ cell found, binding = .cell cell ∧ store.cell? cell = some found ∧
      written = store.writeCell cell value := by
  rw [Scope.access_write, hbound] at hwritten
  cases binding with
  | star id => cases hwritten
  | exports record property? => cases hwritten
  | cell cell =>
      dsimp only at hwritten
      split at hwritten
      · rename_i howner
        obtain ⟨found, hfound, -⟩ := Option.map_eq_some_iff.mp howner
        exact ⟨cell, found, rfl, hfound, (Prod.mk.inj hwritten).2.symm⟩
      · cases hwritten

/-- An import of a module refers to the slot that an exported name leads to: reading the import and
reading the name through a namespace are the same, and what the owner writes is read. -/
structure Follows (store : Store) (id : ModuleId) (ref : RecordRef) (entry : ImportEntry)
    (name : String) (binding : Binding) : Prop where
  bound : store.binding? ref entry.as_ = some binding
  resolved : store.resolveExport entry.source name = .found binding
  space : ∃ found, (store.namespace_ entry.source (some id)).1 = .ok found ∧
    found.id = entry.source ∧ found.requester? = some id ∧
    (store.namespace_ entry.source (some id)).2.isAttached found = true
  read : ∀ found : Namespace, found.id = entry.source → found.requester? = some id →
    store.isAttached found = true →
      store.access (Scope.read ref entry.as_) = store.readName found name
  write : ∀ owner localName value written, store.binding? owner localName = some binding →
    store.access (Scope.write owner localName value) = (.ok ⟨⟩, written) →
      ∃ cell, binding = .cell cell ∧
        (written.access (Scope.read ref entry.as_)).1 = match store.spoilt? cell with
          | some error => .error error
          | none => .ok value

theorem follows_of_supplies (hclosed : store.Closed) (hnamed : store.Named)
    (hcurrent : store.Current) {id : ModuleId} {ref : RecordRef} {record : Record}
    (hregistered : store.Registered id ref record) (hmodern : record.format = .modern)
    (hlinked : record.status.hasLinked = true) {entry : ImportEntry}
    (hentry : entry ∈ record.imports) {name : String} {binding : Binding}
    (hbinding : record.environment.find? entry.as_ = some binding)
    (hresolved : store.resolveExport entry.source name = .found binding) :
    store.Follows id ref entry name binding := by
  have hbound : store.binding? ref entry.as_ = some binding := by
    rw [binding?, hregistered.record]
    exact hbinding
  have hid : record.id = id := by
    obtain ⟨found, hfound, hid⟩ := hnamed id ref hregistered.lookup
    rw [← hid, Option.some.inj (hfound.symm.trans hregistered.record)]
  refine ⟨hbound, hresolved, ?_, ?_, ?_⟩
  · obtain ⟨_, _, hsource, -⟩ := hclosed.ready id ref record hregistered hmodern hlinked _
      ((hclosed.coherent ref record hregistered.record).source_of_import hentry)
    exact namespace_of_registered hcurrent hnamed hsource (some id)
  · intro found hfound hrequester hattached
    rw [Scope.access_read ref hregistered.record hbound,
      readName_of_found hattached (hfound ▸ hresolved), hrequester, hid]
  · intro owner localName value written howner hwritten
    obtain ⟨cell, found, rfl, hfound, rfl⟩ := access_write_binding howner hwritten
    refine ⟨cell, rfl, ?_⟩
    have hread : (store.writeCell cell value).access (Scope.read ref entry.as_) =
        (store.writeCell cell value).read (.cell cell) (some record.id) :=
      Scope.access_read ref hregistered.record hbound
    rw [hread]
    exact readCell_writeCell hfound value

end Store

namespace Machine

/-- **In every run, once a module is linked and as long as modules are not forgotten, each of its
imports is the slot that the exported name leads to.** -/
theorem linked_imports_follow_exports (place : Place) (config : Config) (acts more : List Act)
    (hreset : .reset ∉ ((new place config).perform acts).log more)
    (hdistinct : ((new place config).perform (acts ++ more)).session.store.DistinctImports) :
    let before := ((new place config).perform acts).session.store
    let after := ((new place config).perform (acts ++ more)).session.store
    ∀ id ref record, before.Registered id ref record → record.format = .modern →
      record.status.hasLinked = true →
      (∃ record', after.Registered id ref record' ∧ record'.imports = record.imports ∧
        record'.status.hasLinked = true) ∧
      ∀ entry ∈ record.imports, ∀ name, entry.imported = .name name →
        ∃ binding, after.Follows id ref entry name binding := by
  intro before after id ref record hregistered hmodern hlinked
  have hliving := living_perform place config acts
  have hchain := ((new place config).perform acts).chain_perform more
  rw [← perform_append] at hchain
  have hliving' : ((new place config).perform (acts ++ more)).stage.Living := hchain.living hliving
  have hclosed : before.Closed := closed_perform place config acts
  have hclosed' : after.Closed := closed_perform place config (acts ++ more)
  -- no imports are unfaithful in the empty store, and no namespace is cached there
  have hfaithful : after.Faithful := by
    refine (chain_perform _ (acts ++ more)).faithful (living_new place config)
      (closed_perform place config []) hdistinct ?_
    intro id ref record hregistered
    cases hregistered.record
  have hcurrent : after.Current := by
    refine (chain_perform _ (acts ++ more)).current (living_new place config) ⟨rfl, ?_⟩
    intro cached hmem
    cases hmem
  obtain ⟨record', hrecord', hadvances⟩ :=
    (hchain.advances hliving).record ref record hregistered.record
  have hregistered' : after.Registered id ref record' :=
    ⟨hchain.lookup hreset hregistered.lookup, hrecord'⟩
  have himports : record'.imports = record.imports := by
    rw [Record.imports, hadvances.analyzed
      ((hclosed.coherent ref record hregistered.record).linked hlinked).analyzed]
    rfl
  have hmodern' : record'.format = .modern := hadvances.format.trans hmodern
  have hlinked' := hadvances.linked hlinked
  refine ⟨⟨record', hregistered', himports, hlinked'⟩, fun entry hentry name hname => ?_⟩
  rw [← himports] at hentry
  obtain ⟨binding, hbinding, hsupplies⟩ :=
    hfaithful id ref record' hregistered' hmodern' hlinked' entry hentry
  rw [Store.Supplies, hname] at hsupplies
  exact ⟨binding, Store.follows_of_supplies hclosed' hliving'.named hcurrent hregistered' hmodern'
    hlinked' hentry hbinding hsupplies⟩

/-- The bodies of the circle run to their end. -/
def circleEnded : List Act := [.step, .step, .step, .step, .step]

theorem linked_imports_follow_exports_circle :
    let final := (new (.shelf circle) .standard).perform (circleBegun ++ circleEnded)
    let store := final.session.store
    store.DistinctImports ∧ ∃ ref binding, store.Follows (.ofPath "/left.mjs") ref
      ⟨.ofPath "/right.mjs", .name "y", "y"⟩ "y" binding := by
  intro final store
  have hdistinct : store.DistinctImports := by
    refine ⟨?_, ?_⟩
    · decide +kernel
    · unfold Store.SparesDefault
      decide +kernel
  refine ⟨hdistinct, ?_⟩
  have hreset : .reset ∉ ((new (.shelf circle) .standard).perform circleBegun).log circleEnded := by
    decide +kernel
  have hfacts : (((new (.shelf circle) .standard).perform circleBegun).session.store.find?
      (.ofPath "/left.mjs")).map (fun record => (record.format, record.status, record.imports)) =
      some (.modern, .linked, [⟨.ofPath "/right.mjs", .name "y", "y"⟩,
        ⟨.ofPath "/old.cjs", .name "default", "old"⟩]) := by decide +kernel
  obtain ⟨record, hfind, hfields⟩ := Option.map_eq_some_iff.mp hfacts
  obtain ⟨hmodern, hlinked, himports⟩ := by simpa using hfields
  obtain ⟨ref, hregistered⟩ := Store.exists_registered_of_find hfind
  have himport : ⟨.ofPath "/right.mjs", .name "y", "y"⟩ ∈ record.imports := by
    rw [himports]
    exact List.mem_cons_self
  obtain ⟨-, hfollows⟩ := linked_imports_follow_exports (.shelf circle) .standard circleBegun
    circleEnded hreset hdistinct _ ref record hregistered hmodern (by rw [hlinked]; rfl)
  exact ⟨ref, hfollows _ himport "y" rfl⟩

end Machine

end Linkage
