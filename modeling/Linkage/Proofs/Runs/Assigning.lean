import Linkage.Proofs.Linking.Supplying
import Linkage.Proofs.Runs.Cells
import Linkage.Proofs.Runs.Closure
import Linkage.Proofs.Store.Access

/-!
# Which imports a module can assign

A module may write the cells it owns, whatever they are called.  An import refers to a cell of the
module itself exactly if what it names is declared there, for instance when a module imports from
itself, or from a module that re-exports from it; every other import is refused.

* `Store.LeadsBack` : an import names what the module declares itself.
* `Store.Guarded` : the invariant.
* `Machine.imports_that_lead_away_are_refused` : every run.
-/

namespace Linkage

namespace Store

/-- A request for a name under which a module exports a local name of its own. -/
def Declares (store : Store) (request : Request) : Prop :=
  ∃ ref record as_ localName, store.Registered request.1 ref record ∧ record.format = .modern ∧
    IsExplicit record.exportEntries request.2 (.own as_ localName)

/-- What an import names is a local name that this module declares. -/
def LeadsBack (store : Store) (id : ModuleId) (entry : ImportEntry) : Prop :=
  ∃ name own, entry.imported = .name name ∧
    Relation.ReflTransGen store.ExportStep (entry.source, name) (id, own) ∧
    store.Declares (id, own)

/-- The declarations that have been read are those read before. -/
def KeepsDeclarations (store store' : Store) : Prop :=
  ∀ id ref record, store.Registered id ref record → record.analysis?.isSome →
    ∃ record', store'.Registered id ref record' ∧ record'.format = record.format ∧
      record'.analysis? = record.analysis?

variable {store store' : Store}

theorem Rebinds.keepsDeclarations {refs : List RecordRef} (hrebinds : Rebinds refs store store') :
    store.KeepsDeclarations store' := by
  intro id ref record hregistered _
  obtain ⟨status, environment, hrecord'⟩ := hrebinds.record ref record hregistered.record
  exact ⟨_, ⟨(hrebinds.lookup id).trans hregistered.lookup, hrecord'⟩, rfl, rfl⟩

theorem Advances.keepsDeclarations (hadvances : store.Advances store')
    (hlookup : ∀ id ref, store.lookup? id = some ref → store'.lookup? id = some ref) :
    store.KeepsDeclarations store' := by
  intro id ref record hregistered hanalyzed
  obtain ⟨record', hrecord', hrecord⟩ := hadvances.record ref record hregistered.record
  exact ⟨record', ⟨hlookup id ref hregistered.lookup, hrecord'⟩, hrecord.format,
    hrecord.analyzed hanalyzed⟩

/-- A module that exports something has been analyzed. -/
theorem analyzed_of_mem_exportEntries {record : Record} {entry : ExportEntry}
    (hentry : entry ∈ record.exportEntries) : record.analysis?.isSome := by
  unfold Record.exportEntries at hentry
  cases hanalysis : record.analysis? with
  | none =>
      rw [hanalysis] at hentry
      cases hentry
  | some analysis => rfl

namespace KeepsDeclarations

variable (hkeeps : store.KeepsDeclarations store')
include hkeeps

theorem registered {id : ModuleId} {ref : RecordRef} {record : Record} {entry : ExportEntry}
    (hregistered : store.Registered id ref record) (hentry : entry ∈ record.exportEntries) :
    ∃ record', store'.Registered id ref record' ∧ record'.format = record.format ∧
      record'.exportEntries = record.exportEntries := by
  obtain ⟨record', hregistered', hformat, hanalysis⟩ :=
    hkeeps id ref record hregistered (analyzed_of_mem_exportEntries hentry)
  exact ⟨record', hregistered', hformat, by rw [Record.exportEntries, hanalysis]; rfl⟩

theorem exportStep {request next : Request} (hstep : store.ExportStep request next) :
    store'.ExportStep request next := by
  cases hstep with
  | indirect hregistered hmodern hentry =>
      obtain ⟨record', hregistered', hformat, hentries⟩ :=
        hkeeps.registered hregistered hentry.mem
      exact .indirect hregistered' (hformat.trans hmodern) (hentries ▸ hentry)
  | star hregistered hmodern hnone hname hsource =>
      obtain ⟨record', hregistered', hformat, hentries⟩ := hkeeps.registered hregistered hsource
      exact .star hregistered' (hformat.trans hmodern) (hentries ▸ hnone) hname
        (hentries ▸ hsource)

theorem declares {request : Request} (hdeclares : store.Declares request) :
    store'.Declares request := by
  obtain ⟨ref, record, as_, localName, hregistered, hmodern, hentry⟩ := hdeclares
  obtain ⟨record', hregistered', hformat, hentries⟩ := hkeeps.registered hregistered hentry.mem
  exact ⟨ref, record', as_, localName, hregistered', hformat.trans hmodern, hentries ▸ hentry⟩

theorem leadsBack {id : ModuleId} {entry : ImportEntry} (hback : store.LeadsBack id entry) :
    store'.LeadsBack id entry := by
  obtain ⟨name, own, hname, hpath, hdeclares⟩ := hback
  exact ⟨name, own, hname, Relation.ReflTransGen.mono (fun _ _ => hkeeps.exportStep) _ _ hpath,
    hkeeps.declares hdeclares⟩

end KeepsDeclarations

/-- A cell that an import is found to lead to belongs to the module that declares it. -/
theorem Supplies.leadsBack (hnamed : store.Named) {entry : ImportEntry} {cell : CellRef}
    (hsupplies : store.Supplies entry (.cell cell)) :
    ∃ found, store.cell? cell = some found ∧ store.LeadsBack found.owner entry := by
  unfold Supplies at hsupplies
  cases himported : entry.imported with
  | star =>
      rw [himported] at hsupplies
      cases hsupplies
  | name name =>
      rw [himported] at hsupplies
      obtain ⟨⟨last, hpath, hend⟩, -⟩ := resolveExport_eq_found_iff.mp hsupplies
      cases hend with
      | own hregistered hmodern hentry hcell =>
          rename_i id own as_ localName ref record
          obtain ⟨-, found, hfound, howner⟩ := hcell
          obtain ⟨record', hrecord', rfl⟩ := hnamed id ref hregistered.lookup
          obtain rfl := Option.some.inj (hrecord'.symm.trans hregistered.record)
          refine ⟨found, hfound, name, own, himported, ?_, ?_⟩
          · rw [howner]
            exact hpath
          · rw [howner]
            exact ⟨ref, _, as_, localName, hregistered, hmodern, hentry⟩

/-- What a local name of a module is bound to is no cell of the module itself, unless an import of
that name leads back to it. -/
structure Guards (store : Store) (id : ModuleId) (record : Record) (name : String)
    (binding : Binding) : Prop where
  bound : record.environment.find? name = some binding
  apart : ∀ cell, binding = .cell cell → ∃ found, store.cell? cell = some found ∧
    (found.owner = id → ∃ entry ∈ record.imports, entry.as_ = name ∧ store.LeadsBack id entry)

/-- The imports of every linked module are guarded. -/
def Guarded (store : Store) : Prop :=
  ∀ id ref record, store.Registered id ref record → record.format = .modern →
    record.status.hasLinked = true → ∀ entry ∈ record.imports, ∃ binding,
      store.Guards id record entry.as_ binding

/-- A binding that is guarded stays so as long as modules are not forgotten. -/
theorem Guards.advances {id : ModuleId} {record record' : Record} {name : String}
    {binding : Binding} (hguards : store.Guards id record name binding)
    (hlinked : record.status.hasLinked = true) (himports : record'.imports = record.imports)
    (hrecord : record.Advances record') (hadvances : store.Advances store')
    (hlookup : ∀ id ref, store.lookup? id = some ref → store'.lookup? id = some ref) :
    store'.Guards id record' name binding := by
  refine ⟨hrecord.bound hlinked name binding hguards.bound, fun cell hcell => ?_⟩
  obtain ⟨found, hfound, hback⟩ := hguards.apart cell hcell
  obtain ⟨value?, hfound'⟩ := hadvances.cell cell found hfound
  refine ⟨_, hfound', fun howner => ?_⟩
  obtain ⟨entry, hentry, hname, hleads⟩ := hback howner
  exact ⟨entry, himports ▸ hentry, hname, (hadvances.keepsDeclarations hlookup).leadsBack hleads⟩

/-- After linking, the imports of every record taken are guarded: each is bound to what an import of
its name was found to lead to. -/
theorem guards_link {order : List ModuleId} (hnamed : store.Named)
    (hnodup : (store.pendingLinks order).Nodup) (hok : (store.link order).1 = .ok ())
    {ref : RecordRef} (hpending : ref ∈ store.pendingLinks order) {id : ModuleId}
    {record' : Record} (hregistered' : (store.link order).2.Registered id ref record')
    {entry : ImportEntry} (hentry : entry ∈ record'.imports) :
    ∃ binding, (store.link order).2.Guards id record' entry.as_ binding := by
  obtain ⟨bound, hbinds, hall, hend, -⟩ := link_ok_bindsOnly hok
  have hfirst : Rebinds (store.pendingLinks order) store
      ((store.pendingLinks order).foldl beginLink store) :=
    .of_foldl rebinds_beginLink _ store
  have hlast : Rebinds (store.pendingLinks order) bound (store.link order).2 := by
    rw [hend]
    exact .of_foldl (fun store ref => rebinds_setStatus store ref .linked) _ bound
  obtain ⟨_, -, record, hregistered, -⟩ := mem_pendingLinks.mp hpending
  obtain ⟨begun, hbegun, ⟨environment, rfl⟩, -⟩ := begun_record hnodup hpending hregistered.record
  obtain ⟨environment', hbound, -⟩ := Binds.record_all hbinds hbegun
  have hfinal : (store.link order).2.record? ref =
      some { record with status := .linked, environment := environment' } := by
    rw [hend]
    unfold setStatus
    rw [record?_foldl_modify (fun record => { record with status := .linked }) (fun _ => rfl),
      if_pos hpending, hbound]
    rfl
  obtain rfl := Option.some.inj (hfinal.symm.trans hregistered'.record)
  obtain ⟨middle, between, other, binding, hbefore, hbehind, hbetween, hother, hname, hsupplies,
    hbinding⟩ := hall ref hpending _ hbegun entry hentry
  obtain ⟨_, hbetween', -⟩ := Binds.record_all hbefore hbegun
  obtain rfl := Option.some.inj (hbetween'.symm.trans hbetween)
  rw [binding?, hbound] at hbinding
  refine ⟨binding, hbinding, fun cell hcell => ?_⟩
  -- where the import led when it was resolved it leads still
  subst hcell
  have hrest := (Binds.rebinds_all hbehind).trans hlast
  obtain ⟨found, hfound, hback⟩ :=
    hsupplies.leadsBack (hnamed.rebinds (hfirst.trans (Binds.rebinds_all hbefore)))
  refine ⟨found, hrest.cell cell found hfound, ?_⟩
  rintro rfl
  exact ⟨other, hother, hname, hrest.keepsDeclarations.leadsBack hback⟩

end Store

namespace Change

variable {stage stage' : Stage} {marks : List Mark}

/-- The imports of linked modules stay guarded, and are so when they are linked. -/
theorem guarded (hchange : Change stage marks stage') (hliving : stage.Living)
    (hclosed : stage.store.Closed) (hguarded : stage.store.Guarded) : stage'.store.Guarded := by
  intro id ref record' hregistered hmodern hlinked entry hentry
  obtain ⟨record, hbefore, hmodern', hrecord, hcases⟩ :=
    hchange.linked_back hliving hregistered hmodern hlinked
  rcases hcases with ⟨hlinked', hkept⟩ | ⟨order, hspans, hsame, hpending, hok, -⟩
  · have hbound := (hclosed.coherent ref record hbefore.record).linked hlinked'
    have himports : record'.imports = record.imports := by
      rw [Record.imports, hrecord.analyzed hbound.analyzed]
      rfl
    obtain ⟨binding, hguards⟩ :=
      hguarded id ref record hbefore hmodern' hlinked' entry (himports ▸ hentry)
    exact ⟨binding, hguards.advances hlinked' himports hrecord (hchange.advances hliving) hkept⟩
  · have hnodup := Store.nodup_pendingLinks hliving.named hspans.nodup
    rw [hsame] at hregistered ⊢
    exact Store.guards_link hliving.named hnodup hok hpending hregistered hentry

end Change

theorem Chain.guarded {stage stage' : Stage} {marks : List Mark}
    (hchain : Chain stage marks stage') (hliving : stage.Living) (hclosed : stage.store.Closed)
    (hguarded : stage.store.Guarded) : stage'.store.Guarded := by
  induction hchain with
  | refl => exact hguarded
  | tail hbefore hchange ih =>
      exact hchange.guarded (hbefore.living hliving) (hbefore.closed hliving hclosed) ih

/-- In every reachable state the imports of linked modules are guarded. -/
theorem Machine.guarded_perform (place : Place) (config : Config) (acts : List Act) :
    ((new place config).perform acts).session.store.Guarded := by
  refine (chain_perform _ acts).guarded (living_new place config) (closed_perform place config [])
    (fun id ref record hregistered => ?_)
  cases hregistered.record

namespace Store

variable {store : Store}

/-- A name of a record is bound, and not to a cell that its module owns. -/
structure Foreign (store : Store) (id : ModuleId) (ref : RecordRef) (name : String)
    (binding : Binding) : Prop where
  record : ∃ record, store.record? ref = some record ∧ record.id = id ∧
    record.status.hasLinked = true ∧ record.environment.find? name = some binding
  owner : ∀ cell, binding = .cell cell → ∃ found, store.cell? cell = some found ∧ found.owner ≠ id

namespace Foreign

variable {id : ModuleId} {ref : RecordRef} {name : String} {binding : Binding}

/-- Bindings of a linked module stay, and cells keep their owners, even when modules are
forgotten. -/
theorem advances (hforeign : store.Foreign id ref name binding) {store' : Store}
    (hadvances : store.Advances store') : store'.Foreign id ref name binding := by
  obtain ⟨⟨record, hrecord, hid, hlinked, hbound⟩, howner⟩ := hforeign
  obtain ⟨record', hrecord', hrecords⟩ := hadvances.record ref record hrecord
  refine ⟨⟨record', hrecord', hrecords.id.trans hid, hrecords.linked hlinked,
    hrecords.bound hlinked name binding hbound⟩, fun cell hcell => ?_⟩
  obtain ⟨found, hfound, hne⟩ := howner cell hcell
  obtain ⟨value?, hfound'⟩ := hadvances.cell cell found hfound
  exact ⟨_, hfound', hne⟩

theorem not_owned (hforeign : store.Foreign id ref name binding) {cell : CellRef}
    (hcell : binding = .cell cell) : (store.cell? cell).map (·.owner) ≠ some id := by
  obtain ⟨found, hfound, hne⟩ := hforeign.owner cell hcell
  rw [hfound]
  exact fun heq => hne (Option.some.inj heq)

/-- Writing the name is refused and changes nothing. -/
theorem write (hforeign : store.Foreign id ref name binding) (value : Value) :
    store.access (Scope.write ref name value) = (.error (.immutableBinding id name), store) := by
  obtain ⟨record, hrecord, hid, -, hbound⟩ := hforeign.record
  have hbinding : store.binding? ref name = some binding := by
    rw [binding?, hrecord]
    exact hbound
  have hown : ((store.record? ref).map (·.id)).getD default = id := by
    rw [hrecord]
    exact hid
  rw [Scope.access_write, hbinding, hown]
  cases binding with
  | cell cell => exact if_neg (hforeign.not_owned rfl)
  | star source => rfl
  | exports source property? => rfl

/-- What is kept of the name is the binding itself. -/
theorem capture (hforeign : store.Foreign id ref name binding) :
    store.access (Scope.capture ref name) = (.ok ⟨binding, id⟩, store) := by
  obtain ⟨record, hrecord, hid, -, hbound⟩ := hforeign.record
  have hbinding : store.binding? ref name = some binding := by
    rw [binding?, hrecord]
    exact hbound
  unfold Scope.capture
  rw [access_bind, Scope.access_lookup, hbinding]
  dsimp only
  rw [access_bind, Scope.access_idOf, hrecord, ← hid]
  rfl

/-- Writing what was kept of the name is refused and changes nothing. -/
theorem write_live (hforeign : store.Foreign id ref name binding) (value : Value) :
    store.access (LiveBinding.write ⟨binding, id⟩ value) =
      (.error (.immutableBinding id (LiveBinding.nameIn ⟨binding, id⟩ store)), store) := by
  unfold LiveBinding.write
  rw [access_bind, access_get]
  cases binding with
  | cell cell =>
      dsimp only
      rw [if_neg (hforeign.not_owned rfl)]
      rfl
  | star source => rfl
  | exports source property? => rfl

end Foreign

/-- An import that leads away from its module is bound to nothing the module owns. -/
theorem Guards.foreign (hnamed : store.Named) {id : ModuleId} {ref : RecordRef} {record : Record}
    (hregistered : store.Registered id ref record) (hlinked : record.status.hasLinked = true)
    {name : String} {binding : Binding} (hguards : store.Guards id record name binding)
    (haway : ∀ entry ∈ record.imports, entry.as_ = name → ¬ store.LeadsBack id entry) :
    store.Foreign id ref name binding := by
  obtain ⟨found, hfound, hid⟩ := hnamed id ref hregistered.lookup
  obtain rfl := Option.some.inj (hfound.symm.trans hregistered.record)
  refine ⟨⟨found, hfound, hid, hlinked, hguards.bound⟩, fun cell hcell => ?_⟩
  obtain ⟨slot, hslot, hback⟩ := hguards.apart cell hcell
  refine ⟨slot, hslot, fun howner => ?_⟩
  obtain ⟨entry, hentry, hname, hleads⟩ := hback howner
  exact haway entry hentry hname hleads

end Store

namespace Machine

/-- **In every run, once a module is linked, none of its imports can be assigned unless one of that
name leads back to what the module declares itself**: neither by the body, nor through what the body
has kept of the import, at any time afterwards. -/
theorem imports_that_lead_away_are_refused (place : Place) (config : Config)
    (acts more rest : List Act) :
    let before := ((new place config).perform acts).session.store
    let after := ((new place config).perform (acts ++ more)).session.store
    let later := ((new place config).perform (acts ++ more ++ rest)).session.store
    ∀ id ref record, before.Registered id ref record → record.format = .modern →
      record.status.hasLinked = true → ∀ entry ∈ record.imports,
      (∀ other ∈ record.imports, other.as_ = entry.as_ → ¬ before.LeadsBack id other) →
      ∀ value,
        after.access (Scope.write ref entry.as_ value) =
            (.error (.immutableBinding id entry.as_), after) ∧
        ∃ live, after.access (Scope.capture ref entry.as_) = (.ok live, after) ∧
          later.access (live.write value) =
            (.error (.immutableBinding id (live.nameIn later)), later) := by
  intro before after later id ref record hregistered hmodern hlinked entry hentry haway value
  have hliving := living_perform place config acts
  have hliving' := living_perform place config (acts ++ more)
  have hmore := ((new place config).perform acts).chain_perform more
  have hrest := ((new place config).perform (acts ++ more)).chain_perform rest
  rw [← perform_append] at hmore hrest
  obtain ⟨binding, hguards⟩ :=
    guarded_perform place config acts id ref record hregistered hmodern hlinked entry hentry
  have hforeign := hguards.foreign hliving.named hregistered hlinked haway
  have hafter := hforeign.advances (hmore.advances hliving)
  have hlater := hafter.advances (hrest.advances hliving')
  exact ⟨hafter.write value, ⟨binding, id⟩, hafter.capture, hlater.write_live value⟩

/-- In the circle the module on the left cannot assign what it imports from the one on the right. -/
theorem imports_that_lead_away_are_refused_circle :
    let after := ((new (.shelf circle) .standard).perform (circleBegun ++ [.step])).session.store
    let later := ((new (.shelf circle) .standard).perform
      (circleBegun ++ [.step] ++ [.step, .step])).session.store
    ∃ ref, ∀ value,
      after.access (Scope.write ref "y" value) =
          (.error (.immutableBinding (.ofPath "/left.mjs") "y"), after) ∧
      ∃ live, after.access (Scope.capture ref "y") = (.ok live, after) ∧
        later.access (live.write value) =
          (.error (.immutableBinding (.ofPath "/left.mjs") (live.nameIn later)), later) := by
  let before := ((new (.shelf circle) .standard).perform circleBegun).session.store
  have hleft : (before.find? (.ofPath "/left.mjs")).map (fun record =>
      (record.format, record.status, record.imports)) =
      some (.modern, .linked, [⟨.ofPath "/right.mjs", .name "y", "y"⟩,
        ⟨.ofPath "/old.cjs", .name "default", "old"⟩]) := by decide +kernel
  have hright : (before.find? (.ofPath "/right.mjs")).map (fun record =>
      (record.format, record.exportEntries)) = some (.modern, [.own "y" "y"]) := by decide +kernel
  obtain ⟨record, hfind, hfields⟩ := Option.map_eq_some_iff.mp hleft
  obtain ⟨hmodern, hlinked, himports⟩ := by simpa using hfields
  obtain ⟨ref, hregistered⟩ := Store.exists_registered_of_find hfind
  obtain ⟨source, hfind', hfields'⟩ := Option.map_eq_some_iff.mp hright
  obtain ⟨hmodern', hexports⟩ := Prod.mk.inj hfields'
  obtain ⟨sourceRef, hregistered'⟩ := Store.exists_registered_of_find hfind'
  have hexplicit : IsExplicit source.exportEntries "y" (.own "y" "y") := by
    rw [hexports]
    exact explicitExport?_eq_some_iff.mp rfl
  -- the name is declared by the module asked, so there is no further step
  have haway : ∀ other ∈ record.imports, other.as_ = "y" →
      ¬ before.LeadsBack (.ofPath "/left.mjs") other := by
    rintro other hother hname ⟨name, own, himported, hpath, -⟩
    rw [himports] at hother
    rcases List.mem_cons.mp hother with rfl | hother
    · obtain rfl : "y" = name := ImportName.name.inj himported
      rcases hpath.cases_head with heq | ⟨next, hstep, -⟩
      · have hne : ModuleId.ofPath "/right.mjs" ≠ .ofPath "/left.mjs" := by decide +kernel
        exact hne (Prod.mk.inj heq).1
      · obtain ⟨_, hnone⟩ :=
          (Store.exportStep_of_explicit hregistered' hmodern' hexplicit next).mp hstep
        cases hnone
    · obtain rfl := List.mem_singleton.mp hother
      exact absurd hname (by decide)
  have himport : ⟨.ofPath "/right.mjs", .name "y", "y"⟩ ∈ record.imports := by
    rw [himports]
    exact List.mem_cons_self
  have hlinked' : record.status.hasLinked = true := by
    rw [hlinked]
    rfl
  have hrefused := imports_that_lead_away_are_refused (.shelf circle) .standard circleBegun [.step]
    [.step, .step] (.ofPath "/left.mjs") ref record hregistered hmodern hlinked'
    ⟨.ofPath "/right.mjs", .name "y", "y"⟩ himport haway
  exact ⟨ref, hrefused⟩

/-- A module that imports, under another name, what it exports itself. -/
def mirror : Shelf :=
  Shelf.empty.insert "/m.mjs" (((Source.ofBody [.statement (.set "y" .null)]).importNamed "/m.mjs"
    "x" "y").exportLocal "x")

/-- Its body runs. -/
def mirrorBegun : List Act := [.call (.evaluate "/m.mjs" none) none, .step, .step]

/-- **An import can be assigned.**  The module declares what it imports, so while its body runs it
may write the import, and whoever keeps the import for it may do so too. -/
theorem own_exports_are_assigned :
    let store := ((new (.shelf mirror) .standard).perform mirrorBegun).session.store
    ∃ ref record entry, store.Registered (.ofPath "/m.mjs") ref record ∧
      record.format = .modern ∧ record.status = .evaluating ∧ entry ∈ record.imports ∧
      ∀ value, (store.access (Scope.write ref entry.as_ value)).1 = .ok ⟨⟩ ∧
        ∃ live, store.access (Scope.capture ref entry.as_) = (.ok live, store) ∧
          (store.access (live.write value)).1 = .ok ⟨⟩ := by
  intro store
  have hfacts : (store.find? (.ofPath "/m.mjs")).map (fun record =>
      (record.format, record.status, record.imports, record.id)) =
      some (.modern, .evaluating, [⟨.ofPath "/m.mjs", .name "x", "y"⟩], .ofPath "/m.mjs") := by
    decide +kernel
  have hcell : (store.lookup? (.ofPath "/m.mjs")).map (fun ref => store.binding? ref "y") =
      some (some (.cell ⟨0⟩)) := by decide +kernel
  have howner : (store.cell? ⟨0⟩).map (·.owner) = some (.ofPath "/m.mjs") := by decide +kernel
  obtain ⟨record, hfind, hfields⟩ := Option.map_eq_some_iff.mp hfacts
  obtain ⟨hmodern, hstatus, himports, hid⟩ := by simpa using hfields
  obtain ⟨ref, hregistered⟩ := Store.exists_registered_of_find hfind
  rw [hregistered.lookup, Option.map_some, Option.some.injEq] at hcell
  have hown : ((store.record? ref).map (·.id)).getD default = .ofPath "/m.mjs" := by
    rw [hregistered.record]
    exact hid
  refine ⟨ref, record, ⟨.ofPath "/m.mjs", .name "x", "y"⟩, hregistered, hmodern, hstatus, ?_,
    fun value => ⟨?_, ⟨.cell ⟨0⟩, .ofPath "/m.mjs"⟩, ?_, ?_⟩⟩
  · rw [himports]
    exact List.mem_cons_self
  · rw [Scope.access_write, hcell, hown]
    dsimp only
    rw [if_pos howner]
  · unfold Scope.capture
    rw [Store.access_bind, Scope.access_lookup, hcell]
    dsimp only
    rw [Store.access_bind, Scope.access_idOf, hown]
    rfl
  · unfold LiveBinding.write
    rw [Store.access_bind, Store.access_get]
    dsimp only
    rw [if_pos howner]
    rfl

end Machine

end Linkage
