import Linkage.Proofs.Exports.Search
import Linkage.Proofs.Linking.Passes
import Linkage.Proofs.Store.Touch

/-!
# Imports follow exports

What a public name leads to depends only on the modules that the request comes to.  If two stores
agree on the modules of a region, and these re-export only from modules of the region, every request
to one of them is answered alike in both.

The second pass of linking resolves one import after the other, each in a store in which some
imports are bound already.  Binding an import changes no exported name as long as no module exports
a name it imports, so all are resolved alike, and as they are resolved when linking is over.

* `Store.AgreeOn`, `AgreeOn.resolveExport` : stores that agree answer requests alike.
* `Store.BindsOnly` : what the second pass changes.
* `Store.Linkable` : the modules that are linked, and the region they import from.
* `link_supplies` : after linking, every local name that is imported is bound to what an import of
  that name leads to.
-/

namespace Linkage.Store

/-- Two records of one module export the same, from the same cells. -/
structure SameExports (store store' : Store) (record record' : Record) : Prop where
  format : record'.format = record.format
  entries : record'.exportEntries = record.exportEntries
  cells : record.format = .modern → ∀ name, OwnName record.exportEntries name →
    ∃ cell, store.OwnsCell record name cell ∧ store'.OwnsCell record' name cell

/-- Two stores agree on the modules of a region, and these lead only to modules of the region. -/
structure AgreeOn (region : ModuleId → Prop) (store store' : Store) : Prop where
  modules : ∀ id, region id → ∃ ref record record', store.Registered id ref record ∧
    store'.Registered id ref record' ∧ store.SameExports store' record record'
  closed : ∀ id ref record, region id → store.Registered id ref record →
    record.format = .modern → ∀ entry ∈ record.exportEntries, ∀ source,
      entry.source? = some source → region source

theorem OwnsCell.unique {store : Store} {record : Record} {name : String} {cell cell' : CellRef}
    (howns : store.OwnsCell record name cell) (howns' : store.OwnsCell record name cell') :
    cell' = cell :=
  Binding.cell.inj (Option.some.inj (howns'.1.symm.trans howns.1))

theorem SameExports.symm {store store' : Store} {record record' : Record}
    (hsame : store.SameExports store' record record') :
    store'.SameExports store record' record where
  format := hsame.format.symm
  entries := hsame.entries.symm
  cells hmodern name hname := by
    obtain ⟨cell, howns, howns'⟩ :=
      hsame.cells (hsame.format ▸ hmodern) name (hsame.entries ▸ hname)
    exact ⟨cell, howns', howns⟩

namespace AgreeOn

variable {region : ModuleId → Prop} {store store' store'' : Store}

theorem symm (hagree : AgreeOn region store store') : AgreeOn region store' store where
  modules id hid := by
    obtain ⟨ref, record, record', hregistered, hregistered', hsame⟩ := hagree.modules id hid
    exact ⟨ref, record', record, hregistered', hregistered, hsame.symm⟩
  closed id ref record' hid hregistered' hmodern entry hentry source hsource := by
    obtain ⟨_, record, _, hregistered, hfound, hsame⟩ := hagree.modules id hid
    obtain ⟨rfl, rfl⟩ := hfound.unique hregistered'
    exact hagree.closed id ref record hid hregistered (hsame.format ▸ hmodern) entry
      (hsame.entries ▸ hentry) source hsource

theorem exportStep (hagree : AgreeOn region store store') {request next : Request}
    (hrequest : region request.1) (hstep : store.ExportStep request next) :
    region next.1 ∧ store'.ExportStep request next := by
  obtain ⟨id, name⟩ := request
  obtain ⟨ref, record, record', hregistered, hregistered', hsame⟩ := hagree.modules id hrequest
  have hleads := (exportStep_iff hregistered).mp hstep
  refine ⟨?_, ?_⟩
  · obtain ⟨hmodern, ⟨as_, hentry⟩ | ⟨-, -, hsource, -⟩⟩ := hleads
    · exact hagree.closed id ref record hrequest hregistered hmodern _ hentry.mem next.1 rfl
    · exact hagree.closed id ref record hrequest hregistered hmodern _ hsource next.1 rfl
  · rw [exportStep_iff hregistered', hsame.format, hsame.entries]
    exact hleads

theorem exportEnd (hagree : AgreeOn region store store') {request : Request}
    (hrequest : region request.1) {binding : Binding} (hend : store.ExportEnd request binding) :
    store'.ExportEnd request binding := by
  obtain ⟨id, name⟩ := request
  obtain ⟨ref, record, record', hregistered, hregistered', hsame⟩ := hagree.modules id hrequest
  rw [exportEnd_iff hregistered', hsame.format, hsame.entries]
  refine ((exportEnd_iff hregistered).mp hend).imp_left ?_
  rintro ⟨hmodern, hstar | ⟨as_, localName, cell, hentry, howns, rfl⟩⟩
  · exact ⟨hmodern, .inl hstar⟩
  · obtain ⟨found, hfound, hfound'⟩ := hsame.cells hmodern localName ⟨as_, hentry.mem⟩
    obtain rfl := hfound.unique howns
    exact ⟨hmodern, .inr ⟨as_, localName, cell, hentry, hfound', rfl⟩⟩

theorem offers (hagree : AgreeOn region store store') {request : Request}
    (hrequest : region request.1) {binding : Binding} (hoffers : store.Offers request binding) :
    store'.Offers request binding := by
  obtain ⟨last, hpath, hend⟩ := hoffers
  -- no step of the path leaves the region, and each can be taken in the other store
  have hreached : region last.1 ∧ Relation.ReflTransGen store'.ExportStep request last := by
    clear hend
    induction hpath with
    | refl => exact ⟨hrequest, .refl⟩
    | tail _ hstep ih =>
        obtain ⟨hnext, hstep'⟩ := hagree.exportStep ih.1 hstep
        exact ⟨hnext, ih.2.tail hstep'⟩
  exact ⟨last, hreached.2, hagree.exportEnd hreached.1 hend⟩

/-- A request to a module of the region has the same answer in both stores. -/
theorem resolveExport (hagree : AgreeOn region store store') {id : ModuleId} (hid : region id)
    (name : String) : store'.resolveExport id name = store.resolveExport id name := by
  have hoffers : ∀ binding, store'.Offers (id, name) binding ↔ store.Offers (id, name) binding :=
    fun _ => ⟨hagree.symm.offers hid, hagree.offers hid⟩
  rcases store.resolveExport_cases id name with
    ⟨hanswer, hnone⟩ | ⟨binding, hanswer, hfound, hall⟩ | ⟨hanswer, one, other, hne, hone, hother⟩
  · rw [hanswer, resolveExport_eq_missing_iff]
    exact fun binding hbinding => hnone binding ((hoffers binding).mp hbinding)
  · rw [hanswer, resolveExport_eq_found_iff]
    exact ⟨(hoffers binding).mpr hfound, fun other hother => hall other ((hoffers other).mp hother)⟩
  · rw [hanswer, resolveExport_eq_ambiguous_iff]
    exact ⟨one, other, hne, (hoffers one).mpr hone, (hoffers other).mpr hother⟩

end AgreeOn

/-! ## What the second pass changes -/

/-- Only statuses and what imported names refer to have changed. -/
structure BindsOnly (store store' : Store) : Prop where
  lookup : ∀ id, store'.lookup? id = store.lookup? id
  record : ∀ ref record, store.record? ref = some record → ∃ status environment,
    store'.record? ref = some { record with status, environment } ∧
      ∀ name, (∀ entry ∈ record.imports, entry.as_ ≠ name) →
        environment.find? name = record.environment.find? name
  cell : ∀ ref cell, store.cell? ref = some cell → store'.cell? ref = some cell

/-- The modules of a region lead only to modules of the region; each owns what it exports of its
own, and imports nothing under such a name. -/
structure Offering (region : ModuleId → Prop) (store : Store) : Prop where
  modules : ∀ id, region id → ∃ ref record, store.Registered id ref record
  closed : ∀ id ref record, region id → store.Registered id ref record →
    record.format = .modern → ∀ entry ∈ record.exportEntries, ∀ source,
      entry.source? = some source → region source
  owns : ∀ id ref record, region id → store.Registered id ref record →
    record.format = .modern → ∀ name, OwnName record.exportEntries name →
      store.Owns record name ∧ ∀ entry ∈ record.imports, entry.as_ ≠ name

/-- These records can have their imports bound: they import from a region, under names of which none
is bound yet. -/
structure Linkable (region : ModuleId → Prop) (refs : List RecordRef) (store : Store) : Prop where
  offering : Offering region store
  taken : ∀ ref ∈ refs, ∃ record, store.record? ref = some record ∧
    ∀ entry ∈ record.imports, region entry.source ∧ record.environment.find? entry.as_ = none

variable {store store' store'' begun : Store} {region : ModuleId → Prop} {refs : List RecordRef}

namespace BindsOnly

theorem refl (store : Store) : store.BindsOnly store :=
  ⟨fun _ => rfl, fun _ record hrecord =>
    ⟨record.status, record.environment, hrecord, fun _ _ => rfl⟩, fun _ _ hcell => hcell⟩

theorem trans (hfirst : store.BindsOnly store') (hsecond : store'.BindsOnly store'') :
    store.BindsOnly store'' where
  lookup id := (hsecond.lookup id).trans (hfirst.lookup id)
  record ref record hrecord := by
    obtain ⟨status, environment, hrecord', hapart⟩ := hfirst.record ref record hrecord
    obtain ⟨status', environment', hrecord'', hapart'⟩ := hsecond.record ref _ hrecord'
    exact ⟨status', environment', hrecord'', fun name hname =>
      (hapart' name hname).trans (hapart name hname)⟩
  cell ref cell hcell := hsecond.cell ref cell (hfirst.cell ref cell hcell)

theorem of_binds (hbinds : Relation.ReflTransGen (Binds refs) store store') :
    store.BindsOnly store' where
  lookup := (Binds.rebinds_all hbinds).lookup
  record ref record hrecord := by
    obtain ⟨environment, hrecord', hextends⟩ := Binds.record_all hbinds hrecord
    exact ⟨record.status, environment, hrecord', hextends⟩
  cell := (Binds.rebinds_all hbinds).cell

theorem of_setStatus (refs : List RecordRef) (status : Status) (store : Store) :
    store.BindsOnly (refs.foldl (fun store ref => store.setStatus ref status) store) where
  lookup :=
    (Rebinds.of_foldl (fun store ref => rebinds_setStatus store ref status) refs store).lookup
  record ref record hrecord := by
    unfold setStatus
    rw [record?_foldl_modify (fun record => { record with status }) (fun _ => rfl), hrecord]
    split
    · exact ⟨status, record.environment, rfl, fun _ _ => rfl⟩
    · exact ⟨record.status, record.environment, rfl, fun _ _ => rfl⟩
  cell := (Rebinds.of_foldl (fun store ref => rebinds_setStatus store ref status) refs store).cell

/-- What the modules of a region export stays the same. -/
theorem agreeOn (hbinds : begun.BindsOnly store) (hoffering : Offering region begun) :
    AgreeOn region begun store where
  modules id hid := by
    obtain ⟨ref, record, hregistered⟩ := hoffering.modules id hid
    obtain ⟨status, environment, hrecord', hapart⟩ := hbinds.record ref record hregistered.record
    refine ⟨ref, record, _, hregistered, ⟨?_, hrecord'⟩, rfl, rfl, ?_⟩
    · rw [hbinds.lookup, hregistered.lookup]
    · intro hmodern name hname
      obtain ⟨⟨cell, howns⟩, himports⟩ :=
        hoffering.owns id ref record hid hregistered hmodern name hname
      obtain ⟨hbound, found, hfound, howner⟩ := howns
      exact ⟨cell, ⟨hbound, found, hfound, howner⟩, (hapart name himports).trans hbound, found,
        hbinds.cell cell found hfound, howner⟩
  closed := hoffering.closed

end BindsOnly

/-- A binding is what some import of a local name is bound to.  Several imports may have one name. -/
def ImportedAs (store : Store) (imports : List ImportEntry) (name : String) (binding : Binding) :
    Prop :=
  ∃ entry ∈ imports, entry.as_ = name ∧ store.Supplies entry binding

/-- What the names that some records import are bound to so far is what they were to be bound to. -/
def Supplied (begun : Store) (refs : List RecordRef) (store : Store) : Prop :=
  ∀ ref ∈ refs, ∀ record, store.record? ref = some record → ∀ entry ∈ record.imports,
    ∀ binding, record.environment.find? entry.as_ = some binding →
      begun.ImportedAs record.imports entry.as_ binding

/-- A region in which two stores agree supplies the same in both. -/
theorem AgreeOn.supplies (hagree : AgreeOn region store store') {entry : ImportEntry}
    (hsource : region entry.source) {binding : Binding} :
    store'.Supplies entry binding ↔ store.Supplies entry binding := by
  unfold Supplies
  cases entry.imported with
  | star => exact Iff.rfl
  | name name =>
      dsimp only
      rw [hagree.resolveExport hsource]

/-- So it does for imports from the region. -/
theorem AgreeOn.importedAs (hagree : AgreeOn region store store') {imports : List ImportEntry}
    (hsources : ∀ entry ∈ imports, region entry.source) {name : String} {binding : Binding} :
    store'.ImportedAs imports name binding ↔ store.ImportedAs imports name binding :=
  exists_congr (fun entry => and_congr_right (fun hentry =>
    and_congr_right (fun _ => hagree.supplies (hsources entry hentry))))

/-- Binding one more import. -/
theorem Supplied.bind (hlinkable : Linkable region refs begun) (hbinds : begun.BindsOnly store)
    (hsupplied : begun.Supplied refs store) (hbind : Binds refs store store') :
    begun.Supplied refs store' := by
  have hagree := hbinds.agreeOn hlinkable.offering
  obtain ⟨href, hrecord, hentry, hsupplies⟩ := hbind
  -- the import is resolved in the store as it is now, which exports what it exported at first
  rename_i bound before entry binding
  intro ref hmem record' hrecord' other hother found hfound
  by_cases hsame : ref = bound
  · subst hsame
    rw [Store.bind, record?_modify_self _ hrecord] at hrecord'
    obtain rfl := Option.some.inj hrecord'
    obtain ⟨taken, htaken, hsources⟩ := hlinkable.taken ref href
    obtain ⟨_, _, hbefore, -⟩ := hbinds.record ref taken htaken
    obtain rfl := Option.some.inj (hbefore.symm.trans hrecord)
    by_cases hname : other.as_ = entry.as_
    · -- the name is bound now, be it for this import or for another of the same name
      rw [hname, Table.find?_insert_self] at hfound
      obtain rfl := Option.some.inj hfound
      exact ⟨entry, hentry, hname.symm, (hagree.supplies (hsources entry hentry).1).mp hsupplies⟩
    · rw [Table.find?_insert_ne _ hname] at hfound
      exact hsupplied ref href _ hrecord other hother found hfound
  · rw [Store.bind, record?_modify_ne hsame] at hrecord'
    exact hsupplied ref hmem record' hrecord' other hother found hfound

theorem supplied_of_binds (hlinkable : Linkable region refs begun)
    (hbinds : Relation.ReflTransGen (Binds refs) begun store) : begun.Supplied refs store := by
  -- the bindings come one after the other, the first of them when nothing is bound
  induction hbinds with
  | refl =>
      intro ref href record hrecord entry hentry binding hbound
      obtain ⟨taken, htaken, hsources⟩ := hlinkable.taken ref href
      obtain rfl := Option.some.inj (htaken.symm.trans hrecord)
      rw [(hsources entry hentry).2] at hbound
      cases hbound
  | tail hbefore hbind ih => exact ih.bind hlinkable (.of_binds hbefore) hbind

/-- When linking succeeds, what comes after the first pass binds imports and sets statuses. -/
theorem link_ok_bindsOnly {order : List ModuleId} (hok : (store.link order).1 = .ok ()) :
    ∃ bound, Relation.ReflTransGen (Binds (store.pendingLinks order))
        ((store.pendingLinks order).foldl beginLink store) bound ∧
      (∀ ref ∈ store.pendingLinks order, ∀ record,
        ((store.pendingLinks order).foldl beginLink store).record? ref = some record →
          ∀ entry ∈ record.imports, Stems (store.pendingLinks order)
            ((store.pendingLinks order).foldl beginLink store) bound ref entry.as_) ∧
      (store.link order).2 =
        (store.pendingLinks order).foldl (fun store ref => store.setStatus ref .linked) bound ∧
      ((store.pendingLinks order).foldl beginLink store).BindsOnly (store.link order).2 := by
  unfold link at hok ⊢
  dsimp only at hok ⊢
  cases hfold : (store.pendingLinks order).foldlM bindImports
      ((store.pendingLinks order).foldl beginLink store) with
  | error error =>
      rw [hfold] at hok
      cases hok
  | ok bound =>
      obtain ⟨hbinds, hall⟩ := bindImports_foldlM_eq_ok hfold
      exact ⟨bound, hbinds, hall, rfl, (BindsOnly.of_binds hbinds).trans (.of_setStatus _ _ _)⟩

/-- After linking, every name that a record taken imports is bound to what an import of that name
leads to then. -/
theorem link_supplies {order : List ModuleId}
    (hlinkable : Linkable region (store.pendingLinks order)
      ((store.pendingLinks order).foldl beginLink store))
    (hok : (store.link order).1 = .ok ()) {ref : RecordRef} (href : ref ∈ store.pendingLinks order)
    {record' : Record} (hrecord' : (store.link order).2.record? ref = some record')
    {entry : ImportEntry} (hentry : entry ∈ record'.imports) :
    ∃ binding, record'.environment.find? entry.as_ = some binding ∧
      (store.link order).2.ImportedAs record'.imports entry.as_ binding := by
  obtain ⟨bound, hbinds, hall, hend, honly⟩ := link_ok_bindsOnly hok
  obtain ⟨taken, htaken, hsources⟩ := hlinkable.taken ref href
  obtain ⟨environment, hbound, -⟩ := Binds.record_all hbinds htaken
  have hfinal : (store.link order).2.record? ref =
      some { taken with status := .linked, environment } := by
    rw [hend]
    unfold setStatus
    rw [record?_foldl_modify (fun record => { record with status := .linked }) (fun _ => rfl),
      if_pos href, hbound]
    rfl
  obtain rfl := Option.some.inj (hfinal.symm.trans hrecord')
  have hsome := (hall ref href taken htaken entry hentry).bound
  rw [binding?, hbound] at hsome
  obtain ⟨binding, hbinding⟩ := Option.isSome_iff_exists.mp hsome
  refine ⟨binding, hbinding, ?_⟩
  -- what is exported did not change on the way
  refine ((honly.agreeOn hlinkable.offering).importedAs
    (fun other hother => (hsources other hother).1)).mpr ?_
  exact supplied_of_binds hlinkable hbinds ref href _ hbound entry hentry binding hbinding

end Linkage.Store
