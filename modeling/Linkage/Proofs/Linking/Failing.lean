import Linkage.Proofs.Linking.Supplying

/-!
# When linking fails

The second pass of linking tries one name after the other, each in a store in which some imports are
bound already.  Since binding an import changes nothing that is exported, each name leads where it
led after the first pass.  So linking fails for a name that led nowhere or was ambiguous then, and
for nothing else.

* `Record.AsksFor` : the names that linking a record tries.
* `Store.link_fails_iff` : when linking fails.
* `Store.LinksNone.eq` : a failed linking leaves nothing behind but cells.
-/

namespace Linkage

/-- A record imports a name from a module or exports it anew. -/
def Record.AsksFor (record : Record) (source : ModuleId) (name : String) : Prop :=
  (∃ as_, ⟨source, .name name, as_⟩ ∈ record.imports) ∨
    ∃ as_, .indirect as_ source (.name name) ∈ record.exportEntries

namespace Store

/-- A name of a module leads nowhere or is ambiguous. -/
def Unresolved (store : Store) (source : ModuleId) (name : String) : Prop :=
  store.resolveExport source name = .missing ∨ store.resolveExport source name = .ambiguous

variable {store begun : Store} {region : ModuleId → Prop} {ref : RecordRef} {record : Record}

/-! ## One name -/

theorem fails_resolveImport_iff {source : ModuleId} {name : String} :
    Fails (store.resolveImport source name) ↔ store.Unresolved source name := by
  unfold Fails resolveImport Unresolved
  cases store.resolveExport source name <;> simp

theorem fails_bindImport_iff {entry : ImportEntry} :
    Fails (store.bindImport ref entry) ↔
      ∃ name, entry.imported = .name name ∧ store.Unresolved entry.source name := by
  unfold bindImport
  cases entry.imported with
  | star => exact iff_of_false (not_fails_ok _) (by simp)
  | name name =>
      dsimp only
      rw [fails_bind_iff, fails_resolveImport_iff]
      constructor
      · rintro (hunresolved | ⟨_, -, hnone⟩)
        · exact ⟨name, rfl, hunresolved⟩
        · exact absurd hnone (not_fails_ok _)
      · rintro ⟨other, hother, hunresolved⟩
        obtain rfl := ImportName.name.inj hother
        exact .inl hunresolved

theorem fails_checkExport_iff {entry : ExportEntry} :
    Fails (store.checkExport entry) ↔ ∃ as_ source name,
      entry = .indirect as_ source (.name name) ∧ store.Unresolved source name := by
  unfold checkExport
  split
  · rename_i as_ source name
    rw [fails_bind_iff, fails_resolveImport_iff]
    constructor
    · rintro (hunresolved | ⟨_, -, hnone⟩)
      · exact ⟨as_, source, name, rfl, hunresolved⟩
      · exact absurd hnone (not_fails_ok _)
    · rintro ⟨_, _, _, heq, hunresolved⟩
      obtain ⟨rfl, rfl, hname⟩ := ExportEntry.indirect.inj heq
      obtain rfl := ImportName.name.inj hname
      exact .inl hunresolved
  · rename_i hother
    refine iff_of_false (not_fails_ok _) ?_
    rintro ⟨as_, source, name, heq, -⟩
    exact hother as_ source name heq

/-- Binding imports does not change whether a name leads anywhere. -/
theorem BindsOnly.unresolved_iff (hbinds : begun.BindsOnly store)
    (hoffering : Offering region begun) {source : ModuleId} (hsource : region source)
    {name : String} : store.Unresolved source name ↔ begun.Unresolved source name := by
  unfold Unresolved
  rw [(hbinds.agreeOn hoffering).resolveExport hsource]

/-! ## One record -/

/-- While the imports of a record are bound, what is exported stays the same, and so does what the
record asks for. -/
def Progressing (begun : Store) (ref : RecordRef) (record : Record) (store : Store) : Prop :=
  begun.BindsOnly store ∧ ∃ environment, store.record? ref = some { record with environment }

theorem Progressing.bindImport (hprogress : begun.Progressing ref record store)
    {entry : ImportEntry} {store' : Store} (hentry : entry ∈ record.imports)
    (hbound : store.bindImport ref entry = .ok store') :
    begun.Progressing ref record store' := by
  obtain ⟨hbinds, environment, hrecord⟩ := hprogress
  obtain ⟨binding, hsupplies, rfl⟩ := bindImport_eq_ok hbound
  have hbind : store.Binds [ref] (store.bind ref entry.as_ binding) :=
    .bind List.mem_cons_self hrecord hentry hsupplies
  obtain ⟨environment', hrecord', -⟩ := hbind.record hrecord
  exact ⟨hbinds.trans (.of_binds (.single hbind)), environment', hrecord'⟩

/-- Binding the imports of a record fails for the names it imports. -/
theorem fails_imports_iff (hoffering : Offering region begun)
    (hprogress : begun.Progressing ref record store)
    (hsources : ∀ source name, record.AsksFor source name → region source) :
    Fails (record.imports.foldlM (fun store entry => store.bindImport ref entry) store) ↔
      ∃ entry ∈ record.imports, ∃ name, entry.imported = .name name ∧
        begun.Unresolved entry.source name := by
  refine fails_foldlM_iff _ _ hprogress ?_ (fun _ hentry _ _ hvalue => hvalue.bindImport hentry)
  intro entry hentry value hvalue
  rw [fails_bindImport_iff]
  refine exists_congr (fun name => and_congr_right (fun hname => ?_))
  refine hvalue.1.unresolved_iff hoffering (hsources entry.source name (.inl ⟨entry.as_, ?_⟩))
  rwa [← hname]

/-- Trying the re-exports of a record fails for the names it exports anew. -/
theorem fails_exports_iff (hoffering : Offering region begun) (hbinds : begun.BindsOnly store)
    (hsources : ∀ source name, record.AsksFor source name → region source) :
    Fails (record.exportEntries.forM store.checkExport) ↔ ∃ source name,
      (∃ as_, .indirect as_ source (.name name) ∈ record.exportEntries) ∧
        begun.Unresolved source name := by
  rw [fails_forM_iff]
  constructor
  · rintro ⟨entry, hentry, hfails⟩
    obtain ⟨as_, source, name, rfl, hunresolved⟩ := fails_checkExport_iff.mp hfails
    have hsource := hsources source name (.inr ⟨as_, hentry⟩)
    exact ⟨source, name, ⟨as_, hentry⟩, (hbinds.unresolved_iff hoffering hsource).mp hunresolved⟩
  · rintro ⟨source, name, ⟨as_, hentry⟩, hunresolved⟩
    have hsource := hsources source name (.inr ⟨as_, hentry⟩)
    exact ⟨_, hentry, fails_checkExport_iff.mpr
      ⟨as_, source, name, rfl, (hbinds.unresolved_iff hoffering hsource).mpr hunresolved⟩⟩

theorem bindImports_of_record (hrecord : store.record? ref = some record) :
    store.bindImports ref = (do
      let bound ← record.imports.foldlM (fun store entry => store.bindImport ref entry) store
      record.exportEntries.forM bound.checkExport
      return bound) := by
  unfold bindImports
  rw [hrecord]
  rfl

/-- Linking one record fails for the names it asks for. -/
theorem fails_bindImports_iff (hoffering : Offering region begun)
    (hprogress : begun.Progressing ref record store)
    (hsources : ∀ source name, record.AsksFor source name → region source) :
    Fails (store.bindImports ref) ↔
      ∃ source name, record.AsksFor source name ∧ begun.Unresolved source name := by
  have himports := fails_imports_iff hoffering hprogress hsources
  have hexports : ∀ bound : Store,
      record.imports.foldlM (fun store entry => store.bindImport ref entry) store = .ok bound →
      (Fails (record.exportEntries.forM bound.checkExport) ↔ ∃ source name,
        (∃ as_, .indirect as_ source (.name name) ∈ record.exportEntries) ∧
          begun.Unresolved source name) := by
    intro bound hfold
    have hbound := foldlM_eq_ok_induction _ hfold hprogress
      (fun _ hentry _ _ hvalue => hvalue.bindImport hentry)
    exact fails_exports_iff hoffering hbound.1 hsources
  -- the record may have names bound already, but what it asks for is what it asked for
  obtain ⟨-, environment, hrecord⟩ := hprogress
  have hunfolded : store.bindImports ref =
      (record.imports.foldlM (fun store entry => store.bindImport ref entry) store >>=
        fun bound => record.exportEntries.forM bound.checkExport >>= fun _ => pure bound) := by
    have hfound := bindImports_of_record hrecord
    exact hfound
  rw [hunfolded, fails_bind_iff]
  constructor
  · rintro (hfails | ⟨bound, hfold, hfails⟩)
    · obtain ⟨entry, hentry, name, hname, hunresolved⟩ := himports.mp hfails
      exact ⟨entry.source, name, .inl ⟨entry.as_, hname ▸ hentry⟩, hunresolved⟩
    · rcases fails_bind_iff.mp hfails with hfails | ⟨_, -, hnone⟩
      · obtain ⟨source, name, hentry, hunresolved⟩ := (hexports bound hfold).mp hfails
        exact ⟨source, name, .inr hentry, hunresolved⟩
      · exact absurd hnone (not_fails_ok _)
  · rintro ⟨source, name, hasks, hunresolved⟩
    cases hfold : record.imports.foldlM (fun store entry => store.bindImport ref entry) store with
    | error error => exact .inl ⟨error, rfl⟩
    | ok bound =>
        rcases hasks with ⟨as_, hentry⟩ | hentry
        · have hfails := himports.mpr ⟨_, hentry, name, rfl, hunresolved⟩
          rw [hfold] at hfails
          exact absurd hfails (not_fails_ok bound)
        · exact .inr ⟨bound, rfl, fails_bind_iff.mpr
            (.inl ((hexports bound hfold).mpr ⟨source, name, hentry, hunresolved⟩))⟩

/-! ## All records -/

/-- Linking fails for the names that the records it takes ask for and that lead nowhere or are
ambiguous when each record has its cells. -/
theorem link_fails_iff {order : List ModuleId}
    (hoffering : Offering region ((store.pendingLinks order).foldl beginLink store))
    (hsources : ∀ ref ∈ store.pendingLinks order, ∀ record, store.record? ref = some record →
      ∀ source name, record.AsksFor source name → region source) :
    Fails (store.link order).1 ↔ ∃ ref ∈ store.pendingLinks order, ∃ record,
      store.record? ref = some record ∧ ∃ source name, record.AsksFor source name ∧
        ((store.pendingLinks order).foldl beginLink store).Unresolved source name := by
  have hbegun : Rebinds (store.pendingLinks order) store
      ((store.pendingLinks order).foldl beginLink store) := .of_foldl rebinds_beginLink _ store
  have hprogress : ∀ ref record, store.record? ref = some record → ∀ value : Store,
      ((store.pendingLinks order).foldl beginLink store).BindsOnly value →
      ∃ status environment, ((store.pendingLinks order).foldl beginLink store).Progressing ref
        { record with status, environment } value := by
    intro ref record hrecord value hvalue
    obtain ⟨_, _, hbefore⟩ := hbegun.record ref record hrecord
    obtain ⟨status, environment, hrecord', -⟩ := hvalue.record ref _ hbefore
    exact ⟨status, environment, hvalue, environment, hrecord'⟩
  have hfold : Fails ((store.pendingLinks order).foldlM bindImports
      ((store.pendingLinks order).foldl beginLink store)) ↔
      ∃ ref ∈ store.pendingLinks order, ∃ record, store.record? ref = some record ∧
        ∃ source name, record.AsksFor source name ∧
          ((store.pendingLinks order).foldl beginLink store).Unresolved source name := by
    refine fails_foldlM_iff
      (fun value => ((store.pendingLinks order).foldl beginLink store).BindsOnly value) _
      (.refl _) ?_ ?_
    · intro ref href value hvalue
      obtain ⟨id, -, record, hregistered, -⟩ := mem_pendingLinks.mp href
      obtain ⟨status, environment, hprogress⟩ :=
        hprogress ref record hregistered.record value hvalue
      have hrecord := fails_bindImports_iff hoffering hprogress
        (hsources ref href record hregistered.record)
      refine hrecord.trans ⟨fun hasks => ⟨record, hregistered.record, hasks⟩, ?_⟩
      rintro ⟨found, hfound, hasks⟩
      obtain rfl := Option.some.inj (hfound.symm.trans hregistered.record)
      exact hasks
    · intro ref href value value' hvalue hbound
      obtain ⟨id, -, record, hregistered, -⟩ := mem_pendingLinks.mp href
      obtain ⟨status, environment, -, environment', hrecord⟩ :=
        hprogress ref record hregistered.record value hvalue
      exact hvalue.trans (.of_binds (bindImports_eq_ok hrecord hbound).1)
  rw [← hfold]
  unfold link
  dsimp only
  cases (store.pendingLinks order).foldlM bindImports
      ((store.pendingLinks order).foldl beginLink store) with
  | ok bound => exact iff_of_false (not_fails_ok _) (not_fails_ok _)
  | error error => exact iff_of_true ⟨error, rfl⟩ ⟨error, rfl⟩

/-- If the records taken were unlinked and had nothing bound, a failed linking leaves every record
as it was, and nothing behind but cells. -/
theorem LinksNone.eq {store' : Store} {refs : List RecordRef}
    (hlinks : LinksNone refs store store')
    (hempty : ∀ ref ∈ refs, ∃ record, store.record? ref = some record ∧
      record.status = .unlinked ∧ record.environment = {}) :
    store' = { store with cells := store'.cells } := by
  have hrecord : ∀ ref, store'.record? ref = store.record? ref := by
    intro ref
    by_cases href : ref ∈ refs
    · obtain ⟨record, hfound, hunlinked, hnothing⟩ := hempty ref href
      rw [hlinks.undone ref href record hfound, hfound, ← hunlinked, ← hnothing]
    · exact hlinks.rebinds.other ref href
  have hrecords : store'.records = store.records := Array.ext_getElem? (fun index =>
    hrecord ⟨index⟩)
  have hframe := hlinks.rebinds.frame
  rwa [hrecords] at hframe

end Store

end Linkage
