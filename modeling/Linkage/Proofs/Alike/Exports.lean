import Linkage.Proofs.Alike.Stores
import Linkage.Proofs.Exports.Names

/-!
# Names in stores that are alike

Stores that are alike answer a request for a public name alike: each way that a request can take in
the one can be taken in the other, and ends at something alike.

* `Store.Aligned` : what that depends on, for either of the stores; `Aligned.resolveExport_cases`,
  `Aligned.exportedNames_eq`.
* `Store.Alike.resolveExport`, `Store.Alike.readName` : names.
-/

namespace Linkage

variable {pairing : Pairing}

namespace Store

/-- Two records export the same names, each from something that corresponds. -/
structure Exporting (R : Binding → Binding → Prop) (store store' : Store) (ref ref' : RecordRef)
    (record record' : Record) : Prop where
  format : record.format = record'.format
  entries : record.exportEntries = record'.exportEntries
  own : record.format = .modern → ∀ name cell, OwnName record.exportEntries name →
    store.OwnsCell record name cell →
    ∃ cell', store'.OwnsCell record' name cell' ∧ R (.cell cell) (.cell cell')
  own' : record.format = .modern → ∀ name cell', OwnName record.exportEntries name →
    store'.OwnsCell record' name cell' →
    ∃ cell, store.OwnsCell record name cell ∧ R (.cell cell) (.cell cell')
  exports : ∀ property?, R (.exports ref property?) (.exports ref' property?)

/-- The modules of a region export the same names in two stores, and re-export only from modules of
the region. -/
structure Aligned (R : Binding → Binding → Prop) (region : ModuleId → Prop) (store store' : Store) :
    Prop where
  modules : ∀ {id ref record}, region id → store.Registered id ref record →
    ∃ ref' record', store'.Registered id ref' record' ∧
      store.Exporting R store' ref ref' record record'
  modules' : ∀ {id ref' record'}, region id → store'.Registered id ref' record' →
    ∃ ref record, store.Registered id ref record ∧
      store.Exporting R store' ref ref' record record'
  closed : ∀ {id ref record}, region id → store.Registered id ref record →
    record.format = .modern →
    ∀ entry ∈ record.exportEntries, ∀ source, entry.source? = some source → region source
  star : ∀ {id}, region id → R (.star id) (.star id)

variable {R : Binding → Binding → Prop} {region : ModuleId → Prop} {store store' : Store}

theorem Exporting.symm {ref ref' : RecordRef} {record record' : Record}
    (hexporting : store.Exporting R store' ref ref' record record') :
    store'.Exporting (flip R) store ref' ref record' record where
  format := hexporting.format.symm
  entries := hexporting.entries.symm
  own hmodern name cell hname :=
    hexporting.own' (hexporting.format ▸ hmodern) name cell (hexporting.entries ▸ hname)
  own' hmodern name cell hname :=
    hexporting.own (hexporting.format ▸ hmodern) name cell (hexporting.entries ▸ hname)
  exports := hexporting.exports

namespace Aligned

variable {request next : Request} {binding : Binding}

theorem symm (haligned : Aligned R region store store') : Aligned (flip R) region store' store where
  modules hid hregistered' := by
    obtain ⟨ref, record, hregistered, hexporting⟩ := haligned.modules' hid hregistered'
    exact ⟨ref, record, hregistered, hexporting.symm⟩
  modules' hid hregistered := by
    obtain ⟨ref', record', hregistered', hexporting⟩ := haligned.modules hid hregistered
    exact ⟨ref', record', hregistered', hexporting.symm⟩
  closed hid hregistered' hmodern entry hentry := by
    obtain ⟨ref, record, hregistered, hexporting⟩ := haligned.modules' hid hregistered'
    exact haligned.closed hid hregistered (hexporting.format ▸ hmodern) entry
      (hexporting.entries ▸ hentry)
  star := haligned.star

theorem exportStep (haligned : Aligned R region store store') (hrequest : region request.1)
    (hstep : store.ExportStep request next) :
    region next.1 ∧ store'.ExportStep request next := by
  obtain ⟨ref, record, hregistered⟩ : ∃ ref record, store.Registered request.1 ref record := by
    cases hstep with
    | indirect hregistered | star hregistered => exact ⟨_, _, hregistered⟩
  obtain ⟨ref', record', hregistered', hexporting⟩ := haligned.modules hrequest hregistered
  have hleads := (exportStep_iff hregistered).mp hstep
  refine ⟨?_, ?_⟩
  · obtain ⟨hmodern, ⟨as_, hentry⟩ | ⟨-, -, hsource, -⟩⟩ := hleads
    · exact haligned.closed hrequest hregistered hmodern _ hentry.mem next.1 rfl
    · exact haligned.closed hrequest hregistered hmodern _ hsource next.1 rfl
  · refine (exportStep_iff hregistered').mpr ?_
    rw [← hexporting.format, ← hexporting.entries]
    exact hleads

theorem exportEnd (haligned : Aligned R region store store') (hrequest : region request.1)
    (hend : store.ExportEnd request binding) :
    ∃ binding', R binding binding' ∧ store'.ExportEnd request binding' := by
  cases hend with
  | star hregistered hmodern hentry =>
      obtain ⟨ref', record', hregistered', hexporting⟩ := haligned.modules hrequest hregistered
      exact ⟨_, haligned.star (haligned.closed hrequest hregistered hmodern _ hentry.mem _ rfl),
        .star hregistered' (hexporting.format ▸ hmodern) (hexporting.entries ▸ hentry)⟩
  | own hregistered hmodern hentry hcell =>
      obtain ⟨ref', record', hregistered', hexporting⟩ := haligned.modules hrequest hregistered
      obtain ⟨cell', hcell', hrel⟩ := hexporting.own hmodern _ _ ⟨_, hentry.mem⟩ hcell
      exact ⟨_, hrel,
        .own hregistered' (hexporting.format ▸ hmodern) (hexporting.entries ▸ hentry) hcell'⟩
  | exports hregistered hlegacy =>
      obtain ⟨ref', record', hregistered', hexporting⟩ := haligned.modules hrequest hregistered
      exact ⟨_, hexporting.exports none, .exports hregistered' (hexporting.format ▸ hlegacy)⟩
  | property hregistered hlegacy hname hentry hhint =>
      obtain ⟨ref', record', hregistered', hexporting⟩ := haligned.modules hrequest hregistered
      exact ⟨_, hexporting.exports _, .property hregistered' (hexporting.format ▸ hlegacy) hname
        (hexporting.entries ▸ hentry) hhint⟩

/-- What a request can reach in one store corresponds to what it can reach in the other. -/
theorem offers (haligned : Aligned R region store store') (hrequest : region request.1)
    (hoffers : store.Offers request binding) :
    ∃ binding', R binding binding' ∧ store'.Offers request binding' := by
  obtain ⟨last, hpath, hend⟩ := hoffers
  -- no step of the path leaves the region, and each can be taken in the other store
  have hreached : region last.1 ∧ Relation.ReflTransGen store'.ExportStep request last := by
    clear hend
    induction hpath with
    | refl => exact ⟨hrequest, .refl⟩
    | tail _ hstep ih =>
        obtain ⟨hnext, hstep'⟩ := haligned.exportStep ih.1 hstep
        exact ⟨hnext, ih.2.tail hstep'⟩
  obtain ⟨binding', hrel, hend'⟩ := haligned.exportEnd hreached.1 hend
  exact ⟨binding', hrel, last, hreached.2, hend'⟩

/-- A public name leads to what corresponds, in two stores that are aligned. -/
theorem resolveExport_cases (haligned : Aligned R region store store')
    (hpartner : ∀ {one one' other other'}, R one one' → R other other' →
      (one = other ↔ one' = other')) {id : ModuleId} (hid : region id) (name : String) :
    (store.resolveExport id name = .missing ∧ store'.resolveExport id name = .missing) ∨
      (∃ binding binding', R binding binding' ∧ store.resolveExport id name = .found binding ∧
        store'.resolveExport id name = .found binding') ∨
      store.resolveExport id name = .ambiguous ∧ store'.resolveExport id name = .ambiguous := by
  have hthere : ∀ {binding}, store.Offers (id, name) binding →
      ∃ binding', R binding binding' ∧ store'.Offers (id, name) binding' :=
    fun hoffers => haligned.offers hid hoffers
  have hback : ∀ {binding'}, store'.Offers (id, name) binding' →
      ∃ binding, R binding binding' ∧ store.Offers (id, name) binding :=
    fun hoffers => haligned.symm.offers hid hoffers
  rcases store.resolveExport_cases id name with
    ⟨hanswer, hnone⟩ | ⟨binding, hanswer, hfound, hall⟩ | ⟨hanswer, one, other, hne, hone, hother⟩
  · refine .inl ⟨hanswer, resolveExport_eq_missing_iff.mpr (fun binding' hbinding' => ?_)⟩
    obtain ⟨binding, -, hbinding⟩ := hback hbinding'
    exact hnone binding hbinding
  · obtain ⟨binding', hrel, hfound'⟩ := hthere hfound
    refine .inr (.inl ⟨binding, binding', hrel, hanswer,
      resolveExport_eq_found_iff.mpr ⟨hfound', fun other' hother' => ?_⟩⟩)
    obtain ⟨other, hrelOther, hother⟩ := hback hother'
    exact (hpartner hrelOther hrel).mp (hall other hother)
  · obtain ⟨one', hrelOne, hone'⟩ := hthere hone
    obtain ⟨other', hrelOther, hother'⟩ := hthere hother
    exact .inr (.inr ⟨hanswer, resolveExport_eq_ambiguous_iff.mpr ⟨one', other',
      fun heq => hne ((hpartner hrelOne hrelOther).mpr heq), hone', hother'⟩⟩)

/-- A public name leads to the same if the same things correspond. -/
theorem resolveExport_eq (haligned : Aligned Eq region store store') {id : ModuleId}
    (hid : region id) (name : String) :
    store'.resolveExport id name = store.resolveExport id name := by
  have hpartner : ∀ {one one' other other' : Binding}, one = one' → other = other' →
      (one = other ↔ one' = other') := by
    rintro one _ other _ rfl rfl
    exact Iff.rfl
  rcases haligned.resolveExport_cases hpartner hid name with
    ⟨hone, hother⟩ | ⟨_, _, rfl, hone, hother⟩ | ⟨hone, hother⟩ <;> rw [hone, hother]

/-- What a module shows in one store it shows in the other. -/
theorem shows (haligned : Aligned R region store store') {id : ModuleId} (hid : region id)
    {name : String} (hshows : store.Shows id name) : store'.Shows id name := by
  induction hshows with
  | own hlists =>
      obtain ⟨ref, record, hregistered, hgives⟩ := hlists
      obtain ⟨ref', record', hregistered', hexporting⟩ := haligned.modules hid hregistered
      exact .own ⟨ref', record', hregistered', hexporting.format ▸ hexporting.entries ▸ hgives⟩
  | along hname hforwards _ ih =>
      obtain ⟨ref, record, hregistered, hmodern, hentry⟩ := hforwards
      obtain ⟨ref', record', hregistered', hexporting⟩ := haligned.modules hid hregistered
      exact .along hname ⟨ref', record', hregistered', hexporting.format ▸ hmodern,
        hexporting.entries ▸ hentry⟩ (ih (haligned.closed hid hregistered hmodern _ hentry _ rfl))

/-- The same names are exported. -/
theorem exportedNames_eq (haligned : Aligned R region store store') {id : ModuleId}
    (hid : region id) : store.exportedNames id = store'.exportedNames id := by
  have hsame : ∀ name, name ∈ store.exportedNames id ↔ name ∈ store'.exportedNames id := by
    intro name
    rw [mem_exportedNames_iff, mem_exportedNames_iff]
    exact ⟨haligned.shows hid, haligned.symm.shows hid⟩
  exact Table.keys_eq hsame

end Aligned

namespace Resembles

theorem aligned (hresembles : store.Resembles pairing store') :
    Aligned (Binding.Alike pairing) pairing.covers store store' := by
  have hexporting : ∀ {ref ref' : RecordRef} {record record' : Record},
      pairing.record ref ref' → record.Alike pairing record' →
      store.Exporting (Binding.Alike pairing) store' ref ref' record record' := by
    intro ref ref' record record' href hrecord
    refine ⟨hrecord.format, hrecord.exportEntries, fun _ name cell _ howns => ?_,
      fun _ name cell' _ howns => ?_, fun property? => .exports href property?⟩
    · obtain ⟨cell', hcell', hrel⟩ := rel_some (hresembles.ownCell hrecord name)
        (ownCell?_eq_some_iff.mpr howns)
      exact ⟨cell', ownCell?_eq_some_iff.mp hcell', .cell hrel⟩
    · rcases rel_cases (hresembles.ownCell hrecord name) with
        ⟨-, hnone⟩ | ⟨cell, found, hcell, hfound, hrel⟩
      · cases hnone.symm.trans (ownCell?_eq_some_iff.mpr howns)
      · obtain rfl := Option.some.inj (hfound.symm.trans (ownCell?_eq_some_iff.mpr howns))
        exact ⟨cell, ownCell?_eq_some_iff.mp hcell, .cell hrel⟩
  refine ⟨fun {id ref record} hid hregistered => ?_, fun {id ref' record'} hid hregistered' => ?_,
    fun {id ref record} hid hregistered => ?_, .star⟩
  · rcases hresembles.registered hid with
      ⟨hlookup, -⟩ | ⟨_, ref', _, record', href, hrecord, hfound, hregistered', -⟩
    · cases hlookup.symm.trans hregistered.lookup
    · obtain ⟨rfl, rfl⟩ := hfound.unique hregistered
      exact ⟨ref', record', hregistered', hexporting href hrecord⟩
  · rcases hresembles.registered hid with
      ⟨-, hlookup', -⟩ | ⟨ref, _, record, _, href, hrecord, hregistered, hfound, -⟩
    · cases hlookup'.symm.trans hregistered'.lookup
    · obtain ⟨rfl, rfl⟩ := hfound.unique hregistered'
      exact ⟨ref, record, hregistered, hexporting href hrecord⟩
  · rcases hresembles.registered hid with
      ⟨hlookup, -⟩ | ⟨_, _, _, _, -, hrecord, hfound, -, -⟩
    · cases hlookup.symm.trans hregistered.lookup
    · obtain ⟨rfl, rfl⟩ := hfound.unique hregistered
      exact fun _ => hrecord.covered

/-- A public name leads to the same in both stores. -/
theorem resolveExport (hresembles : store.Resembles pairing store') {id : ModuleId}
    (hcovered : pairing.covers id) (name : String) :
    (store.resolveExport id name).Alike pairing (store'.resolveExport id name) := by
  rcases hresembles.aligned.resolveExport_cases Binding.alike_iff hcovered name with
    ⟨hone, hother⟩ | ⟨_, _, hrel, hone, hother⟩ | ⟨hone, hother⟩ <;> rw [hone, hother]
  · exact .missing
  · exact .found hrel
  · exact .ambiguous

end Resembles

namespace Alike

theorem resolveExport (halike : store.Alike pairing store') {id : ModuleId}
    (hcovered : pairing.covers id) (name : String) :
    (store.resolveExport id name).Alike pairing (store'.resolveExport id name) :=
  halike.resembles.resolveExport hcovered name

/-- Reading a name through a namespace gives the same in both stores. -/
theorem readName (halike : store.Alike pairing store') {found found' : Namespace}
    (hfound : found.Alike pairing found') (name : String) :
    Matches (Value.Alike pairing) (store.readName found name).1 (store'.readName found' name).1 ∧
      (store.readName found name).2.Alike pairing (store'.readName found' name).2 := by
  unfold Store.readName
  rw [halike.isAttached hfound, ← hfound.id, ← hfound.requester]
  split
  · exact ⟨.error _, halike⟩
  · have hresolved := halike.resolveExport hfound.covered name
    generalize store.resolveExport found.id name = resolution at hresolved
    generalize store'.resolveExport found.id name = resolution' at hresolved
    cases hresolved with
    | found hbinding => exact halike.read hbinding found.requester?
    | missing => exact ⟨.ok .undefined, halike⟩
    | ambiguous => exact ⟨.error _, halike⟩

end Alike

/-! ## Reading caches -/

theorem cached_readName (store : Store) (found : Namespace) (name : String) :
    store.Cached (store.readName found name).2 := by
  unfold Store.readName
  split
  · exact .refl store
  · split
    · exact store.cached_read _ _
    · exact .refl store
    · exact .refl store

theorem cached_entriesOf (store : Store) (found : Namespace) :
    store.Cached (store.entriesOf found).2 := by
  unfold Store.entriesOf
  split
  · exact .refl store
  · rename_i keys hkeys
    refine List.foldlRecOn keys _ (motive := fun read => store.Cached (Prod.snd read)) (.refl store) ?_
    rintro ⟨entries, next⟩ hnext key -
    exact hnext.trans (next.cached_readName found key)

theorem cached_spaceToJson (store : Store) (found : Namespace) :
    store.Cached (store.spaceToJson found).2 := by
  have hentries := store.cached_entriesOf found
  unfold Store.spaceToJson
  generalize store.entriesOf found = shown at hentries
  obtain ⟨result, next⟩ := shown
  cases result <;> exact hentries

end Store

end Linkage
