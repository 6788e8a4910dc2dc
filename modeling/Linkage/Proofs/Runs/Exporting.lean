import Linkage.Proofs.Engine.Declaring
import Linkage.Proofs.Runs.LiveBindings
import Linkage.Proofs.Runs.Upholding

/-!
# Exported local names

What a module exports as a local name is decided twice.  Analysis looks for the first import of the
name and passes on where it comes from; linking fills the environment, where the last import of the
name remains.  As long as a module imports the name once, or not at all, what its own body finds
under the name is what everyone else finds under the public one.

* `Engine.upheldAlways_declares` : what is declared and what was analyzed go together in every run.
* `Store.Supplies.resolveExport` : a local name that is imported leads to where the import leads.
* `Machine.exported_names_are_local_ones` : every run.
-/

namespace Linkage

namespace Engine

theorem upheldAlways_declares : UpheldAlways Declares where
  toUpheldAhead := upheldAhead_declares
  reset _ hdeclares ref record hrecord := hdeclares ref record hrecord
  rehost _ _ hdeclares := hdeclares

end Engine

/-- Of entries with different public names each gives its own name by itself. -/
theorem IsExplicit.of_mem {entries : List ExportEntry} {name : String} {entry : ExportEntry}
    (hnames : (entries.filterMap (·.publicName?)).Nodup) (hentry : entry ∈ entries)
    (hname : entry.publicName? = some name) : IsExplicit entries name entry := by
  obtain ⟨before, after, rfl⟩ := List.append_of_mem hentry
  refine ⟨before, after, rfl, hname, fun other hother hsame => ?_⟩
  rw [List.filterMap_append, List.nodup_append] at hnames
  refine hnames.2.2 name (List.mem_filterMap.mpr ⟨other, hother, hsame⟩) name ?_ rfl
  exact List.mem_filterMap.mpr ⟨entry, List.mem_cons_self, hname⟩

namespace Store

variable {store : Store} {id : ModuleId} {ref : RecordRef} {record : Record} {name : String}

/-- What a module exports of its own leads to its cell. -/
theorem OwnsCell.resolveExport {localName : String} {cell : CellRef}
    (howns : store.OwnsCell record localName cell) (hregistered : store.Registered id ref record)
    (hmodern : record.format = .modern) {as_ : String}
    (hentry : IsExplicit record.exportEntries name (.own as_ localName)) :
    store.resolveExport id name = .found (.cell cell) := by
  refine resolveExport_eq_found_iff.mpr
    ⟨.of_end (.own hregistered hmodern hentry howns), fun other hother => ?_⟩
  obtain ⟨last, hpath, hend⟩ := hother
  rcases hpath.cases_head with rfl | ⟨next, hstep, -⟩
  · rcases (exportEnd_of_explicit hregistered hmodern hentry other).mp hend with
      ⟨_, _, hindirect, -⟩ | ⟨_, _, cell', hown, howns', rfl⟩
    · cases hindirect
    · obtain ⟨rfl, rfl⟩ := ExportEntry.own.inj hown
      rw [howns.unique howns']
  · obtain ⟨_, hindirect⟩ := (exportStep_of_explicit hregistered hmodern hentry next).mp hstep
    cases hindirect

/-- What a module passes on leads to where its import leads. -/
theorem Supplies.resolveExport {entry : ImportEntry} {binding : Binding}
    (hsupplies : store.Supplies entry binding) (hregistered : store.Registered id ref record)
    (hmodern : record.format = .modern) {as_ : String}
    (hentry : IsExplicit record.exportEntries name (.indirect as_ entry.source entry.imported)) :
    store.resolveExport id name = .found binding := by
  unfold Supplies at hsupplies
  cases himported : entry.imported with
  | star =>
      rw [himported] at hsupplies hentry
      subst hsupplies
      refine resolveExport_eq_found_iff.mpr
        ⟨.of_end (.star hregistered hmodern hentry), fun other hother => ?_⟩
      obtain ⟨last, hpath, hend⟩ := hother
      rcases hpath.cases_head with rfl | ⟨next, hstep, -⟩
      · rcases (exportEnd_of_explicit hregistered hmodern hentry other).mp hend with
          ⟨_, source, hindirect, rfl⟩ | ⟨_, _, _, hown, -⟩
        · rw [(ExportEntry.indirect.inj hindirect).2.1]
        · cases hown
      · obtain ⟨_, hindirect⟩ := (exportStep_of_explicit hregistered hmodern hentry next).mp hstep
        obtain ⟨-, -, hname⟩ := ExportEntry.indirect.inj hindirect
        cases hname
  | name imported =>
      rw [himported] at hsupplies hentry
      obtain ⟨hoffers, hall⟩ := resolveExport_eq_found_iff.mp hsupplies
      refine resolveExport_eq_found_iff.mpr
        ⟨hoffers.head (.indirect hregistered hmodern hentry), fun other hother => ?_⟩
      obtain ⟨last, hpath, hend⟩ := hother
      rcases hpath.cases_head with rfl | ⟨next, hstep, hrest⟩
      · rcases (exportEnd_of_explicit hregistered hmodern hentry other).mp hend with
          ⟨_, _, hindirect, -⟩ | ⟨_, _, _, hown, -⟩
        · cases hindirect
        · cases hown
      · -- the one step there is leads to what the import names
        obtain ⟨_, hindirect⟩ := (exportStep_of_explicit hregistered hmodern hentry next).mp hstep
        obtain ⟨-, hsource, hname⟩ := ExportEntry.indirect.inj hindirect
        obtain rfl : (entry.source, imported) = next := Prod.ext hsource (ImportName.name.inj hname)
        exact hall other ⟨last, hrest, hend⟩

/-- A local name is the slot that a public name leads to. -/
def SharesSlot (store : Store) (id : ModuleId) (ref : RecordRef) (localName name : String) : Prop :=
  ∃ binding, store.binding? ref localName = some binding ∧
    store.resolveExport id name = .found binding

/-- Where nothing has the local name of default exports, an item that is exported without a source
module shares its slot with the local name, provided that at most one import has that name. -/
theorem shares_of_declares (hclosed : store.Closed) (hspares : store.SparesDefault)
    (himported : store.Imported) (hregistered : store.Registered id ref record)
    (hmodern : record.format = .modern) (hlinked : record.status.hasLinked = true)
    {analysis : Analysis} (hanalysis : record.analysis? = some analysis)
    {declarations : List ExportDeclaration} (hdeclares : analysis.Declares id declarations)
    {declaration : ExportDeclaration} (hdeclaration : declaration ∈ declarations)
    (hown : declaration.source? = none) {localName : String} {alias? : Option String}
    (hitem : .named localName alias? ∈ declaration.items)
    (hsingle : ∀ entry ∈ record.imports, ∀ other ∈ record.imports, entry.as_ = localName →
      other.as_ = localName → entry = other) :
    store.SharesSlot id ref localName (alias?.getD localName) := by
  obtain ⟨entry, hentry, hexport⟩ :=
    hdeclares.items declaration hdeclaration hown _ hitem
  have hentries : record.exportEntries = analysis.exports := by
    rw [Record.exportEntries, hanalysis]
    rfl
  have himports : record.imports = analysis.imports := by
    rw [Record.imports, hanalysis]
    rfl
  have hexplicit (hname : entry.publicName? = some (alias?.getD localName)) :
      IsExplicit record.exportEntries (alias?.getD localName) entry := by
    rw [hentries]
    exact .of_mem hdeclares.names hentry hname
  have hbinding : store.binding? ref localName = record.environment.find? localName := by
    rw [binding?, hregistered.record]
    rfl
  unfold Analysis.exportEntry at hexport
  dsimp only at hexport
  split at hexport
  · -- the name is imported, and the import that analysis found is the only one there is
    rename_i first hfirst
    obtain rfl := Except.ok.inj hexport
    have hmem : first ∈ record.imports := himports ▸ List.mem_of_find?_eq_some hfirst
    have hname : first.as_ = localName := by simpa using List.find?_some hfirst
    obtain ⟨binding, hbound, other, hother, hsame, hsupplies⟩ :=
      himported id ref record hregistered hmodern hlinked first hmem
    obtain rfl := hsingle first hmem other hother hname (hsame.trans hname)
    exact ⟨binding, by rw [hbinding, ← hname, hbound],
      hsupplies.resolveExport hregistered hmodern (hexplicit rfl)⟩
  · obtain rfl := Except.ok.inj hexport
    have hcoherent := hclosed.coherent ref record hregistered.record
    have hownName : OwnName record.exportEntries localName := ⟨_, hentries ▸ hentry⟩
    obtain ⟨cell, howns⟩ :=
      hcoherent.owns (hspares.record hregistered.record) hmodern hlinked hownName
    exact ⟨.cell cell, hbinding.trans howns.1,
      howns.resolveExport hregistered hmodern (hexplicit rfl)⟩

end Store

namespace Machine

theorem declares_perform (place : Place) (config : Config) (acts : List Act) :
    ((new place config).perform acts).session.engine.Declares :=
  Engine.upheldAlways_declares.perform (Engine.declares_new config place.toHost) acts

/-- **In every reachable state, a module that is linked has under every local name that it exports
the very slot that its public name leads to**, provided that at most one of its imports has that
local name, and that no import has the local name of default exports. -/
theorem exported_names_are_local_ones (place : Place) (config : Config) (acts : List Act) :
    let store := ((new place config).perform acts).session.store
    store.SparesDefault →
    ∀ id ref record, store.Registered id ref record → record.format = .modern →
      record.status.hasLinked = true → ∃ source, record.source? = some source ∧
      ∀ declaration ∈ source.exports, declaration.source? = none →
      ∀ localName alias?, .named localName alias? ∈ declaration.items →
        (∀ entry ∈ record.imports, ∀ other ∈ record.imports, entry.as_ = localName →
          other.as_ = localName → entry = other) →
        store.SharesSlot id ref localName (alias?.getD localName) := by
  intro store hspares id ref record hregistered hmodern hlinked
  have hclosed : store.Closed := closed_perform place config acts
  have himported : store.Imported := by
    refine (chain_perform _ acts).imported (living_new place config)
      (closed_perform place config []) hspares (fun id ref record hregistered => ?_)
    cases hregistered.record
  have hanalyzed := ((hclosed.coherent ref record hregistered.record).linked hlinked).analyzed
  obtain ⟨analysis, hanalysis⟩ := Option.isSome_iff_exists.mp hanalyzed
  obtain ⟨source, hsource, hdeclares⟩ :=
    declares_perform place config acts ref record hregistered.record analysis hanalysis
  obtain ⟨found, hfound, hid⟩ := (living_perform place config acts).named id ref hregistered.lookup
  obtain rfl := Option.some.inj (hfound.symm.trans hregistered.record)
  refine ⟨source, hsource, fun declaration hdeclaration hown localName alias? hitem hsingle => ?_⟩
  exact Store.shares_of_declares hclosed hspares himported hregistered hmodern hlinked hanalysis
    (hid ▸ hdeclares hmodern) hdeclaration hown hitem hsingle

/-- A module that passes on what it imports, beside a name of its own. -/
def passage : Shelf :=
  let items := [.named "l" (some "e"), .named "own" none]
  (Shelf.empty.insert "/m.mjs" (((Source.ofBody []).importNamed "/a.mjs" "x" "l").exportItems items
    none)).insert "/a.mjs" ((Source.ofBody []).exportLocal "x")

/-- Both modules are linked, and the first body runs. -/
def passageLinked : List Act := [.call (.evaluate "/m.mjs" none) none, .step]

theorem exported_names_are_local_ones_passage :
    let store := ((new (.shelf passage) .standard).perform passageLinked).session.store
    store.SparesDefault ∧ ∃ ref, store.SharesSlot (.ofPath "/m.mjs") ref "l" "e" ∧
      store.SharesSlot (.ofPath "/m.mjs") ref "own" "own" := by
  intro store
  have hspares : store.SparesDefault := by
    unfold Store.SparesDefault
    decide +kernel
  refine ⟨hspares, ?_⟩
  have hfacts : (store.find? (.ofPath "/m.mjs")).map (fun record =>
      (record.format, record.status, record.imports, record.source?.map (·.exports))) =
      some (.modern, .linked, [⟨.ofPath "/a.mjs", .name "x", "l"⟩],
        some [⟨[.named "l" (some "e"), .named "own" none], none⟩]) := by decide +kernel
  obtain ⟨record, hfind, hfields⟩ := Option.map_eq_some_iff.mp hfacts
  obtain ⟨hmodern, hlinked, himports, hexports⟩ := by simpa using hfields
  obtain ⟨ref, hregistered⟩ := Store.exists_registered_of_find hfind
  obtain ⟨source, hsource, hshares⟩ := exported_names_are_local_ones (.shelf passage) .standard
    passageLinked hspares _ ref record hregistered hmodern (by rw [hlinked]; rfl)
  obtain ⟨found, hfound, hdeclarations⟩ := hexports
  obtain rfl := Option.some.inj (hfound.symm.trans hsource)
  have hmem : (⟨[.named "l" (some "e"), .named "own" none], none⟩ : ExportDeclaration) ∈
      found.exports := by
    rw [hdeclarations]
    exact List.mem_cons_self
  have hsingle (name : String) : ∀ entry ∈ record.imports, ∀ other ∈ record.imports,
      entry.as_ = name → other.as_ = name → entry = other := by
    intro entry hentry other hother _ _
    rw [himports] at hentry hother
    rw [List.mem_singleton.mp hentry, List.mem_singleton.mp hother]
  exact ⟨ref, hshares _ hmem rfl "l" (some "e") (by simp) (hsingle "l"),
    hshares _ hmem rfl "own" none (by simp) (hsingle "own")⟩

/-- A module that imports two names as one, and passes that one on. -/
def doubled : Shelf :=
  let twice := ((Source.ofBody []).importNamed "/a.mjs" "x" "l").importNamed "/a.mjs" "y" "l"
  (Shelf.empty.insert "/m.mjs" (twice.exportAs "l" "e")).insert "/a.mjs"
    (((Source.ofBody []).exportLocal "x").exportLocal "y")

/-- Both modules are linked, and the first body runs. -/
def doubledLinked : List Act := [.call (.evaluate "/m.mjs" none) none, .step]

/-- **The public name of a local one may lead elsewhere.**  The module that imports two names as one
is linked; what its body finds under that name is the second, what it exports is the first. -/
theorem doubled_imports_part :
    let store := ((new (.shelf doubled) .standard).perform doubledLinked).session.store
    store.SparesDefault ∧ ∃ ref record source, store.Registered (.ofPath "/m.mjs") ref record ∧
      record.format = .modern ∧ record.status.hasLinked = true ∧ record.source? = some source ∧
      ⟨[.named "l" (some "e")], none⟩ ∈ source.exports ∧
      ∃ binding other, store.binding? ref "l" = some binding ∧
        store.resolveExport (.ofPath "/m.mjs") "e" = .found other ∧ binding ≠ other := by
  intro store
  have hspares : store.SparesDefault := by
    unfold Store.SparesDefault
    decide +kernel
  refine ⟨hspares, ?_⟩
  have hfacts : (store.find? (.ofPath "/m.mjs")).map (fun record =>
      (record.format, record.status, record.source?.map (·.exports))) =
      some (.modern, .linked, some [⟨[.named "l" (some "e")], none⟩]) := by decide +kernel
  have hbound : (store.lookup? (.ofPath "/m.mjs")).map (fun ref => store.binding? ref "l") =
      some (some (.cell ⟨1⟩)) := by decide +kernel
  have hresolved : store.resolveExport (.ofPath "/m.mjs") "e" = .found (.cell ⟨0⟩) := by
    decide +kernel
  obtain ⟨record, hfind, hfields⟩ := Option.map_eq_some_iff.mp hfacts
  obtain ⟨hmodern, hlinked, source, hsource, hexports⟩ := by simpa using hfields
  obtain ⟨ref, hregistered⟩ := Store.exists_registered_of_find hfind
  rw [hregistered.lookup, Option.map_some, Option.some.injEq] at hbound
  refine ⟨ref, record, source, hregistered, hmodern, by rw [hlinked]; rfl, hsource, ?_,
    .cell ⟨1⟩, .cell ⟨0⟩, hbound, hresolved, by decide⟩
  rw [hexports]
  exact List.mem_cons_self

end Machine

end Linkage
