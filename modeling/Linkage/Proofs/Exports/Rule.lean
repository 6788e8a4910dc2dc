import Linkage.Proofs.Store.Updates
import Linkage.Store.Exported
import Mathlib.Logic.Basic
import Mathlib.Logic.Relation

/-!
# The rule of exported names

A request asks a module for a public name.  `Store.ExportStep` says to which further requests it
leads, `Store.ExportEnd` which binding it gives by itself, and `Store.Offers` which bindings can be
reached from it.  Nothing is said here about the order in which anything is asked, and requests may
go in circles.
-/

namespace Linkage

/-- The first entry that gives a public name by itself. -/
def IsExplicit (entries : List ExportEntry) (name : String) (entry : ExportEntry) : Prop :=
  ∃ before after, entries = before ++ entry :: after ∧ entry.publicName? = some name ∧
    ∀ other ∈ before, other.publicName? ≠ some name

/-- No entry gives a public name by itself. -/
def NoExplicit (entries : List ExportEntry) (name : String) : Prop :=
  ∀ entry ∈ entries, entry.publicName? ≠ some name

namespace Store

/-- The local names that a list of entries exports. -/
def OwnName (entries : List ExportEntry) (name : String) : Prop :=
  ∃ as_, .own as_ name ∈ entries

/-- A request leads to another: along a re-export by name, or, if no entry gives the name, along an
`export *`, which never forwards a default export. -/
inductive ExportStep (store : Store) : Request → Request → Prop
  | indirect {id : ModuleId} {name as_ imported : String} {ref : RecordRef} {record : Record}
      {source : ModuleId} (hregistered : store.Registered id ref record)
      (hmodern : record.format = .modern)
      (hentry : IsExplicit record.exportEntries name (.indirect as_ source (.name imported))) :
      ExportStep store (id, name) (source, imported)
  | star {id : ModuleId} {name : String} {ref : RecordRef} {record : Record} {source : ModuleId}
      (hregistered : store.Registered id ref record) (hmodern : record.format = .modern)
      (hnone : NoExplicit record.exportEntries name) (hname : name ≠ "default")
      (hsource : .star source ∈ record.exportEntries) :
      ExportStep store (id, name) (source, name)

/-- A request gives a binding by itself: the namespace of a module, a cell of the module asked, or
the exports value of a legacy module and the properties it is said to have. -/
inductive ExportEnd (store : Store) : Request → Binding → Prop
  | star {id : ModuleId} {name as_ : String} {ref : RecordRef} {record : Record}
      {source : ModuleId} (hregistered : store.Registered id ref record)
      (hmodern : record.format = .modern)
      (hentry : IsExplicit record.exportEntries name (.indirect as_ source .star)) :
      ExportEnd store (id, name) (.star source)
  | own {id : ModuleId} {name as_ localName : String} {ref : RecordRef} {record : Record}
      {cell : CellRef} (hregistered : store.Registered id ref record)
      (hmodern : record.format = .modern)
      (hentry : IsExplicit record.exportEntries name (.own as_ localName))
      (hcell : store.OwnsCell record localName cell) :
      ExportEnd store (id, name) (.cell cell)
  | exports {id : ModuleId} {ref : RecordRef} {record : Record}
      (hregistered : store.Registered id ref record) (hlegacy : record.format = .legacy) :
      ExportEnd store (id, "default") (.exports ref none)
  | property {id : ModuleId} {name : String} {ref : RecordRef} {record : Record}
      {entry : ExportEntry} (hregistered : store.Registered id ref record)
      (hlegacy : record.format = .legacy) (hname : name ≠ "default")
      (hentry : entry ∈ record.exportEntries) (hhint : entry.publicName? = some name) :
      ExportEnd store (id, name) (.exports ref (some name))

/-- A binding can be reached from a request. -/
def Offers (store : Store) (request : Request) (binding : Binding) : Prop :=
  ∃ last, Relation.ReflTransGen store.ExportStep request last ∧ store.ExportEnd last binding

theorem Offers.of_end {store : Store} {request : Request} {binding : Binding}
    (hend : store.ExportEnd request binding) : store.Offers request binding :=
  ⟨request, .refl, hend⟩

theorem Offers.head {store : Store} {request next : Request} {binding : Binding}
    (hstep : store.ExportStep request next) (hoffers : store.Offers next binding) :
    store.Offers request binding := by
  obtain ⟨last, hpath, hend⟩ := hoffers
  exact ⟨last, .head hstep hpath, hend⟩

end Store

theorem explicitExport?_eq_some_iff {entries : List ExportEntry} {name : String}
    {entry : ExportEntry} :
    Store.explicitExport? entries name = some entry ↔ IsExplicit entries name entry := by
  unfold Store.explicitExport? IsExplicit
  rw [List.find?_eq_some_iff_append]
  constructor
  · rintro ⟨hname, before, after, hentries, hbefore⟩
    exact ⟨before, after, hentries, by simpa using hname, fun other hother => by
      simpa using hbefore other hother⟩
  · rintro ⟨before, after, hentries, hname, hbefore⟩
    exact ⟨by simpa using hname, before, after, hentries, fun other hother => by
      simpa using hbefore other hother⟩

theorem explicitExport?_eq_none_iff {entries : List ExportEntry} {name : String} :
    Store.explicitExport? entries name = none ↔ NoExplicit entries name := by
  simp [Store.explicitExport?, NoExplicit]

theorem mem_starSources {entries : List ExportEntry} {source : ModuleId} :
    source ∈ Store.starSources entries ↔ .star source ∈ entries := by
  unfold Store.starSources
  rw [List.mem_filterMap]
  constructor
  · rintro ⟨entry, hentry, hsource⟩
    cases entry with
    | own as_ name => simp at hsource
    | indirect as_ source imported => simp at hsource
    | star found =>
        obtain rfl : found = source := by simpa using hsource
        exact hentry
  · intro hentry
    exact ⟨.star source, hentry, rfl⟩

/-- The first entry of a name is one entry only. -/
theorem IsExplicit.unique {entries : List ExportEntry} {name : String}
    {entry entry' : ExportEntry} (hentry : IsExplicit entries name entry)
    (hentry' : IsExplicit entries name entry') : entry' = entry :=
  Option.some.inj ((explicitExport?_eq_some_iff.mpr hentry').symm.trans
    (explicitExport?_eq_some_iff.mpr hentry))

theorem IsExplicit.mem {entries : List ExportEntry} {name : String} {entry : ExportEntry}
    (hentry : IsExplicit entries name entry) : entry ∈ entries := by
  obtain ⟨before, after, rfl, -, -⟩ := hentry
  simp

theorem IsExplicit.publicName {entries : List ExportEntry} {name : String} {entry : ExportEntry}
    (hentry : IsExplicit entries name entry) : entry.publicName? = some name := by
  obtain ⟨before, after, rfl, hname, -⟩ := hentry
  exact hname

namespace Store

variable {store : Store} {id : ModuleId} {ref : RecordRef} {record : Record} {name : String}

/-- Where the record of a module says that a request leads. -/
theorem exportStep_iff (hregistered : store.Registered id ref record) {next : Request} :
    store.ExportStep (id, name) next ↔ record.format = .modern ∧
      ((∃ as_, IsExplicit record.exportEntries name (.indirect as_ next.1 (.name next.2))) ∨
        (NoExplicit record.exportEntries name ∧ name ≠ "default" ∧
          .star next.1 ∈ record.exportEntries ∧ next.2 = name)) := by
  constructor
  · intro hstep
    cases hstep with
    | indirect hregistered' hmodern hentry =>
        obtain ⟨rfl, rfl⟩ := hregistered.unique hregistered'
        exact ⟨hmodern, .inl ⟨_, hentry⟩⟩
    | star hregistered' hmodern hnone hname hsource =>
        obtain ⟨rfl, rfl⟩ := hregistered.unique hregistered'
        exact ⟨hmodern, .inr ⟨hnone, hname, hsource, rfl⟩⟩
  · rintro ⟨hmodern, ⟨as_, hentry⟩ | ⟨hnone, hname, hsource, hnext⟩⟩
    · exact .indirect hregistered hmodern hentry
    · obtain ⟨source, nextName⟩ := next
      subst hnext
      exact .star hregistered hmodern hnone hname hsource

/-- What the record of a module says that a request gives by itself. -/
theorem exportEnd_iff (hregistered : store.Registered id ref record) {binding : Binding} :
    store.ExportEnd (id, name) binding ↔
      (record.format = .modern ∧
        ((∃ as_ source, IsExplicit record.exportEntries name (.indirect as_ source .star) ∧
            binding = .star source) ∨
          ∃ as_ localName cell, IsExplicit record.exportEntries name (.own as_ localName) ∧
            store.OwnsCell record localName cell ∧ binding = .cell cell)) ∨
      (record.format = .legacy ∧
        ((name = "default" ∧ binding = .exports ref none) ∨
          (name ≠ "default" ∧ ¬ NoExplicit record.exportEntries name ∧
            binding = .exports ref (some name)))) := by
  constructor
  · intro hend
    cases hend with
    | star hregistered' hmodern hentry =>
        obtain ⟨rfl, rfl⟩ := hregistered.unique hregistered'
        exact .inl ⟨hmodern, .inl ⟨_, _, hentry, rfl⟩⟩
    | own hregistered' hmodern hentry hcell =>
        obtain ⟨rfl, rfl⟩ := hregistered.unique hregistered'
        exact .inl ⟨hmodern, .inr ⟨_, _, _, hentry, hcell, rfl⟩⟩
    | exports hregistered' hlegacy =>
        obtain ⟨rfl, rfl⟩ := hregistered.unique hregistered'
        exact .inr ⟨hlegacy, .inl ⟨rfl, rfl⟩⟩
    | property hregistered' hlegacy hname hentry hhint =>
        obtain ⟨rfl, rfl⟩ := hregistered.unique hregistered'
        exact .inr ⟨hlegacy, .inr ⟨hname, fun hnone => hnone _ hentry hhint, rfl⟩⟩
  · rintro (⟨hmodern, ⟨as_, source, hentry, rfl⟩ | ⟨as_, localName, cell, hentry, hcell, rfl⟩⟩ |
      ⟨hlegacy, ⟨rfl, rfl⟩ | ⟨hname, hhint, rfl⟩⟩)
    · exact .star hregistered hmodern hentry
    · exact .own hregistered hmodern hentry hcell
    · exact .exports hregistered hlegacy
    · simp only [NoExplicit, ne_eq, not_forall, not_not] at hhint
      obtain ⟨entry, hentry, hhint⟩ := hhint
      exact .property hregistered hlegacy hname hentry hhint

theorem not_exportStep_of_legacy (hregistered : store.Registered id ref record)
    (hlegacy : record.format = .legacy) (next : Request) :
    ¬ store.ExportStep (id, name) next := by
  simp [exportStep_iff hregistered, hlegacy]

/-- With an explicit entry a request leads on only if the entry re-exports a name. -/
theorem exportStep_of_explicit (hregistered : store.Registered id ref record)
    (hmodern : record.format = .modern) {entry : ExportEntry}
    (hentry : IsExplicit record.exportEntries name entry) (next : Request) :
    store.ExportStep (id, name) next ↔ ∃ as_, entry = .indirect as_ next.1 (.name next.2) := by
  rw [exportStep_iff hregistered]
  constructor
  · rintro ⟨-, ⟨as_, hentry'⟩ | ⟨hnone, -⟩⟩
    · exact ⟨as_, (hentry.unique hentry').symm⟩
    · exact absurd hentry.publicName (hnone entry hentry.mem)
  · rintro ⟨as_, rfl⟩
    exact ⟨hmodern, .inl ⟨as_, hentry⟩⟩

/-- With an explicit entry a request gives something by itself only if the entry exports a
namespace or a cell of the module. -/
theorem exportEnd_of_explicit (hregistered : store.Registered id ref record)
    (hmodern : record.format = .modern) {entry : ExportEntry}
    (hentry : IsExplicit record.exportEntries name entry) (binding : Binding) :
    store.ExportEnd (id, name) binding ↔
      (∃ as_ source, entry = .indirect as_ source .star ∧ binding = .star source) ∨
        ∃ as_ localName cell, entry = .own as_ localName ∧
          store.OwnsCell record localName cell ∧ binding = .cell cell := by
  rw [exportEnd_iff hregistered]
  constructor
  · rintro (⟨-, ⟨as_, source, hentry', rfl⟩ | ⟨as_, localName, cell, hentry', hcell, rfl⟩⟩ |
      ⟨hlegacy, -⟩)
    · exact .inl ⟨as_, source, (hentry.unique hentry').symm, rfl⟩
    · exact .inr ⟨as_, localName, cell, (hentry.unique hentry').symm, hcell, rfl⟩
    · simp [hmodern] at hlegacy
  · rintro (⟨as_, source, rfl, rfl⟩ | ⟨as_, localName, cell, rfl, hcell, rfl⟩)
    · exact .inl ⟨hmodern, .inl ⟨as_, source, hentry, rfl⟩⟩
    · exact .inl ⟨hmodern, .inr ⟨as_, localName, cell, hentry, hcell, rfl⟩⟩

/-- Without an explicit entry a request is passed on to the sources of `export *`. -/
theorem exportStep_of_noExplicit (hregistered : store.Registered id ref record)
    (hmodern : record.format = .modern) (hnone : NoExplicit record.exportEntries name)
    {next : Request} :
    store.ExportStep (id, name) next ↔
      name ≠ "default" ∧ .star next.1 ∈ record.exportEntries ∧ next.2 = name := by
  rw [exportStep_iff hregistered]
  constructor
  · rintro ⟨-, ⟨as_, hentry⟩ | ⟨-, hpassed⟩⟩
    · exact absurd hentry.publicName (hnone _ hentry.mem)
    · exact hpassed
  · intro hpassed
    exact ⟨hmodern, .inr ⟨hnone, hpassed⟩⟩

/-- Without an explicit entry a modern module gives nothing by itself. -/
theorem not_exportEnd_of_noExplicit (hregistered : store.Registered id ref record)
    (hmodern : record.format = .modern) (hnone : NoExplicit record.exportEntries name)
    (binding : Binding) : ¬ store.ExportEnd (id, name) binding := by
  rw [exportEnd_iff hregistered]
  rintro (⟨-, ⟨as_, source, hentry, -⟩ | ⟨as_, localName, cell, hentry, -⟩⟩ | ⟨hlegacy, -⟩)
  · exact hnone _ hentry.mem hentry.publicName
  · exact hnone _ hentry.mem hentry.publicName
  · simp [hmodern] at hlegacy

end Store

end Linkage
