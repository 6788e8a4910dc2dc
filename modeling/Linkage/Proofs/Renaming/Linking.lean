import Linkage.Proofs.Renaming.Stores
import Linkage.Store.Linking

/-!
# Resolving names and linking under new names

What a public name leads to, which names a module has, and what linking binds is the same in stores
that mirror each other.

* `Store.Mirrors.resolveExport`, `Store.Mirrors.exportedNames`, `Store.Mirrors.readName` : names.
* `Store.Mirrors.link` : linking.
-/

namespace Linkage

variable {names : Renaming}

namespace Store

variable {store store' : Store}

/-! ## Names -/

/-- Whatever is asked of the sources of `export *` is answered alike. -/
theorem resolveStars_rename {resolve resolve' : ModuleId → List Request →
      Resolution × List Request}
    (hsame : ∀ source asked, resolve' source asked =
      ((resolve source asked).1.rename names, (resolve source asked).2))
    (sources : List ModuleId) (known? : Option Binding) (asked : List Request) :
    resolveStars resolve' sources (known?.map (Binding.rename names)) asked =
      ((resolveStars resolve sources known? asked).1.rename names,
        (resolveStars resolve sources known? asked).2) := by
  induction sources generalizing known? asked with
  | nil => cases known? <;> rfl
  | cons source rest ih =>
      rw [resolveStars, resolveStars, hsame]
      obtain ⟨answer, asked'⟩ := resolve source asked
      cases answer with
      | ambiguous => rfl
      | missing => exact ih known? asked'
      | found binding =>
          cases known? with
          | none => exact ih (some binding) asked'
          | some known =>
              by_cases hknown : known = binding
              · subst hknown
                simpa [Resolution.rename] using ih (some known) asked'
              · have hother : known.rename names ≠ binding.rename names :=
                  fun heq => hknown (Binding.rename_injective names heq)
                simp [Resolution.rename, hknown, hother]

theorem resolveLegacy_rename (ref : RecordRef) (record : Record) (name : String) :
    resolveLegacy (names.record ref) (record.rename names) name =
      (resolveLegacy ref record name).rename names := by
  unfold resolveLegacy
  rw [Record.rename_exportEntries]
  split
  · rfl
  · split <;> rfl

theorem Mirrors.resolveWithin (hmirrors : store.Mirrors names store') (fuel : Nat) (id : ModuleId)
    (name : String) (asked : List Request) :
    store'.resolveWithin fuel id name asked =
      ((store.resolveWithin fuel id name asked).1.rename names,
        (store.resolveWithin fuel id name asked).2) := by
  induction fuel generalizing id name asked with
  | zero => rfl
  | succ fuel ih =>
      rw [Store.resolveWithin, Store.resolveWithin, hmirrors.lookup, hmirrors.find]
      cases store.lookup? id with
      | none => rfl
      | some ref =>
          cases store.find? id with
          | none => rfl
          | some record =>
              dsimp only [Option.map_some]
              split
              · rfl
              · rw [Record.rename_format, Record.rename_exportEntries]
                split
                · rw [resolveLegacy_rename]
                · have hstars := resolveStars_rename
                    (fun source asked => ih source name asked)
                    (starSources record.exportEntries) none (asked ++ [(id, name)])
                  split
                  · rw [hmirrors.ownCell]
                    cases store.ownCell? record _ <;> rfl
                  · rfl
                  · exact ih _ _ _
                  · split
                    · rfl
                    · exact hstars

theorem Mirrors.requestBound (hmirrors : store.Mirrors names store') :
    store'.requestBound = store.requestBound := by
  have hcount : store'.entryCount = store.entryCount := by
    unfold entryCount
    rw [hmirrors.ids]
    congr 1
    funext id count
    rw [hmirrors.find, Option.map_map]
    rfl
  unfold Store.requestBound
  rw [hcount, hmirrors.size]

theorem Mirrors.resolveExport (hmirrors : store.Mirrors names store') (id : ModuleId)
    (name : String) :
    store'.resolveExport id name = (store.resolveExport id name).rename names := by
  unfold Store.resolveExport
  rw [hmirrors.requestBound, hmirrors.resolveWithin]

theorem Mirrors.namesWithin (hmirrors : store.Mirrors names store') (fuel : Nat) (id : ModuleId)
    (visited : List ModuleId) :
    store'.namesWithin fuel id visited = store.namesWithin fuel id visited := by
  induction fuel generalizing id visited with
  | zero => rfl
  | succ fuel ih =>
      rw [Store.namesWithin, Store.namesWithin, hmirrors.find]
      split
      · rfl
      · cases store.find? id with
        | none => rfl
        | some record =>
            dsimp only [Option.map_some]
            rw [Record.rename_format, Record.rename_exportEntries]
            cases record.format with
            | legacy => rfl
            | modern =>
                dsimp only
                congr 1
                funext known source
                rw [ih]

theorem Mirrors.exportedNames (hmirrors : store.Mirrors names store') (id : ModuleId) :
    store'.exportedNames id = store.exportedNames id := by
  unfold Store.exportedNames
  rw [hmirrors.size, hmirrors.namesWithin]

theorem Mirrors.readName (hmirrors : store.Mirrors names store') (found : Namespace)
    (name : String) :
    (store'.readName (found.rename names) name).1 =
        (store.readName found name).1.map (Value.rename names) ∧
      (store.readName found name).2.Mirrors names
        (store'.readName (found.rename names) name).2 := by
  have hid : (found.rename names).id = found.id := rfl
  have hrequester : (found.rename names).requester? = found.requester? := rfl
  unfold Store.readName
  rw [hmirrors.isAttached, hid, hrequester, hmirrors.resolveExport]
  split
  · exact ⟨rfl, hmirrors⟩
  · cases store.resolveExport found.id name with
    | missing | ambiguous => exact ⟨rfl, hmirrors⟩
    | found binding => exact hmirrors.read binding found.requester?

theorem Mirrors.keysOf (hmirrors : store.Mirrors names store') (found : Namespace) :
    store'.keysOf (found.rename names) = store.keysOf found := by
  have hid : (found.rename names).id = found.id := rfl
  unfold Store.keysOf
  rw [hmirrors.isAttached, hid, hmirrors.exportedNames]

/-- Reading all names of a namespace does the same to both stores. -/
theorem Mirrors.entriesOf (hmirrors : store.Mirrors names store') (found : Namespace) :
    (store.entriesOf found).2.Mirrors names (store'.entriesOf (found.rename names)).2 := by
  unfold Store.entriesOf
  rw [hmirrors.keysOf]
  cases store.keysOf found with
  | error error => exact hmirrors
  | ok keys =>
      -- each entry is read in turn
      refine List.foldl_rel (r := fun (shown shown' :
        List (String × Except ModuleError Value) × Store) => shown.2.Mirrors names shown'.2)
        hmirrors ?_
      exact fun key _ shown shown' hread => (hread.readName found key).2

theorem Mirrors.spaceToJson (hmirrors : store.Mirrors names store') (found : Namespace) :
    (store.spaceToJson found).2.Mirrors names (store'.spaceToJson (found.rename names)).2 := by
  have hentries := hmirrors.entriesOf found
  unfold Store.spaceToJson
  generalize store.entriesOf found = shown at hentries
  generalize store'.entriesOf (found.rename names) = shown' at hentries
  obtain ⟨result, store⟩ := shown
  obtain ⟨result', store'⟩ := shown'
  cases result <;> cases result' <;> exact hentries

/-! ## Linking -/

theorem Mirrors.pendingLinks (hmirrors : store.Mirrors names store') (order : List ModuleId) :
    store'.pendingLinks order = (store.pendingLinks order).map names.record := by
  unfold Store.pendingLinks
  have hlookup : order.filterMap store'.lookup? =
      (order.filterMap store.lookup?).map names.record := by
    rw [List.map_filterMap]
    congr 1
    funext id
    exact hmirrors.lookup id
  rw [hlookup, List.filter_map]
  congr 1
  refine List.filter_congr (fun ref _ => ?_)
  dsimp only [Function.comp_apply]
  rw [hmirrors.record]
  cases store.record? ref with
  | none => rfl
  | some record =>
      dsimp only [Option.map_some]
      rw [Record.rename_format, Record.rename_status]

/-- A fold that does the same to both stores at each record. -/
theorem Mirrors.foldl {f : Store → RecordRef → Store}
    (hstep : ∀ {store store' : Store} ref, store.Mirrors names store' →
      (f store ref).Mirrors names (f store' (names.record ref)))
    (hmirrors : store.Mirrors names store') (refs : List RecordRef) :
    (refs.foldl f store).Mirrors names ((refs.map names.record).foldl f store') := by
  induction refs generalizing store store' with
  | nil => exact hmirrors
  | cons ref rest ih => exact ih (hstep ref hmirrors)

theorem Mirrors.beginLink (hmirrors : store.Mirrors names store') (ref : RecordRef) :
    (store.beginLink ref).Mirrors names (store'.beginLink (names.record ref)) := by
  unfold Store.beginLink
  rw [hmirrors.record]
  cases store.record? ref with
  | none => exact hmirrors
  | some record =>
      dsimp only [Option.map_some]
      rw [Record.rename_exportEntries, Record.rename_id]
      have hbegun : (store.modify ref (fun record =>
            { record with status := .linking, environment := {} })).Mirrors names
          (store'.modify (names.record ref) (fun record =>
            { record with status := .linking, environment := {} })) :=
        hmirrors.modify ref (fun record => rfl)
      generalize store.modify ref _ = begun at hbegun ⊢
      generalize store'.modify (names.record ref) _ = begun' at hbegun ⊢
      induction record.exportEntries generalizing begun begun' with
      | nil => exact hbegun
      | cons entry rest ih =>
          refine ih _ _ ?_
          cases entry with
          | indirect | star => exact hbegun
          | own as_ name =>
              dsimp only
              rw [hbegun.record]
              cases begun.record? ref with
              | none => exact (hbegun.declare ref record.id name).2
              | some found =>
                  dsimp only [Option.map_some, Option.bind_some]
                  rw [hbegun.ownCell]
                  cases begun.ownCell? found name with
                  | none => exact (hbegun.declare ref record.id name).2
                  | some cell => exact hbegun

theorem Mirrors.undoLink (hmirrors : store.Mirrors names store') (ref : RecordRef) :
    (store.undoLink ref).Mirrors names (store'.undoLink (names.record ref)) :=
  hmirrors.modify ref (fun _ => rfl)

theorem Mirrors.resolveImport (hmirrors : store.Mirrors names store') (source : ModuleId)
    (name : String) : store'.resolveImport source name =
      (store.resolveImport source name).map (Binding.rename names) := by
  unfold Store.resolveImport
  rw [hmirrors.resolveExport]
  cases store.resolveExport source name <;> rfl

theorem Mirrors.bindImport (hmirrors : store.Mirrors names store') (ref : RecordRef)
    (entry : ImportEntry) :
    Matches (Mirrors names) (store.bindImport ref entry)
      (store'.bindImport (names.record ref) entry) := by
  unfold Store.bindImport
  cases entry.imported with
  | star => exact .ok (hmirrors.bind ref entry.as_ (.star entry.source))
  | name name =>
      dsimp only
      rw [hmirrors.resolveImport]
      cases store.resolveImport entry.source name with
      | error error => exact .error error
      | ok binding => exact .ok (hmirrors.bind ref entry.as_ binding)

theorem Mirrors.checkExport (hmirrors : store.Mirrors names store') (entry : ExportEntry) :
    store'.checkExport entry = store.checkExport entry := by
  unfold Store.checkExport
  split
  · rw [hmirrors.resolveImport]
    cases store.resolveImport _ _ <;> rfl
  · rfl

/-- A fold that may fail, and does the same to both stores at each item. -/
theorem Mirrors.foldlM {α α' : Type} {g : α → α'} {f : Store → α → Except ModuleError Store}
    {f' : Store → α' → Except ModuleError Store}
    (hstep : ∀ {store store' : Store} item, store.Mirrors names store' →
      Matches (Mirrors names) (f store item) (f' store' (g item)))
    (hmirrors : store.Mirrors names store') (items : List α) :
    Matches (Mirrors names) (items.foldlM f store) ((items.map g).foldlM f' store') := by
  induction items generalizing store store' with
  | nil => exact .ok hmirrors
  | cons item rest ih =>
      rw [List.map_cons, List.foldlM_cons, List.foldlM_cons]
      have hitem := hstep item hmirrors
      generalize f store item = result at hitem
      generalize f' store' (g item) = result' at hitem
      cases hitem with
      | error error => exact .error error
      | ok hnext => exact ih hnext

theorem Mirrors.bindImports (hmirrors : store.Mirrors names store') (ref : RecordRef) :
    Matches (Mirrors names) (store.bindImports ref) (store'.bindImports (names.record ref)) := by
  unfold Store.bindImports
  have hentries : ∀ {α : Type} (f : Record → α), (∀ record, f (record.rename names) = f record) →
      (store'.record? (names.record ref)).map f = (store.record? ref).map f := by
    intro α f hsame
    rw [hmirrors.record, Option.map_map]
    congr 1
    funext record
    exact hsame record
  rw [hentries (·.imports) (fun _ => rfl), hentries (·.exportEntries) (fun _ => rfl)]
  dsimp only
  generalize ((store.record? ref).map (·.imports)).getD [] = entries
  generalize ((store.record? ref).map (·.exportEntries)).getD [] = reexports
  have hbound : Matches (Mirrors names)
      (entries.foldlM (fun store entry => store.bindImport ref entry) store)
      ((entries.map (fun entry => entry)).foldlM
        (fun store entry => store.bindImport (names.record ref) entry) store') :=
    hmirrors.foldlM (fun entry hmirrors => hmirrors.bindImport ref entry) entries
  rw [List.map_id'] at hbound
  generalize entries.foldlM (fun store entry => store.bindImport ref entry) store = bound
    at hbound ⊢
  generalize entries.foldlM (fun store entry => store.bindImport (names.record ref) entry) store' =
    bound' at hbound ⊢
  cases hbound with
  | error error => exact .error error
  | @ok next next' hmirrors' =>
      have hchecks : reexports.forM next'.checkExport = reexports.forM next.checkExport := by
        congr 1
        funext entry
        exact hmirrors'.checkExport entry
      show Matches (Mirrors names) (reexports.forM next.checkExport >>= fun _ => pure next)
        (reexports.forM next'.checkExport >>= fun _ => pure next')
      rw [hchecks]
      cases reexports.forM next.checkExport with
      | error error => exact .error error
      | ok _ => exact .ok hmirrors'

theorem Mirrors.link (hmirrors : store.Mirrors names store') (order : List ModuleId) :
    (store'.link order).1 = (store.link order).1 ∧
      (store.link order).2.Mirrors names (store'.link order).2 := by
  unfold Store.link
  dsimp only
  rw [hmirrors.pendingLinks]
  have hbegun := hmirrors.foldl (fun ref hmirrors => hmirrors.beginLink ref)
    (store.pendingLinks order)
  have hbound : Matches (Mirrors names)
      ((store.pendingLinks order).foldlM Store.bindImports _)
      (((store.pendingLinks order).map names.record).foldlM Store.bindImports _) :=
    hbegun.foldlM (fun ref hmirrors => hmirrors.bindImports ref) (store.pendingLinks order)
  generalize (store.pendingLinks order).foldl Store.beginLink store = begun at hbegun hbound ⊢
  generalize ((store.pendingLinks order).map names.record).foldl Store.beginLink store' = begun'
    at hbegun hbound ⊢
  generalize (store.pendingLinks order).foldlM Store.bindImports begun = bound at hbound ⊢
  generalize ((store.pendingLinks order).map names.record).foldlM Store.bindImports begun' = bound'
    at hbound ⊢
  cases hbound with
  | error error =>
      exact ⟨rfl, hbegun.foldl (fun ref hmirrors => hmirrors.undoLink ref)
        (store.pendingLinks order)⟩
  | ok hmirrors' =>
      exact ⟨rfl, hmirrors'.foldl (fun ref hmirrors => hmirrors.setStatus ref .linked)
        (store.pendingLinks order)⟩

end Store

end Linkage
