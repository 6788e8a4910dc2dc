import Linkage.Proofs.Engine.Attempts
import Linkage.Proofs.Fallible

/-!
# What an analysis is like

Analyzing a module registers every module it asks for before the analysis is kept, so an analysis
that is kept is sound and asks only for modules that are registered.  It fails with an error of the
host, or with one that says what is wrong with a declaration or a specifier.
-/

namespace Linkage

/-- The modules that are walked after a module: those it asks for, unless it is a legacy module. -/
def Record.dependencies (record : Record) : List ModuleId :=
  match record.format with
  | .modern => record.requested
  | .legacy => []

/-- Every module asked for is registered. -/
def Analysis.Known (analysis : Analysis) (store : Store) : Prop :=
  ∀ id ∈ analysis.requested, (store.lookup? id).isSome

namespace Analysis

variable {analysis : Analysis} {store : Store}

theorem mem_requested_request (analysis : Analysis) (id : ModuleId) :
    id ∈ (analysis.request id).requested := by
  unfold request
  split
  · assumption
  · simp

theorem requested_subset_request (analysis : Analysis) (id : ModuleId) :
    analysis.requested ⊆ (analysis.request id).requested := by
  unfold request
  split
  · exact fun _ hmem => hmem
  · exact fun _ hmem => List.mem_append_left _ hmem

/-- A module that is asked for has been asked for before, or it is the one asked for now. -/
theorem mem_request_cases (analysis : Analysis) {id other : ModuleId}
    (hother : other ∈ (analysis.request id).requested) : other ∈ analysis.requested ∨ id = other := by
  unfold request at hother
  split at hother
  · exact .inl hother
  · exact (List.mem_append.mp hother).imp (fun hbefore => hbefore)
      (fun hlast => (List.mem_singleton.mp hlast).symm)

@[simp] theorem imports_request (analysis : Analysis) (id : ModuleId) :
    (analysis.request id).imports = analysis.imports := by
  unfold request
  split <;> rfl

@[simp] theorem exports_request (analysis : Analysis) (id : ModuleId) :
    (analysis.request id).exports = analysis.exports := by
  unfold request
  split <;> rfl

theorem Sound.request (hsound : analysis.Sound) (id : ModuleId) : (analysis.request id).Sound where
  imports entry hentry :=
    requested_subset_request analysis id (hsound.imports entry (by simpa using hentry))
  exports entry hentry source hsource :=
    requested_subset_request analysis id
      (hsound.exports entry (by simpa using hentry) source hsource)
  own as_ name hentry hname entry himport :=
    hsound.own as_ name (by simpa using hentry) hname entry (by simpa using himport)

theorem Known.request (hknown : analysis.Known store) {id : ModuleId}
    (hid : (store.lookup? id).isSome) : (analysis.request id).Known store := by
  intro other hother
  unfold Analysis.request at hother
  split at hother
  · exact hknown other hother
  · rcases List.mem_append.mp hother with hother | hother
    · exact hknown other hother
    · rw [List.mem_singleton.mp hother]
      exact hid

theorem Known.lasting (analysis : Analysis) : Store.Lasting analysis.Known := by
  intro store store' htouch hknown id hid
  obtain ⟨ref, hlookup⟩ := Option.isSome_iff_exists.mp (hknown id hid)
  rw [htouch.lookup hlookup]
  rfl

/-- An exported item is either an own name, which no import has unless it is the default, or it
comes from the module of an import or of the declaration. -/
theorem exportEntry_cases {id : ModuleId} {imports : List ImportEntry} {source? : Option ModuleId}
    {item : ExportItem} {entry : ExportEntry}
    (hentry : exportEntry id imports source? item = .ok entry) :
    (∃ as_ name, entry = .own as_ name ∧
        (name ≠ defaultLocal → ∀ found ∈ imports, found.as_ ≠ name)) ∨
      ∃ source, entry.source? = some source ∧ (∀ as_ name, entry ≠ .own as_ name) ∧
        (source? = some source ∨ ∃ found ∈ imports, found.source = source) := by
  unfold exportEntry at hentry
  split at hentry
  · obtain rfl := Except.ok.inj hentry
    exact .inl ⟨_, _, rfl, fun hname => absurd rfl hname⟩
  · obtain rfl := Except.ok.inj hentry
    exact .inr ⟨_, rfl, nofun, .inl rfl⟩
  · -- a name that is imported is passed on from where it comes from
    split at hentry
    · rename_i found hfound
      obtain rfl := Except.ok.inj hentry
      exact .inr ⟨_, rfl, nofun, .inr ⟨found, List.mem_of_find?_eq_some hfound, rfl⟩⟩
    · rename_i hnone
      obtain rfl := Except.ok.inj hentry
      refine .inl ⟨_, _, rfl, fun _ found hfound => ?_⟩
      simpa using List.find?_eq_none.mp hnone found hfound
  · obtain rfl := Except.ok.inj hentry
    exact .inr ⟨_, rfl, nofun, .inl rfl⟩
  · obtain rfl := Except.ok.inj hentry
    exact .inr ⟨_, rfl, nofun, .inl rfl⟩
  · obtain rfl := Except.ok.inj hentry
    exact .inr ⟨_, rfl, nofun, .inl rfl⟩
  · cases hentry
  · cases hentry

/-- An entry that is added comes last. -/
theorem addExport_eq_ok {id : ModuleId} {entry : ExportEntry} {analysis' : Analysis}
    (hadded : analysis.addExport id entry = .ok analysis') :
    analysis' = { analysis with exports := analysis.exports ++ [entry] } := by
  unfold Analysis.addExport at hadded
  split at hadded
  · split at hadded
    · cases hadded
    · exact (Except.ok.inj hadded).symm
  · exact (Except.ok.inj hadded).symm

/-- An item of an export declaration becomes an entry of a sound analysis. -/
theorem Sound.addExport (hsound : analysis.Sound) {id : ModuleId} {source? : Option ModuleId}
    {item : ExportItem} {entry : ExportEntry} {analysis' : Analysis}
    (hsource : ∀ source, source? = some source → source ∈ analysis.requested)
    (hentry : exportEntry id analysis.imports source? item = .ok entry)
    (hadded : analysis.addExport id entry = .ok analysis') :
    analysis'.Sound ∧ analysis'.requested = analysis.requested := by
  have hcases := exportEntry_cases hentry
  obtain rfl := addExport_eq_ok hadded
  refine ⟨⟨hsound.imports, ?_, ?_⟩, rfl⟩
  · intro other hother source hfrom
    rcases List.mem_append.mp hother with hother | hother
    · exact hsound.exports other hother source hfrom
    · obtain rfl := List.mem_singleton.mp hother
      obtain ⟨_, _, rfl, -⟩ | ⟨found, hfound, -, hdeclared | ⟨import_, himport, rfl⟩⟩ := hcases
      · cases hfrom
      · obtain rfl := Option.some.inj (hfound.symm.trans hfrom)
        exact hsource found hdeclared
      · obtain rfl := Option.some.inj (hfound.symm.trans hfrom)
        exact hsound.imports import_ himport
  · intro as_ name hother hname
    rcases List.mem_append.mp hother with hother | hother
    · exact hsound.own as_ name hother hname
    · obtain rfl := List.mem_singleton.mp hother
      obtain ⟨_, _, hown, hapart⟩ | ⟨_, -, hnot, -⟩ := hcases
      · obtain ⟨-, rfl⟩ := ExportEntry.own.inj hown
        exact hapart hname
      · exact absurd rfl (hnot as_ name)

theorem Sound.addItems (hsound : analysis.Sound) {id : ModuleId} {source? : Option ModuleId}
    {items : List ExportItem} {analysis' : Analysis}
    (hsource : ∀ source, source? = some source → source ∈ analysis.requested)
    (hadded : analysis.addItems id source? items = .ok analysis') :
    analysis'.Sound ∧ analysis'.requested = analysis.requested := by
  unfold Analysis.addItems at hadded
  refine foldlM_eq_ok_induction
    (fun other => other.Sound ∧ other.requested = analysis.requested) hadded
    ⟨hsound, rfl⟩ ?_
  rintro item - other other' ⟨hother, hrequested⟩ hstep
  obtain ⟨entry, hentry, hone⟩ := bind_eq_ok_iff.mp hstep
  obtain ⟨hsound', hrequested'⟩ := hother.addExport
    (fun source hfrom => hrequested ▸ hsource source hfrom) hentry hone
  exact ⟨hsound', hrequested'.trans hrequested⟩

/-- The names a legacy module is said to have name no module. -/
theorem sound_ofLegacy (source : ModuleSource) : (Analysis.ofLegacy source).Sound := by
  refine ⟨by simp [ofLegacy], ?_, by simp [ofLegacy]⟩
  intro entry hentry source' hfrom
  obtain ⟨item, -, hitem⟩ := List.mem_filterMap.mp hentry
  cases item with
  | named name alias? =>
      obtain rfl := Option.some.inj hitem
      simp [ExportEntry.source?] at hfrom
  | default => simp at hitem
  | star => simp at hitem
  | starAs as_ => simp at hitem

end Analysis

namespace Attempt

/-- That a module is not registered any more is said by the host, not by the engine. -/
def Spares (host : Host) (error : ModuleError) : Prop :=
  ∀ id, error = .detached id → ∃ other, host.load other = .error error

variable {host : Host} {pre : Store → Prop} {fails : ModuleError → Store → Prop}

/-- Resolving a specifier leaves the store alone and does not fail for want of a record. -/
theorem meets_resolve (specifier : String) (referrer? : Option ModuleId)
    (hfails : ∀ error store, pre store → Spares host error → fails error store) :
    Meets host pre (resolve specifier referrer?) (fun _ => pre) fails := by
  intro engine hhost hpre
  -- resolving changes the cache of the resolver and nothing else
  have hended : engine.attempt (resolve specifier referrer?) =
      ((engine.resolver.resolve engine.config engine.host specifier referrer?).1,
        { engine with resolver :=
            (engine.resolver.resolve engine.config engine.host specifier referrer?).2 }) := by
    unfold resolve
    rw [Engine.attempt_bind, Engine.attempt_get]
    dsimp only
    generalize engine.resolver.resolve engine.config engine.host specifier referrer? = answer
    obtain ⟨result, resolver⟩ := answer
    cases result with
    | ok resolved => rfl
    | error error => rfl
  rw [hended]
  refine ⟨hhost, .refl, fun _ _ => hpre, ?_⟩
  intro error herror
  refine hfails error _ hpre ?_
  rintro id rfl
  unfold Resolver.resolve at herror
  split at herror
  · cases herror
  · split at herror
    · rename_i hfailed
      obtain rfl := Except.error.inj herror
      unfold Config.resolve at hfailed
      split at hfailed
      · cases hfailed
      · split at hfailed
        · cases hfailed
        · split at hfailed <;> cases hfailed
    · cases herror

/-- The module that a specifier names is registered afterwards. -/
theorem meets_resolveAndRegister (specifier : String) (referrer? : Option ModuleId)
    (hkept : ∀ store id format, pre store → pre (store.getOrCreate id format).2)
    (hfails : ∀ error store, pre store → Spares host error → fails error store) :
    Meets host pre (resolveAndRegister specifier referrer?)
      (fun found store => pre store ∧ store.lookup? found.1.id = some found.2) fails := by
  unfold resolveAndRegister
  refine (meets_resolve specifier referrer? hfails).bind (fun resolved => ?_)
  have hregister : Meets host pre (onStore (·.getOrCreate resolved.id resolved.format))
      (fun ref store => pre store ∧ store.lookup? resolved.id = some ref) fails :=
    .onStore (fun store _ => .single (.register resolved.id resolved.format))
      (fun store hpre => ⟨hkept store _ _ hpre, store.lookup?_getOrCreate _ _⟩)
  exact hregister.bind (fun ref => .pure (fun store hpost => hpost))

/-- What stands while the declarations of a record are read: the record is as it was, and all that
has been asked for is registered. -/
def Reading (ref : RecordRef) (record : Record) (analysis : Analysis) (store : Store) : Prop :=
  store.record? ref = some record ∧ analysis.Known store ∧ analysis.Sound

theorem Reading.getOrCreate {ref : RecordRef} {record : Record} {analysis : Analysis}
    {store : Store} (hreading : Reading ref record analysis store) (id : ModuleId)
    (format : Format) : Reading ref record analysis (store.getOrCreate id format).2 :=
  ⟨Store.record?_getOrCreate id format hreading.1,
    Analysis.Known.lasting analysis _ _ (.register id format) hreading.2.1, hreading.2.2⟩

variable {ref : RecordRef} {record : Record}

/-- One more module is asked for. -/
theorem meets_request (id : ModuleId) (specifier : String) (analysis : Analysis) :
    Meets host (Reading ref record analysis) (request id specifier analysis)
      (fun found store => Reading ref record found.2 store ∧ found.1 ∈ found.2.requested ∧
        found.2.imports = analysis.imports ∧ found.2.exports = analysis.exports)
      (fun error _ => Spares host error) := by
  unfold request
  refine (meets_resolveAndRegister specifier (some id)
    (fun store id format hreading => hreading.getOrCreate id format)
    (fun _ _ _ hspares => hspares)).bind (fun found => ?_)
  refine .pure ?_
  rintro store ⟨⟨hrecord, hknown, hsound⟩, hlookup⟩
  refine ⟨⟨hrecord, hknown.request (by simp [hlookup]), hsound.request _⟩, ?_, ?_, ?_⟩
  · exact analysis.mem_requested_request found.1.id
  · exact analysis.imports_request found.1.id
  · exact analysis.exports_request found.1.id

/-- While imports are read nothing is exported yet. -/
theorem meets_addImports (id : ModuleId) (analysis : Analysis) (declaration : ImportDeclaration) :
    Meets host (fun store => Reading ref record analysis store ∧ analysis.exports = [])
      (addImports id analysis declaration)
      (fun found store => Reading ref record found store ∧ found.exports = [])
      (fun error _ => Spares host error) := by
  unfold addImports
  refine .assuming (fun hnone => (meets_request id declaration.specifier analysis).bind ?_)
  intro found
  refine .pure ?_
  rintro store ⟨⟨hrecord, hknown, hsound⟩, hmem, -, hexports⟩
  have hnone' : found.2.exports = [] := hexports.trans hnone
  refine ⟨⟨hrecord, hknown, ⟨?_, hsound.exports, ?_⟩⟩, hnone'⟩
  · intro entry hentry
    rcases List.mem_append.mp hentry with hentry | hentry
    · exact hsound.imports entry hentry
    · obtain ⟨item, -, rfl⟩ := List.mem_map.mp hentry
      exact hmem
  · intro as_ name hentry
    simp [hnone'] at hentry

/-- What is wrong with an export declaration is said by other errors. -/
theorem spares_addItems {id : ModuleId} {source? : Option ModuleId} {analysis : Analysis}
    {items : List ExportItem} {error : ModuleError}
    (hfailed : analysis.addItems id source? items = .error error) : Spares host error := by
  rintro id' rfl
  obtain ⟨item, -, analysis', hstep⟩ := exists_of_foldlM_eq_error hfailed
  rcases bind_eq_error_iff.mp hstep with hentry | ⟨entry, -, hadded⟩
  · unfold Analysis.exportEntry at hentry
    split at hentry
    · cases hentry
    · cases hentry
    · split at hentry <;> cases hentry
    · cases hentry
    · cases hentry
    · cases hentry
    · cases hentry
    · cases hentry
  · unfold Analysis.addExport at hadded
    split at hadded
    · split at hadded <;> cases hadded
    · cases hadded

theorem meets_addExports (id : ModuleId) (analysis : Analysis) (declaration : ExportDeclaration) :
    Meets host (Reading ref record analysis) (addExports id analysis declaration)
      (Reading ref record) (fun error _ => Spares host error) := by
  unfold addExports
  cases declaration.source? with
  | none =>
      refine .ofExcept ?_ (fun _ _ _ hfailed => spares_addItems hfailed)
      rintro store analysis' ⟨hrecord, hknown, hsound⟩ hadded
      obtain ⟨hsound', hrequested⟩ := hsound.addItems (by simp) hadded
      exact ⟨hrecord, fun other hother => hknown other (hrequested ▸ hother), hsound'⟩
  | some specifier =>
      refine (meets_request id specifier analysis).bind (fun found => ?_)
      refine .ofExcept ?_ (fun _ _ _ hfailed => spares_addItems hfailed)
      rintro store analysis' ⟨⟨hrecord, hknown, hsound⟩, hmem, -, -⟩ hadded
      obtain ⟨hsound', hrequested⟩ := hsound.addItems
        (fun source hsource => Option.some.inj hsource ▸ hmem) hadded
      exact ⟨hrecord, fun other hother => hknown other (hrequested ▸ hother), hsound'⟩

/-- The analysis of a modern module is sound, and all it asks for is registered. -/
theorem meets_analyzeModern (id : ModuleId) (source : ModuleSource) :
    Meets host (fun store => store.record? ref = some record) (analyzeModern id source)
      (fun analysis => Reading ref record analysis) (fun error _ => Spares host error) := by
  unfold analyzeModern
  -- all imports are read before any export, so what is exported can be compared with them
  have himports : Meets host (fun store => Reading ref record .empty store ∧
        Analysis.empty.exports = [])
      (source.imports.foldlM (addImports id) Analysis.empty)
      (fun analysis store => Reading ref record analysis store ∧ analysis.exports = [])
      (fun error _ => Spares host error) :=
    Meets.foldlM source.imports Analysis.empty
      (fun declaration _ analysis => meets_addImports id analysis declaration)
  refine (himports.imp ?_ (fun _ _ hpost => hpost) (fun _ _ hfails => hfails)).bind ?_
  · intro store hrecord
    exact ⟨⟨hrecord, by simp [Analysis.Known, Analysis.empty],
      ⟨by simp [Analysis.empty], by simp [Analysis.empty], by simp [Analysis.empty]⟩⟩, rfl⟩
  · intro analysis
    refine Meets.imp ?_ (fun _ hpre => hpre.1) (fun _ _ hpost => hpost) (fun _ _ hfails => hfails)
    exact Meets.foldlM source.exports analysis
      (fun declaration _ analysis => meets_addExports id analysis declaration)

/-- A source is kept with its record. -/
theorem meets_sourceOf :
    Meets host (fun store => store.record? ref = some record) (sourceOf ref record)
      (fun source store => store.record? ref = some { record with source? := some source })
      (fun error _ => Spares host error) := by
  unfold sourceOf
  cases hsource : record.source? with
  | some source =>
      refine .pure (fun store hrecord => ?_)
      rw [hrecord, ← hsource]
  | none =>
      refine .get_bind (fun engine hhost hrecord => ?_)
      intro engine' hhost' hsame
      unfold keepSource
      cases hload : engine.host.load record.id with
      | error error =>
          refine ⟨hhost', .refl, fun _ hok => (by cases hok), ?_⟩
          intro error' herror id hid
          obtain rfl : error = error' := Except.error.inj herror
          exact ⟨record.id, hhost ▸ hload⟩
      | ok source =>
          refine ⟨hhost', .single (.source ref source), ?_, fun _ herror => (by cases herror)⟩
          intro source' hok
          obtain rfl : source = source' := Except.ok.inj hok
          exact Store.record?_modify_self _ (hsame ▸ hrecord)

/-- A source has been kept and read: the analysis is sound, and of a legacy module it asks for
nothing. -/
def Read (ref : RecordRef) (record : Record) (source : ModuleSource) (analysis : Analysis)
    (store : Store) : Prop :=
  Reading ref { record with source? := some source } analysis store ∧
    (record.format = .legacy → analysis.requested = [])

/-- A record has been analyzed, and these are the modules walked after it. -/
def Analyzed (ref : RecordRef) (dependencies : List ModuleId) (store : Store) : Prop :=
  ∃ record, store.record? ref = some record ∧ record.analysis?.isSome ∧
    dependencies = record.dependencies

/-- Keeping the analysis of a source that has been read. -/
theorem meets_keepAnalysis (hnew : record.analysis? = none) (source : ModuleSource)
    (analysis : Analysis) :
    Meets host (Read ref record source analysis)
      (do
        onStore (fun store => ((), store.modify ref (fun record =>
          { record with analysis? := some analysis })))
        return analysis.requested)
      (Analyzed ref) (fun error _ => Spares host error) := by
  have hkept : Meets host (Read ref record source analysis)
      (onStore (fun store => ((), store.modify ref (fun record =>
        { record with analysis? := some analysis }))))
      (fun _ store => store.record? ref =
          some { record with source? := some source, analysis? := some analysis } ∧
        (record.format = .legacy → analysis.requested = []))
      (fun error _ => Spares host error) := by
    refine .onStore ?_ ?_
    · rintro store ⟨⟨hrecord, hknown, hsound⟩, -⟩
      exact .single (.analysis analysis hrecord hnew rfl hsound hknown)
    · rintro store ⟨⟨hrecord, -, -⟩, hlegacy⟩
      exact ⟨Store.record?_modify_self _ hrecord, hlegacy⟩
  refine hkept.bind (fun _ => .pure ?_)
  rintro store ⟨hrecord, hlegacy⟩
  refine ⟨_, hrecord, rfl, ?_⟩
  show analysis.requested = match record.format with
    | .modern => analysis.requested
    | .legacy => []
  cases hformat : record.format with
  | legacy => exact hlegacy hformat
  | modern => rfl

/-- A module that has been analyzed gives the modules that are walked after it. -/
theorem meets_analyze :
    Meets host (fun store => store.record? ref = some record) (analyze ref record)
      (Analyzed ref) (fun error _ => Spares host error) := by
  unfold analyze
  cases hanalysis : record.analysis? with
  | some analysis =>
      refine .pure (fun store hrecord => ⟨record, hrecord, by simp [hanalysis], ?_⟩)
      unfold Record.dependencies Record.requested
      cases record.format <;> simp [hanalysis]
  | none =>
      refine meets_sourceOf.bind (fun source => ?_)
      cases hformat : record.format with
      | legacy =>
          have hread : Meets host
              (fun store => store.record? ref = some { record with source? := some source })
              (pure (Analysis.ofLegacy source)) (Read ref record source)
              (fun error _ => Spares host error) := by
            refine .pure (fun store hrecord => ⟨⟨hrecord, ?_, ?_⟩, fun _ => rfl⟩)
            · intro id hid
              simp [Analysis.ofLegacy] at hid
            · exact Analysis.sound_ofLegacy source
          exact hread.bind (meets_keepAnalysis hanalysis source)
      | modern =>
          have hread : Meets host
              (fun store => store.record? ref = some { record with source? := some source })
              (analyzeModern record.id source) (Read ref record source)
              (fun error _ => Spares host error) :=
            (meets_analyzeModern record.id source).imp (fun _ hpre => hpre)
              (fun _ _ hpost => ⟨hpost, fun hlegacy => by simp [hformat] at hlegacy⟩)
              (fun _ _ hfails => hfails)
          exact hread.bind (meets_keepAnalysis hanalysis source)

end Attempt

/-- A module that has been analyzed is not analyzed again. -/
theorem Engine.attempt_analyze_of_analyzed (engine : Engine) (ref : RecordRef) {record : Record}
    (hanalyzed : record.analysis?.isSome) :
    engine.attempt (Attempt.analyze ref record) = (.ok record.dependencies, engine) := by
  obtain ⟨analysis, hanalysis⟩ := Option.isSome_iff_exists.mp hanalyzed
  unfold Attempt.analyze Record.dependencies Record.requested
  rw [hanalysis]
  rfl

end Linkage
