import Linkage.Proofs.Declarations.Entries
import Linkage.Proofs.Engine.Enriching
import Linkage.Proofs.Engine.Fencing

/-!
# What reading declarations gives

The declarations of a modern module are read in the order they stand, and every specifier is resolved
and registered on the way.  Doing so changes no answer that the resolver would give, so what reading
gives is told by the answers it would give at the beginning.

* `Source.Faulty` : what is wrong with the declarations of a source.
* `Source.Reads` : the analysis of a source.
* `Attempt.triple_analyzeModern_reads` : declarations are read, or something is wrong with them.
* `Engine.analysis_is_exact` : the analysis of a loaded module.
-/

namespace Linkage

namespace Source

variable {Body : Type}

/-- Every item that is imported, with its specifier. -/
def taken (source : Source Body) : List (String × ImportItem) :=
  source.imports.flatMap (fun declaration => declaration.items.map (declaration.specifier, ·))

/-- Every item that is exported, with the specifier of its declaration. -/
def offered (source : Source Body) : List (Option String × ExportItem) :=
  source.exports.flatMap (fun declaration => declaration.items.map (declaration.source?, ·))

/-- The public names that are given, in order. -/
def publicNames (source : Source Body) : List String :=
  source.offered.filterMap (·.2.publicName?)

/-- A specifier leads to a module. -/
def Leads (answer : String → Except ModuleError Resolved) (specifier : String) (id : ModuleId) :
    Prop :=
  ∃ resolved, answer specifier = .ok resolved ∧ resolved.id = id

/-- What can be wrong with the declarations of a source. -/
inductive Faulty (answer : String → Except ModuleError Resolved) (source : Source Body) : Prop
  /-- A specifier that does not resolve. -/
  | unresolved {specifier : String} (hmem : specifier ∈ source.specifiers)
      (hfails : Fails (answer specifier))
  /-- An `export *` or `export * as` without a source module. -/
  | sourceless {item : ExportItem} (hmem : (none, item) ∈ source.offered)
      (hneeds : item.NeedsSource)
  /-- Two items that give one public name. -/
  | repeated (hnames : ¬ source.publicNames.Nodup)

/-- The analysis of a source: what is asked for is what the specifiers lead to, without repetitions,
and every item has its entry. -/
structure Reads (answer : String → Except ModuleError Resolved) (source : Source Body)
    (analysis : Analysis) : Prop where
  requested : ∃ targets, List.Forall₂ (Leads answer) source.specifiers targets ∧
    analysis.requested = targets.eraseDups
  imports : List.Forall₂ (fun given entry =>
    Leads answer given.1 entry.source ∧ given.2.Yields entry.source entry)
    source.taken analysis.imports
  exports : List.Forall₂ (fun given entry => ∃ source?,
    Option.Rel (Leads answer) given.1 source? ∧ given.2.Yields analysis.imports source? entry)
    source.offered analysis.exports
  names : analysis.publicNames.Nodup

section

variable {answer : String → Except ModuleError Resolved} {source source' : Source Body}
  {analysis analysis' : Analysis} {specifier : String} {resolved : Resolved}

theorem exists_of_forall₂ {α β : Type} {R : α → β → Prop} {items : List α} {entries : List β}
    (hentries : List.Forall₂ R items entries) {item : α} (hitem : item ∈ items) :
    ∃ entry ∈ entries, R item entry := by
  induction hentries with
  | nil => cases hitem
  | cons hfirst _ ih =>
      rcases List.mem_cons.mp hitem with rfl | hitem
      · exact ⟨_, List.mem_cons_self, hfirst⟩
      · obtain ⟨entry, hentry, hrelated⟩ := ih hitem
        exact ⟨entry, List.mem_cons_of_mem _ hentry, hrelated⟩

theorem taken_importItems (source : Source Body) (specifier : String) (items : List ImportItem) :
    (source.importItems specifier items).taken = source.taken ++ items.map (specifier, ·) := by
  unfold taken importItems
  rw [List.flatMap_append, List.flatMap_singleton]

theorem offered_exportItems (source : Source Body) (items : List ExportItem)
    (source? : Option String) :
    (source.exportItems items source?).offered = source.offered ++ items.map (source?, ·) := by
  unfold offered exportItems
  rw [List.flatMap_append, List.flatMap_singleton]

theorem publicNames_exportItems (source : Source Body) (items : List ExportItem)
    (source? : Option String) :
    (source.exportItems items source?).publicNames =
      source.publicNames ++ items.filterMap (·.publicName?) := by
  unfold publicNames
  rw [offered_exportItems, List.filterMap_append, List.filterMap_map]
  rfl

theorem specifiers_exportItems (source : Source Body) (items : List ExportItem)
    (source? : Option String) :
    (source.exportItems items source?).specifiers = source.specifiers ++ source?.toList := by
  unfold specifiers exportItems
  rw [List.filterMap_append, List.append_assoc]
  cases source? <;> rfl

/-- What is wrong with the first declarations is wrong with all. -/
theorem Faulty.mono (hspecifiers : source.specifiers ⊆ source'.specifiers)
    (hoffered : source.offered <+: source'.offered) (hfaulty : source.Faulty answer) :
    source'.Faulty answer := by
  cases hfaulty with
  | unresolved hmem hfails => exact .unresolved (hspecifiers hmem) hfails
  | sourceless hmem hneeds => exact .sourceless (hoffered.subset hmem) hneeds
  | repeated hnames =>
      exact .repeated (fun hnodup => hnames (hnodup.sublist (hoffered.filterMap _).sublist))

namespace Reads

theorem empty (answer : String → Except ModuleError Resolved) (source : Source Body) :
    Reads answer { source with imports := [], exports := [] } Analysis.empty :=
  ⟨⟨[], .nil, rfl⟩, .nil, .nil, List.nodup_nil⟩

theorem publicNames (hreads : source.Reads answer analysis) :
    analysis.publicNames = source.publicNames := by
  unfold Analysis.publicNames Source.publicNames
  have hexports := hreads.exports
  generalize source.offered = offered, analysis.exports = entries at hexports
  induction hexports with
  | nil => rfl
  | cons hfirst _ ih =>
      obtain ⟨_, -, hyields⟩ := hfirst
      rw [List.filterMap_cons, List.filterMap_cons, hyields.publicName?, ih]

/-- Nothing is wrong with declarations that have been read. -/
theorem not_faulty (hreads : source.Reads answer analysis) : ¬ source.Faulty answer := by
  rintro (⟨hmem, hfails⟩ | ⟨hmem, hneeds⟩ | hrepeated)
  · obtain ⟨targets, hleads, -⟩ := hreads.requested
    obtain ⟨_, -, resolved, hanswer, -⟩ := exists_of_forall₂ hleads hmem
    exact not_fails_ok resolved (hanswer ▸ hfails)
  · obtain ⟨entry, -, source?, hlead, hyields⟩ := exists_of_forall₂ hreads.exports hmem
    cases hlead
    exact hyields.sourced hneeds rfl
  · exact hrepeated (hreads.publicNames ▸ hreads.names)

/-- One more specifier has been resolved. -/
theorem request {specifiers : List String} {targets : List ModuleId}
    (hleads : List.Forall₂ (Leads answer) specifiers targets)
    (hrequested : analysis.requested = targets.eraseDups)
    (hanswer : answer specifier = .ok resolved) :
    ∃ targets', List.Forall₂ (Leads answer) (specifiers ++ [specifier]) targets' ∧
      (analysis.request resolved.id).requested = targets'.eraseDups :=
  ⟨targets ++ [resolved.id], List.rel_append hleads (.cons ⟨resolved, hanswer, rfl⟩ .nil),
    Analysis.requested_request hrequested resolved.id⟩

/-- One more import declaration is read, while nothing is exported. -/
theorem importItems (hreads : source.Reads answer analysis) (hnone : source.exports = [])
    (hanswer : answer specifier = .ok resolved) (items : List ImportItem) :
    (source.importItems specifier items).Reads answer
      { analysis.request resolved.id with
        imports := (analysis.request resolved.id).imports ++
          items.map (Analysis.importEntry resolved.id) } := by
  have hoffered : source.offered = [] := by
    unfold offered
    rw [hnone, List.flatMap_nil]
  have hexports : analysis.exports = [] :=
    List.forall₂_nil_left_iff.mp (hoffered ▸ hreads.exports)
  obtain ⟨targets, hleads, hrequested⟩ := hreads.requested
  refine ⟨?_, ?_, ?_, ?_⟩
  · have hspecifiers : (source.importItems specifier items).specifiers =
        source.specifiers ++ [specifier] := by
      simp [specifiers, Source.importItems, hnone]
    rw [hspecifiers]
    exact request hleads hrequested hanswer
  · rw [taken_importItems, Analysis.imports_request]
    refine List.rel_append hreads.imports ?_
    rw [List.forall₂_map_left_iff, List.forall₂_map_right_iff, List.forall₂_same]
    exact fun item _ => ⟨⟨resolved, hanswer, rfl⟩, Analysis.yields_importEntry _ item⟩
  · show List.Forall₂ _ source.offered (analysis.request resolved.id).exports
    rw [hoffered, Analysis.exports_request, hexports]
    exact .nil
  · simp [Analysis.publicNames, hexports]

/-- The items of one more export declaration are read. -/
theorem exportItems {specifier? : Option String} {source? : Option ModuleId} {id : ModuleId}
    {items : List ExportItem} {between : Analysis} (hreads : source.Reads answer analysis)
    (himports : between.imports = analysis.imports)
    (hexports : between.exports = analysis.exports)
    (hrequested : ∃ targets,
      List.Forall₂ (Leads answer) (source.specifiers ++ specifier?.toList) targets ∧
        between.requested = targets.eraseDups)
    (hlead : Option.Rel (Leads answer) specifier? source?)
    (hadded : between.addItems id source? items = .ok analysis') :
    (source.exportItems items specifier?).Reads answer analysis' := by
  obtain ⟨entries, hentries, hlast, hapart⟩ := Analysis.addItems_ok hadded
  have hnames : between.publicNames.Nodup := by
    unfold Analysis.publicNames
    rw [hexports]
    exact hreads.names
  refine ⟨?_, ?_, ?_, hapart hnames⟩
  · rw [specifiers_exportItems, hlast]
    exact hrequested
  · rw [hlast]
    exact himports ▸ hreads.imports
  · rw [offered_exportItems, hlast]
    dsimp only
    rw [himports, hexports]
    refine List.rel_append hreads.exports ?_
    rw [List.forall₂_map_left_iff]
    exact hentries.imp (fun _ _ hyields => ⟨source?, hlead, himports ▸ hyields⟩)

/-- The items of one more export declaration cannot be read. -/
theorem faulty_exportItems {specifier? : Option String} {source? : Option ModuleId}
    {id : ModuleId} {items : List ExportItem} {between : Analysis}
    (hreads : source.Reads answer analysis) (hexports : between.exports = analysis.exports)
    (hlead : Option.Rel (Leads answer) specifier? source?)
    (hfails : Fails (between.addItems id source? items)) :
    (source.exportItems items specifier?).Faulty answer := by
  rcases Analysis.addItems_fails hfails with ⟨rfl, item, hitem, hneeds⟩ | hrepeated
  · cases hlead
    have hmem : (none, item) ∈ (source.exportItems items none).offered := by
      rw [offered_exportItems]
      exact List.mem_append_right _ (List.mem_map_of_mem hitem)
    exact .sourceless hmem hneeds
  · refine .repeated ?_
    rw [publicNames_exportItems, ← hreads.publicNames]
    unfold Analysis.publicNames at hrepeated ⊢
    rwa [hexports] at hrepeated

end Reads

end

end Source

/-! ## Answers on the way -/

/-- To resolve a specifier changes no answer. -/
theorem Resolver.resolve_resolve (resolver : Resolver) (config : Config) (host : Host)
    (specifier other : String) (referrer? asker? : Option ModuleId) :
    ((resolver.resolve config host specifier referrer?).2.resolve config host other asker?).1 =
      (resolver.resolve config host other asker?).1 := by
  cases hknown : resolver.remembered? other asker? with
  | some resolved =>
      rw [resolve_of_remembered hknown,
        resolve_of_remembered (remembered_resolve_of_remembered hknown)]
  | none =>
      cases hafter : (resolver.resolve config host specifier referrer?).2.remembered?
          other asker? with
      | some resolved =>
          rw [resolve_of_remembered hafter, (answers_of_remembered hafter).resolve]
      | none =>
          rw [resolve_of_unknown hknown, resolve_of_unknown hafter]
          cases config.resolve host other asker? <;> rfl

namespace Attempt

/-- What the specifiers of a module are answered. -/
def Tells (id : ModuleId) (answer : String → Except ModuleError Resolved) (engine : Engine) :
    Prop :=
  ∀ specifier, (engine.resolver.resolve engine.config engine.host specifier (some id)).1 =
    answer specifier

variable {id : ModuleId} {answer : String → Except ModuleError Resolved} {source : ModuleSource}
  {analysis : Analysis}

theorem triple_tells_register (specifier : String) :
    Triple (Tells id answer) (resolveAndRegister specifier (some id))
      (fun found engine => Tells id answer engine ∧ answer specifier = .ok found.1)
      (fun _ => Fails (answer specifier)) := by
  intro engine htells
  rcases engine.attempt_resolveAndRegister_cases specifier (some id) with
    ⟨error, hunknown, hfailed, heq⟩ | ⟨resolved, hanswers, heq⟩ <;> rw [heq]
  · refine ⟨fun _ hvalue => (by cases hvalue), fun _ _ => ⟨error, ?_⟩⟩
    rw [← htells specifier, Resolver.resolve_of_unknown hunknown, hfailed]
  · refine ⟨fun found hfound => ?_, fun _ herror => (by cases herror)⟩
    obtain rfl := Except.ok.inj hfound
    refine ⟨fun other => ?_, ?_⟩
    · rw [← htells other]
      exact engine.resolver.resolve_resolve _ _ _ _ _ _
    · rw [← htells specifier]
      exact hanswers.resolve

/-- What has been read of the declarations of a source so far. -/
def Sofar (id : ModuleId) (answer : String → Except ModuleError Resolved) (source : ModuleSource)
    (imports : List ImportDeclaration) (exports : List ExportDeclaration) (analysis : Analysis)
    (engine : Engine) : Prop :=
  Tells id answer engine ∧ Source.Reads answer { source with imports, exports } analysis

/-- A specifier of the source is resolved, and its module is asked for. -/
theorem triple_sofar_request {imports : List ImportDeclaration} {exports : List ExportDeclaration}
    {specifier : String} (hmem : specifier ∈ source.specifiers) (analysis : Analysis) :
    Triple (Sofar id answer source imports exports analysis) (request id specifier analysis)
      (fun found engine => Sofar id answer source imports exports analysis engine ∧
        ∃ resolved, answer specifier = .ok resolved ∧
          found = (resolved.id, analysis.request resolved.id))
      (fun _ => source.Faulty answer) := by
  have hasked : Triple (Sofar id answer source imports exports analysis)
      (resolveAndRegister specifier (some id))
      (fun found engine => Sofar id answer source imports exports analysis engine ∧
        answer specifier = .ok found.1) (fun _ => source.Faulty answer) := by
    intro engine hsofar
    obtain ⟨hok, herror⟩ := triple_tells_register specifier engine hsofar.1
    refine ⟨fun found hfound => ?_, fun error hfailed => .unresolved hmem (herror error hfailed)⟩
    obtain ⟨htells, hanswer⟩ := hok found hfound
    exact ⟨⟨htells, hsofar.2⟩, hanswer⟩
  exact hasked.bind (fun found => .pure (fun _ hpost => ⟨hpost.1, found.1, hpost.2, rfl⟩))

theorem triple_sofar_addImports {done : List ImportDeclaration} {declaration : ImportDeclaration}
    (hmem : declaration ∈ source.imports) (analysis : Analysis) :
    Triple (Sofar id answer source done [] analysis) (addImports id analysis declaration)
      (Sofar id answer source (done ++ [declaration]) []) (fun _ => source.Faulty answer) := by
  refine (triple_sofar_request (List.mem_append_left _ (List.mem_map_of_mem hmem)) analysis).bind
    (fun found => .pure ?_)
  rintro engine ⟨⟨htells, hreads⟩, resolved, hanswer, rfl⟩
  exact ⟨htells, hreads.importItems rfl hanswer declaration.items⟩

/-- What is wrong with some of the declarations is wrong with the source. -/
theorem faulty_of_front {done : List ExportDeclaration} (hearly : done <+: source.exports)
    (hfaulty : Source.Faulty answer { source with exports := done }) : source.Faulty answer := by
  have hoffered : Source.offered { source with exports := done } <+: source.offered :=
    hearly.flatMap _
  refine hfaulty.mono (fun specifier hmem => ?_) hoffered
  exact (List.mem_append.mp hmem).elim (List.mem_append_left _)
    (fun hexport => List.mem_append_right _ ((hearly.filterMap _).subset hexport))

/-- The items of an export declaration are read once its specifier, if it has one, is resolved. -/
theorem triple_sofar_addItems {done : List ExportDeclaration} {items : List ExportItem}
    {specifier? : Option String} {source? : Option ModuleId} {between : Analysis}
    (hearly : done ++ [⟨items, specifier?⟩] <+: source.exports)
    (hlead : Option.Rel (Source.Leads answer) specifier? source?)
    (himports : between.imports = analysis.imports)
    (hexports : between.exports = analysis.exports)
    (hrequested : Source.Reads answer { source with exports := done } analysis → ∃ targets,
      List.Forall₂ (Source.Leads answer)
        (Source.specifiers { source with exports := done } ++ specifier?.toList) targets ∧
        between.requested = targets.eraseDups) :
    Triple (Sofar id answer source source.imports done analysis)
      (MonadExcept.ofExcept (between.addItems id source? items))
      (Sofar id answer source source.imports (done ++ [⟨items, specifier?⟩]))
      (fun _ => source.Faulty answer) := by
  rintro engine ⟨htells, hreads⟩
  rw [Engine.attempt_ofExcept]
  refine ⟨fun analysis' hadded => ⟨htells, ?_⟩, fun error hfailed => faulty_of_front hearly ?_⟩
  · exact hreads.exportItems himports hexports (hrequested hreads) hlead hadded
  · exact hreads.faulty_exportItems hexports hlead ⟨error, hfailed⟩

theorem triple_sofar_addExports {done : List ExportDeclaration} {declaration : ExportDeclaration}
    (hearly : done ++ [declaration] <+: source.exports) (analysis : Analysis) :
    Triple (Sofar id answer source source.imports done analysis)
      (addExports id analysis declaration)
      (Sofar id answer source source.imports (done ++ [declaration]))
      (fun _ => source.Faulty answer) := by
  obtain ⟨items, specifier?⟩ := declaration
  cases specifier? with
  | none =>
      refine triple_sofar_addItems hearly .none rfl rfl (fun hreads => ?_)
      rw [Option.toList_none, List.append_nil]
      exact hreads.requested
  | some specifier =>
      have hmem : specifier ∈ source.specifiers := List.mem_append_right _
        (List.mem_filterMap.mpr ⟨⟨items, some specifier⟩, hearly.subset (by simp), rfl⟩)
      refine (triple_sofar_request hmem analysis).bind (fun found => ?_)
      rintro engine ⟨hsofar, resolved, hanswer, rfl⟩
      refine triple_sofar_addItems hearly (.some ⟨resolved, hanswer, rfl⟩)
        (analysis.imports_request resolved.id) (analysis.exports_request resolved.id)
        (fun hreads => ?_) engine hsofar
      obtain ⟨targets, hleads, hrequested⟩ := hreads.requested
      exact Source.Reads.request hleads hrequested hanswer

/-- **The declarations of a module are read, or something is wrong with them.** -/
theorem triple_analyzeModern_reads (id : ModuleId)
    (answer : String → Except ModuleError Resolved) (source : ModuleSource) :
    Triple (Tells id answer) (analyzeModern id source)
      (fun analysis _ => source.Reads answer analysis) (fun _ => source.Faulty answer) := by
  have himports := Triple.foldlM (fun done => Sofar id answer source done []) source.imports
    Analysis.empty (fun _ _ hearly analysis =>
      triple_sofar_addImports (hearly.subset (List.mem_append_right _ List.mem_cons_self)) analysis)
  have hexports (analysis : Analysis) :=
    Triple.foldlM (fun done => Sofar id answer source source.imports done) source.exports analysis
      (fun _ _ hearly analysis => triple_sofar_addExports hearly analysis)
  refine ((himports.bind hexports).weaken (fun _ htells => ⟨htells, .empty answer source⟩)).imp
    (fun _ htells => htells) (fun _ _ hsofar => hsofar.2) (fun _ hfaulty => hfaulty)

end Attempt

namespace Engine

open Attempt

variable {engine : Engine} {ref : RecordRef} {record : Record} {source : ModuleSource}

/-- To load a source changes no answer. -/
theorem keeps_tells_sourceOf (id : ModuleId) (answer : String → Except ModuleError Resolved)
    (ref : RecordRef) (record : Record) : Keeps (Tells id answer) (sourceOf ref record) := by
  refine keeps_sourceOf_of_same (fun engine engine' hconfig hhost hresolver _ htells => ?_) ref record
  intro specifier
  rw [hconfig, hhost, hresolver]
  exact htells specifier

/-- **The analysis of a modern module is exact.**  Once its source is loaded, it fails exactly when
something is wrong with the declarations; else the record has an analysis that lists what they say,
and every module that it asks for has a record. -/
theorem analysis_is_exact (hnamed : engine.store.Named)
    (hrecord : engine.store.record? ref = some record) (hmodern : record.format = .modern)
    (hnew : record.analysis? = none)
    (hsource : (engine.attempt (sourceOf ref record)).1 = .ok source) :
    let answer := fun specifier =>
      (engine.resolver.resolve engine.config engine.host specifier (some record.id)).1
    let ended := engine.attempt (analyze ref record)
    (Fails ended.1 ↔ source.Faulty answer) ∧
    ∀ requested, ended.1 = .ok requested → ∃ analysis,
      ended.2.store.record? ref =
        some { record with source? := some source, analysis? := some analysis } ∧
      source.Reads answer analysis ∧ requested = analysis.requested ∧
      ∀ id ∈ requested, ∃ ref' record', ended.2.store.Registered id ref' record' ∧
        record'.id = id := by
  intro answer ended
  have hmeets : Meets engine.host (fun store => store.record? ref = some record)
      (sourceOf ref record)
      (fun source store => store.record? ref = some { record with source? := some source })
      (fun error _ => Spares engine.host error) := meets_sourceOf
  have hloaded := (hmeets engine rfl hrecord).ok source hsource
  have htells : Tells record.id answer (engine.attempt (sourceOf ref record)).2 :=
    (keeps_tells_sourceOf record.id answer ref record).after (fun _ => rfl)
  have hlearns : engine.store.Learns ended.2.store :=
    ((triple_enriched_analyze ref record).after ⟨.refl engine, hrecord⟩).store
  have hended : ended = engine.attempt (analyze ref record) := rfl
  rw [attempt_analyze_of_unread hnew] at hended
  generalize engine.attempt (sourceOf ref record) = between at hsource hloaded htells hended
  obtain ⟨_, between⟩ := between
  obtain rfl := hsource
  rw [hmodern] at hended
  dsimp only at hended hloaded htells
  have hread := triple_analyzeModern_reads record.id answer source between htells
  have hkept := keeps_record_analyzeModern record.id source between hloaded
  have hknown := (meets_analyzeModern record.id source between rfl hloaded).ok
  generalize between.attempt (analyzeModern record.id source) = reading
    at hended hread hkept hknown
  obtain ⟨result, last⟩ := reading
  cases result with
  | error error =>
      rw [hended]
      exact ⟨iff_of_true ⟨error, rfl⟩ (hread.2 error rfl), fun _ hvalue => (by cases hvalue)⟩
  | ok analysis =>
      have hreads : source.Reads answer analysis := hread.1 analysis rfl
      rw [hended] at hlearns ⊢
      refine ⟨iff_of_false (not_fails_ok _) hreads.not_faulty, fun requested hrequested => ?_⟩
      obtain rfl := Except.ok.inj hrequested
      refine ⟨analysis, Store.record?_modify_self _ (hkept.1 analysis rfl), hreads, rfl,
        fun id hid => ?_⟩
      obtain ⟨ref', hlookup⟩ := Option.isSome_iff_exists.mp ((hknown analysis rfl).2.1 id hid)
      obtain ⟨record', hrecord', hid'⟩ := hlearns.named hnamed id ref' hlookup
      exact ⟨ref', record', ⟨hlookup, hrecord'⟩, hid'⟩

/-- A module that imports a name and passes it on, and names the same module once more. -/
def gatherer : ModuleSource :=
  (((Source.ofBody []).importNamed "/a.mjs" "x" "l").exportAs "l" "e").exportAllAs "./a" "ns"

/-- An engine that has registered this module. -/
def gathering : Engine :=
  ((new ((Shelf.empty.insert "/m.mjs" gatherer).insert "/a.mjs" ((Source.ofBody []).exportLocal
    "x")).toHost .standard).attempt (resolveAndRegister "/m.mjs" none)).2

theorem analysis_is_exact_gathering :
    let record := Record.modern ⟨"/m.mjs"⟩
    gathering.store.Named ∧ gathering.store.record? ⟨0⟩ = some record ∧ record.format = .modern ∧
      record.analysis? = none ∧ (gathering.attempt (sourceOf ⟨0⟩ record)).1 = .ok gatherer ∧
      ∃ analysis ref' record', analysis.requested = [⟨"/a.mjs"⟩] ∧
        gatherer.Reads (fun specifier => (gathering.resolver.resolve gathering.config gathering.host
          specifier (some ⟨"/m.mjs"⟩)).1) analysis ∧
        (gathering.attempt (analyze ⟨0⟩ record)).2.store.Registered ⟨"/a.mjs"⟩ ref' record' := by
  intro record
  have hnamed : gathering.store.Named :=
    ((taught_enriched (new _ _)).register "/m.mjs" none).after (.refl _) |>.store.named
      (fun _ _ hlookup => by cases hlookup)
  have hrecord : gathering.store.record? ⟨0⟩ = some record := rfl
  have hsource : (gathering.attempt (sourceOf ⟨0⟩ record)).1 = .ok gatherer := rfl
  have hended : ((gathering.attempt (analyze ⟨0⟩ record)).1).toOption = some [⟨"/a.mjs"⟩] := by
    decide +kernel
  refine ⟨hnamed, hrecord, rfl, rfl, hsource, ?_⟩
  obtain ⟨analysis, -, hreads, hrequested, hregistered⟩ :=
    (analysis_is_exact hnamed hrecord rfl rfl hsource).2 _
      (by rw [attempt_eq_ok_of_toOption hended])
  obtain ⟨ref', record', hfound, -⟩ := hregistered _ List.mem_cons_self
  exact ⟨analysis, ref', record', hrequested.symm, hreads, hfound⟩

end Engine

end Linkage
