import Linkage.Proofs.Engine.Housing

/-!
# Declarations and the entries they become

The declarations of a source are read once and the source is kept, so what a module declares can
be compared with its analysis for as long as the record is there.  Every item of an export
declaration has its entry, made with all imports of the module in view, and no public name is given
twice.

* `Analysis.Declares` : an analysis has the entries of export declarations.
* `Attempt.triple_analyzeModern_declares` : reading declarations makes such an analysis.
* `Record.Declares`, `Engine.upheldAhead_declares` : a record that is analyzed has the source it was
  analyzed from, and it stays so.
-/

namespace Linkage

namespace Analysis

/-- Every item of an export declaration without a source module has its entry, and the entries have
different public names. -/
structure Declares (id : ModuleId) (declarations : List ExportDeclaration) (analysis : Analysis) :
    Prop where
  items : ∀ declaration ∈ declarations, declaration.source? = none →
    ∀ item ∈ declaration.items, ∃ entry ∈ analysis.exports,
      exportEntry id analysis.imports none item = .ok entry
  names : (analysis.exports.filterMap (·.publicName?)).Nodup

/-- Only export entries have been added, under names that were free. -/
structure Extends (analysis analysis' : Analysis) : Prop where
  imports : analysis'.imports = analysis.imports
  exports : analysis.exports ⊆ analysis'.exports
  names : (analysis.exports.filterMap (·.publicName?)).Nodup →
    (analysis'.exports.filterMap (·.publicName?)).Nodup

variable {id : ModuleId} {analysis analysis' analysis'' : Analysis}
  {declarations : List ExportDeclaration}

namespace Extends

theorem refl (analysis : Analysis) : analysis.Extends analysis :=
  ⟨rfl, List.Subset.refl _, fun hnames => hnames⟩

theorem trans (hfirst : analysis.Extends analysis') (hsecond : analysis'.Extends analysis'') :
    analysis.Extends analysis'' :=
  ⟨hsecond.imports.trans hfirst.imports, List.Subset.trans hfirst.exports hsecond.exports,
    fun hnames => hsecond.names (hfirst.names hnames)⟩

end Extends

theorem Extends.of_same (himports : analysis'.imports = analysis.imports)
    (hexports : analysis'.exports = analysis.exports) : analysis.Extends analysis' :=
  ⟨himports, hexports ▸ List.Subset.refl _, fun hnames => hexports ▸ hnames⟩

/-- An entry is added at the end, if nothing else has its public name. -/
theorem extends_addExport {entry : ExportEntry}
    (hadded : analysis.addExport id entry = .ok analysis') :
    analysis.Extends analysis' ∧ entry ∈ analysis'.exports := by
  have hlast := addExport_eq_ok hadded
  subst hlast
  refine ⟨⟨rfl, List.subset_append_left _ _, fun hnames => ?_⟩, by simp⟩
  rw [List.filterMap_append]
  cases hname : entry.publicName? with
  | none => simpa [hname] using hnames
  | some name =>
      have hfree : ∀ other ∈ analysis.exports, other.publicName? ≠ some name := by
        intro other hother hsame
        unfold addExport at hadded
        rw [hname] at hadded
        dsimp only at hadded
        rw [if_pos (List.any_eq_true.mpr ⟨other, hother, by simp [hsame]⟩)] at hadded
        cases hadded
      have hlast : [entry].filterMap (·.publicName?) = [name] := by simp [hname]
      rw [hlast]
      refine List.nodup_append.mpr ⟨hnames, List.nodup_singleton name, ?_⟩
      rintro found hfound _ hmem rfl
      obtain ⟨other, hother, hsame⟩ := List.mem_filterMap.mp hfound
      exact hfree other hother (List.mem_singleton.mp hmem ▸ hsame)

/-- Every item of a declaration has its entry. -/
theorem extends_addItems {source? : Option ModuleId} {items : List ExportItem}
    (hadded : analysis.addItems id source? items = .ok analysis') :
    analysis.Extends analysis' ∧ ∀ item ∈ items, ∃ entry ∈ analysis'.exports,
      exportEntry id analysis.imports source? item = .ok entry := by
  unfold addItems at hadded
  induction items generalizing analysis with
  | nil =>
      obtain rfl := Except.ok.inj hadded
      exact ⟨.refl analysis, nofun⟩
  | cons first rest ih =>
      rw [List.foldlM_cons] at hadded
      obtain ⟨middle, hfirst, hrest⟩ := bind_eq_ok_iff.mp hadded
      obtain ⟨entry, hentry, hone⟩ := bind_eq_ok_iff.mp hfirst
      obtain ⟨hextends, hmem⟩ := extends_addExport hone
      obtain ⟨hextends', hitems⟩ := ih hrest
      refine ⟨hextends.trans hextends', fun item hitem => ?_⟩
      rcases List.mem_cons.mp hitem with rfl | hitem
      · exact ⟨entry, hextends'.exports hmem, hentry⟩
      · rw [← hextends.imports]
        exact hitems item hitem

/-- What is added later does not take an entry away. -/
theorem Declares.extends (hdeclares : analysis.Declares id declarations)
    (hextends : analysis.Extends analysis') : analysis'.Declares id declarations := by
  refine ⟨fun declaration hdeclaration hnone item hitem => ?_, hextends.names hdeclares.names⟩
  obtain ⟨entry, hentry, hexport⟩ := hdeclares.items declaration hdeclaration hnone item hitem
  exact ⟨entry, hextends.exports hentry, by rw [hextends.imports, hexport]⟩

/-- The entries of one more declaration. -/
theorem Declares.addItems (hdeclares : analysis.Declares id declarations)
    {declaration : ExportDeclaration} {source? : Option ModuleId}
    (hsource : source?.isNone = declaration.source?.isNone)
    (hadded : analysis.addItems id source? declaration.items = .ok analysis') :
    analysis'.Declares id (declarations ++ [declaration]) := by
  obtain ⟨hextends, hitems⟩ := extends_addItems hadded
  refine ⟨fun other hother hnone item hitem => ?_, (hdeclares.extends hextends).names⟩
  rcases List.mem_append.mp hother with hother | hother
  · exact (hdeclares.extends hextends).items other hother hnone item hitem
  · obtain rfl := List.mem_singleton.mp hother
    obtain rfl : source? = none := by simpa [hnone] using hsource
    rw [hextends.imports]
    exact hitems item hitem

end Analysis

namespace Attempt

variable {id : ModuleId}

/-- Nothing is said of the engine. -/
abbrev Always (_ : Engine) : Prop := True

/-- To ask for a module adds no entry. -/
theorem triple_request_same {known : Prop} (specifier : String) (analysis : Analysis) :
    Triple (fun _ => known) (request id specifier analysis)
      (fun found _ => known ∧ found.2.imports = analysis.imports ∧
        found.2.exports = analysis.exports) Always := by
  have hasked : Triple (fun _ => known) (resolveAndRegister specifier (some id))
      (fun _ _ => known) Always := fun _ hknown => ⟨fun _ _ => hknown, fun _ _ => trivial⟩
  exact hasked.bind (fun found => .pure (fun _ hknown =>
    ⟨hknown, analysis.imports_request found.1.id, analysis.exports_request found.1.id⟩))

/-- While imports are read nothing is exported yet. -/
theorem triple_addImports_exports (analysis : Analysis) (declaration : ImportDeclaration) :
    Triple (fun _ => analysis.exports = []) (addImports id analysis declaration)
      (fun found _ => found.exports = []) Always :=
  (triple_request_same declaration.specifier analysis).bind (fun _ =>
    .pure (fun _ hpost => hpost.2.2.trans hpost.1))

theorem triple_addExports_declares {done : List ExportDeclaration} (analysis : Analysis)
    (declaration : ExportDeclaration) :
    Triple (fun _ => analysis.Declares id done) (addExports id analysis declaration)
      (fun found _ => found.Declares id (done ++ [declaration])) Always := by
  unfold addExports
  cases hsource : declaration.source? with
  | none =>
      refine .ofExcept (fun found hfound _ hdeclares => ?_) (fun _ _ => trivial)
      exact hdeclares.addItems (by simp [hsource]) hfound
  | some specifier =>
      refine (triple_request_same specifier analysis).bind (fun found => ?_)
      refine .ofExcept (fun found' hfound' _ hpost => ?_) (fun _ _ => trivial)
      obtain ⟨hdeclares, himports, hexports⟩ := hpost
      exact (hdeclares.extends (.of_same himports hexports)).addItems (by simp [hsource]) hfound'

/-- **Reading the declarations of a module gives every export item its entry.** -/
theorem triple_analyzeModern_declares (source : ModuleSource) :
    Triple Always (analyzeModern id source)
      (fun analysis _ => analysis.Declares id source.exports) Always := by
  unfold analyzeModern
  have himports : Triple (fun _ => Analysis.empty.exports = [])
      (source.imports.foldlM (addImports id) Analysis.empty)
      (fun analysis _ => analysis.exports = []) Always :=
    Triple.foldlM (fun _ analysis _ => analysis.exports = []) source.imports Analysis.empty
      (fun _ declaration _ analysis => triple_addImports_exports analysis declaration)
  refine (himports.weaken (fun _ _ => rfl)).bind (fun analysis => ?_)
  have hexports := Triple.foldlM
    (fun (done : List ExportDeclaration) (analysis : Analysis) _ => analysis.Declares id done)
    source.exports analysis
    (fun _ declaration _ analysis => triple_addExports_declares analysis declaration)
  refine hexports.weaken (fun _ hnone => ⟨nofun, ?_⟩)
  rw [hnone]
  exact List.nodup_nil

end Attempt

/-- A record that is analyzed has the source it was analyzed from. -/
def Record.Declares (record : Record) : Prop :=
  ∀ analysis, record.analysis? = some analysis → ∃ source, record.source? = some source ∧
    (record.format = .modern → analysis.Declares record.id source.exports)

/-- Every record that is analyzed has the source it was analyzed from. -/
def Engine.Declares (engine : Engine) : Prop :=
  ∀ ref record, engine.store.record? ref = some record → record.Declares

theorem Record.Declares.knownAs {record record' : Record} (hdeclares : record.Declares)
    (hknown : record.KnownAs record') : record'.Declares := by
  intro analysis hanalysis
  obtain ⟨source, hsource, hmodern⟩ := hdeclares analysis (hknown.analysis ▸ hanalysis)
  refine ⟨source, hknown.source.trans hsource, fun hformat => ?_⟩
  rw [hknown.id]
  exact hmodern (hknown.format ▸ hformat)

theorem Record.declares_of_unanalyzed {record : Record} (hnone : record.analysis? = none) :
    record.Declares := by
  intro analysis hanalysis
  rw [hnone] at hanalysis
  cases hanalysis

/-- Without a source nothing is analyzed. -/
theorem Record.Declares.unanalyzed {record : Record} (hdeclares : record.Declares)
    (hsource : record.source? = none) : record.analysis? = none := by
  by_contra hsome
  obtain ⟨analysis, hanalysis⟩ := Option.ne_none_iff_exists'.mp hsome
  obtain ⟨source, hfound, -⟩ := hdeclares analysis hanalysis
  rw [hsource] at hfound
  cases hfound

namespace Engine

open Attempt

variable {engine engine' : Engine}

theorem declares_new (config : Config) (host : Host) : (new host config).Declares := by
  intro ref record hrecord
  simp [new, Store.empty, Store.record?] at hrecord

namespace Declares

theorem knowsSame (hdeclares : engine.Declares) (hsame : engine.KnowsSame engine') :
    engine'.Declares := by
  intro ref record' hrecord'
  obtain ⟨record, hrecord, hknown⟩ := hsame.store.back hrecord'
  exact (hdeclares ref record hrecord).knownAs hknown

/-- A module that is registered anew is not analyzed. -/
theorem getOrCreate (hdeclares : engine.Declares) (id : ModuleId) (format : Format) :
    Declares { engine with store := (engine.store.getOrCreate id format).2 } := by
  intro other record hrecord
  dsimp only at hrecord
  cases hlookup : engine.store.lookup? id with
  | some ref =>
      rw [Store.getOrCreate_of_lookup format hlookup] at hrecord
      exact hdeclares other record hrecord
  | none =>
      obtain ⟨heap, fresh, hfresh, -, -, heq⟩ := engine.store.getOrCreate_fresh format hlookup
      rw [heq, Store.record?_register] at hrecord
      split at hrecord
      · obtain rfl := Option.some.inj hrecord
        obtain ⟨_, _, rfl⟩ := hfresh
        exact Record.declares_of_unanalyzed rfl
      · exact hdeclares other record hrecord

/-- One record has changed. -/
theorem modify (hdeclares : engine.Declares) {ref : RecordRef} {f : Record → Record} (loads : Nat)
    (hrecord : ∀ record, engine.store.record? ref = some record → (f record).Declares) :
    Declares { engine with loads, store := engine.store.modify ref f } := by
  intro other record' hrecord'
  dsimp only at hrecord'
  rw [Store.record?_modify] at hrecord'
  split at hrecord'
  · rename_i hsame
    subst hsame
    obtain ⟨record, hfound, rfl⟩ := Option.map_eq_some_iff.mp hrecord'
    exact hrecord record hfound
  · exact hdeclares other record' hrecord'

end Declares

theorem triple_declares_resolve (specifier : String) (referrer? : Option ModuleId) :
    Keeps Declares (Attempt.resolve specifier referrer?) := by
  refine .of_after (fun engine hdeclares => ?_)
  rw [attempt_resolve]
  exact hdeclares

theorem keeps_declares_getOrCreate (resolved : Resolved) :
    Keeps Declares (onStore (·.getOrCreate resolved.id resolved.format)) :=
  .onStore (fun _ hdeclares => hdeclares.getOrCreate resolved.id resolved.format)

theorem keeps_declares_register (specifier : String) (referrer? : Option ModuleId) :
    Keeps Declares (resolveAndRegister specifier referrer?) :=
  (triple_declares_resolve specifier referrer?).bind (fun resolved =>
    (keeps_declares_getOrCreate resolved).bind (fun _ => .pure (fun _ hdeclares => hdeclares)))

/-- A source is kept of a record that is not analyzed. -/
theorem triple_declares_keepSource (ref : RecordRef) {known : Record}
    (hnew : known.analysis? = none) (given : Except ModuleError ModuleSource) :
    Triple (fun engine => engine.Declares ∧ engine.store.RecordOf ref known)
      (Attempt.keepSource ref given) (fun _ => Declares) Declares := by
  rintro engine ⟨hdeclares, record, hrecord, -, hanalysis⟩
  unfold Attempt.keepSource
  rw [attempt_bind, attempt_ofExcept]
  cases given with
  | error error => exact ⟨fun _ hvalue => (by cases hvalue), fun _ _ => hdeclares⟩
  | ok source =>
      refine ⟨fun _ _ => hdeclares.modify _ (fun found hfound => ?_), fun _ herror => (by cases herror)⟩
      obtain rfl := Option.some.inj (hrecord.symm.trans hfound)
      exact Record.declares_of_unanalyzed (hanalysis.trans hnew)

theorem triple_declares_sourceOf (ref : RecordRef) (record : Record) :
    Triple (fun engine => engine.Declares ∧ engine.store.record? ref = some record)
      (sourceOf ref record)
      (fun source engine => engine.Declares ∧
        engine.store.record? ref = some { record with source? := some source }) Declares := by
  have hkept : Triple (fun engine => engine.Declares ∧ engine.store.record? ref = some record)
      (sourceOf ref record) (fun _ => Declares) Declares := by
    cases hsource : record.source? with
    | some source =>
        unfold sourceOf
        rw [hsource]
        exact .pure (fun _ hpre => hpre.1)
    | none =>
        unfold sourceOf
        rw [hsource]
        refine .get_bind (fun engine hpre => ?_)
        have hnew : record.analysis? = none := (hpre.1 ref record hpre.2).unanalyzed hsource
        refine (triple_declares_keepSource ref hnew (engine.host.load record.id)).weaken ?_
        rintro _ rfl
        exact ⟨hpre.1, record, hpre.2, rfl, rfl⟩
  refine hkept.also _ (fun engine hpre source hsource => ?_)
  have hmeets : Meets engine.host (fun store => store.record? ref = some record)
      (sourceOf ref record)
      (fun source store => store.record? ref = some { record with source? := some source })
      (fun error _ => Spares engine.host error) := meets_sourceOf
  exact (hmeets engine rfl hpre.2).ok source hsource

/-- The analysis of a source that has been read is kept. -/
theorem triple_declares_keepAnalysis (ref : RecordRef) (record : Record) (source : ModuleSource)
    (analysis : Analysis) :
    Triple (fun engine => (engine.Declares ∧
        engine.store.record? ref = some { record with source? := some source }) ∧
        (record.format = .modern → analysis.Declares record.id source.exports))
      (do
        onStore (fun store => ((), store.modify ref (fun record =>
          { record with analysis? := some analysis })))
        return analysis.requested) (fun _ => Declares) Declares := by
  have hkept : Triple (fun engine => (engine.Declares ∧
      engine.store.record? ref = some { record with source? := some source }) ∧
      (record.format = .modern → analysis.Declares record.id source.exports))
      (onStore (fun store => ((), store.modify ref (fun record =>
        { record with analysis? := some analysis })))) (fun _ => Declares) Declares := .onStore ?_
  · exact hkept.bind (fun _ => .pure (fun _ hdeclares => hdeclares))
  rintro engine ⟨⟨hdeclares, hrecord⟩, hmodern⟩
  refine hdeclares.modify engine.loads (fun found hfound => ?_)
  obtain rfl := Option.some.inj (hrecord.symm.trans hfound)
  intro _ hanalysis
  obtain rfl := Option.some.inj hanalysis
  exact ⟨source, rfl, hmodern⟩

theorem triple_declares_analyze (ref : RecordRef) (record : Record) :
    Triple (fun engine => engine.Declares ∧ engine.store.record? ref = some record)
      (analyze ref record) (fun _ => Declares) Declares := by
  unfold analyze
  split
  · exact .pure (fun _ hpre => hpre.1)
  refine (triple_declares_sourceOf ref record).bind (fun source => ?_)
  cases hformat : record.format with
  | legacy =>
      refine Triple.bind (.pure (fun _ hpre => ⟨hpre, fun hmodern => ?_⟩))
        (triple_declares_keepAnalysis ref record source)
      rw [hformat] at hmodern
      cases hmodern
  | modern =>
      have hread : Keeps Declares (analyzeModern record.id source) :=
        (triple_analyzeModern source (fun specifier _ =>
          keeps_declares_register specifier (some record.id))).imp (fun _ hpre => hpre)
          (fun _ _ hpost => hpost.1) (fun _ hfails => hfails)
      have hanalyzed : Triple (fun engine => engine.Declares ∧
            engine.store.record? ref = some { record with source? := some source })
          (analyzeModern record.id source)
          (fun analysis engine => (engine.Declares ∧
            engine.store.record? ref = some { record with source? := some source }) ∧
            (record.format = .modern → analysis.Declares record.id source.exports)) Declares := by
        intro engine hpre
        refine ⟨fun analysis hanalysis => ⟨⟨(hread engine hpre.1).1 analysis hanalysis, ?_⟩,
          fun _ => (triple_analyzeModern_declares source engine trivial).1 analysis hanalysis⟩,
          (hread engine hpre.1).2⟩
        -- reading declarations leaves the record itself alone
        have hmeets : Meets engine.host
            (fun store => store.record? ref = some { record with source? := some source })
            (analyzeModern record.id source)
            (fun analysis => Reading ref { record with source? := some source } analysis)
            (fun error _ => Spares engine.host error) := meets_analyzeModern record.id source
        exact ((hmeets engine rfl hpre.2).ok analysis hanalysis).1
      exact hanalyzed.bind (triple_declares_keepAnalysis ref record source)

theorem keeps_declares_joinOrStart (resolved : Resolved) : Keeps Declares (joinOrStart resolved) :=
  triple_joinOrStart (fun engine _ hdeclares => hdeclares.knowsSame (.of_imports engine _))
    (fun _ hdeclares => hdeclares)
    (keeps_declares_getOrCreate resolved)

/-- What is analyzed is learnt with its source. -/
theorem taughtAhead_declares : TaughtAhead Declares where
  register := keeps_declares_register
  analyze := triple_declares_analyze
  fetch {before ref record} hbefore hfound := by
    unfold fetchSource
    split
    · rename_i hsource
      have hnew : record.analysis? = none := 
        (hbefore ref record hfound).unanalyzed (Option.isNone_iff_eq_none.mp hsource)
      refine .get_bind (fun engine hpre => ?_)
      refine ((triple_declares_keepSource ref hnew (engine.host.fetch record.id)).weaken ?_).bind
        (fun _ => .pure (fun _ hkept => hkept))
      rintro _ rfl
      exact hpre
    · exact .pure (fun _ hpre => hpre.1)

/-- **All that an engine does leaves what is analyzed with its source.** -/
theorem upheldAhead_declares : UpheldAhead Declares where
  toTaught := taughtAhead_declares.toTaught
  same hsame hdeclares := hdeclares.knowsSame hsame
  resolve := triple_declares_resolve
  load ref record := (triple_declares_sourceOf ref record).imp (fun _ hpre => hpre)
    (fun _ _ hpost => hpost.1) (fun _ hfails => hfails)
  prefetch := taughtAhead_declares.keeps_prefetch
  join specifier requester? :=
    (triple_declares_resolve specifier requester?).bind (fun resolved =>
      (keeps_declares_joinOrStart resolved).bind (fun _ => .pure (fun _ hkept => hkept)))
  recount _ _ hdeclares := hdeclares

end Engine

end Linkage
