import Linkage.Engine.Importing
import Linkage.Proofs.Engine.Relating
import Linkage.Proofs.Engine.Remembering
import Linkage.Proofs.Renaming.Linking
import Linkage.Session.Machine

/-!
# Engines under new names

Two engines mirror each other under new names if their stores do, and they have the same settings,
the same host and the same remembered answers.  What an engine does for one module, dynamic imports
that begin or end apart, does the same to both, and it leaves the dynamic imports as they are.

* `Engine.Mirrors` : the relation, with the dynamic imports that each of them keeps.
* `Attempt.buildGraph_mirrors`, `Attempt.prepare_mirrors`, `Attempt.prefetch_mirrors` and their
  like : attempts do the same.
-/

namespace Linkage

/-- Two engines that do not differ but in what things are called, and in their dynamic imports. -/
structure Engine.Mirrors (names : Renaming) (imports imports' : Imports) (engine engine' : Engine) :
    Prop where
  config : engine'.config = engine.config
  host : engine'.host = engine.host
  remembered : ∀ specifier referrer?, engine'.resolver.remembered? specifier referrer? =
    engine.resolver.remembered? specifier referrer?
  memory : engine'.resolver.size = engine.resolver.size
  store : engine.store.Mirrors names engine'.store
  imports_left : engine.imports = imports
  imports_right : engine'.imports = imports'

/-- Every engine mirrors itself. -/
theorem Engine.Mirrors.refl (engine : Engine) :
    engine.Mirrors .same engine.imports engine.imports engine :=
  ⟨rfl, rfl, fun _ _ => rfl, rfl, .refl engine.store, rfl, rfl⟩

variable {names : Renaming} {imports imports' : Imports} {engine engine' : Engine}

theorem Engine.Mirrors.withStore (hmirrors : engine.Mirrors names imports imports' engine')
    {store store' : Store} (hstore : store.Mirrors names store') :
    Engine.Mirrors names imports imports' { engine with store } { engine' with store := store' } :=
  { hmirrors with store := hstore }

theorem Engine.Mirrors.reach (hmirrors : engine.Mirrors names imports imports' engine') :
    engine'.reach = engine.reach := by
  unfold Engine.reach
  rw [hmirrors.store.size, hmirrors.memory, hmirrors.host]

/-- A module is resolved alike, and the answer is remembered on both sides. -/
theorem Engine.Mirrors.resolve (hmirrors : engine.Mirrors names imports imports' engine')
    (specifier : String) (referrer? : Option ModuleId) :
    let ended := engine.resolver.resolve engine.config engine.host specifier referrer?
    let ended' := engine'.resolver.resolve engine'.config engine'.host specifier referrer?
    ended'.1 = ended.1 ∧ Engine.Mirrors names imports imports'
      { engine with resolver := ended.2 } { engine' with resolver := ended'.2 } := by
  intro ended ended'
  have hsame := hmirrors.remembered specifier referrer?
  have hleft : ended = Resolver.resolve _ _ _ _ _ := rfl
  have hright : ended' = Resolver.resolve _ _ _ _ _ := rfl
  cases hknown : engine.resolver.remembered? specifier referrer? with
  | some resolved =>
      rw [Resolver.resolve_of_remembered hknown] at hleft
      rw [Resolver.resolve_of_remembered (hsame.trans hknown)] at hright
      rw [hleft, hright]
      exact ⟨rfl, hmirrors⟩
  | none =>
      rw [Resolver.resolve_of_unknown hknown] at hleft
      rw [Resolver.resolve_of_unknown (hsame.trans hknown), hmirrors.config, hmirrors.host]
        at hright
      rw [hleft, hright]
      cases engine.config.resolve engine.host specifier referrer? with
      | error error => exact ⟨rfl, hmirrors⟩
      | ok resolved =>
          refine ⟨rfl, { hmirrors with remembered := fun other asker? => ?_, memory := ?_ }⟩
          · dsimp only
            rw [Resolver.remembered_append, Resolver.remembered_append,
              hmirrors.remembered]
          · have hsize := hmirrors.memory
            unfold Resolver.size at hsize ⊢
            dsimp only
            rw [List.length_append, List.length_append, hsize]

namespace Attempt

/-- Two attempts that do the same to engines that mirror each other. -/
abbrev Mirrors {α β : Type} (names : Renaming) (imports imports' : Imports)
    (R : α → β → Prop) (action : Attempt α) (action' : Attempt β) : Prop :=
  Relates (Engine.Mirrors names imports imports') R action action'

/-- An attempt that does the same under new names keeps the dynamic imports. -/
theorem Mirrors.keeps {α β : Type} {R : α → β → Prop} {action : Attempt α} {action' : Attempt β}
    {engine : Engine}
    (hmirrors : Mirrors .same engine.imports engine.imports R action action') :
    (engine.attempt action).2.imports = engine.imports :=
  (hmirrors _ _ (.refl engine)).2.imports_left

theorem onStore_mirrors {α β : Type} {R : α → β → Prop} {f : Store → α × Store}
    {f' : Store → β × Store}
    (hsame : ∀ store store' : Store, store.Mirrors names store' →
      R (f store).1 (f' store').1 ∧ (f store).2.Mirrors names (f' store').2) :
    Mirrors names imports imports' R (onStore f) (onStore f') := by
  intro engine engine' hmirrors
  rw [Engine.attempt_onStore, Engine.attempt_onStore]
  obtain ⟨hresult, hstore⟩ := hsame _ _ hmirrors.store
  exact ⟨.ok hresult, hmirrors.withStore hstore⟩

/-- A change of one record that does not look at what has a new name. -/
theorem modify_mirrors (ref : RecordRef) {f : Record → Record}
    (hsame : ∀ record, f (record.rename names) = (f record).rename names) :
    Mirrors names imports imports' (fun _ _ => True)
      (onStore (fun store => ((), store.modify ref f)))
      (onStore (fun store => ((), store.modify (names.record ref) f))) :=
  onStore_mirrors (fun _ _ hmirrors => ⟨trivial, hmirrors.modify ref hsame⟩)

theorem tryStore_mirrors {α β : Type} {R : α → β → Prop}
    {f : Store → Except ModuleError α × Store} {f' : Store → Except ModuleError β × Store}
    (hsame : ∀ store store' : Store, store.Mirrors names store' →
      Matches R (f store).1 (f' store').1 ∧ (f store).2.Mirrors names (f' store').2) :
    Mirrors names imports imports' R (tryStore f) (tryStore f') := by
  intro engine engine' hmirrors
  rw [Engine.attempt_tryStore, Engine.attempt_tryStore]
  obtain ⟨hresult, hstore⟩ := hsame _ _ hmirrors.store
  exact ⟨hresult, hmirrors.withStore hstore⟩

theorem resolve_mirrors (specifier : String) (referrer? : Option ModuleId) :
    Mirrors names imports imports' Eq (resolve specifier referrer?)
      (resolve specifier referrer?) := by
  intro engine engine' hmirrors
  obtain ⟨hresult, hmirrors'⟩ := hmirrors.resolve specifier referrer?
  rw [Engine.attempt_resolve, Engine.attempt_resolve]
  refine ⟨?_, hmirrors'⟩
  dsimp only at hresult ⊢
  rw [hresult]
  exact .refl _

theorem resolveAndRegister_mirrors (specifier : String) (referrer? : Option ModuleId) :
    Mirrors names imports imports'
      (fun found found' => found'.1 = found.1 ∧ found'.2 = names.record found.2)
      (resolveAndRegister specifier referrer?) (resolveAndRegister specifier referrer?) := by
  refine (resolve_mirrors specifier referrer?).bind_same (fun resolved => ?_)
  refine (onStore_mirrors (R := fun ref ref' => ref' = names.record ref)
    (fun store store' hmirrors => hmirrors.getOrCreate resolved.id resolved.format)).bind
      (fun ref ref' href => ?_)
  exact .pure ⟨rfl, href⟩

theorem resolvesAlike_mirrors : ResolvesAlike (Engine.Mirrors names imports imports') :=
  fun specifier referrer? => (resolveAndRegister_mirrors specifier referrer?).mono
    (fun _ _ hfound => hfound.1)

/-- A record that is found with its handle, on both sides. -/
abbrev SameRecord (names : Renaming) (found found' : RecordRef × Record) : Prop :=
  found' = (names.record found.1, found.2.rename names)

theorem registered_mirrors (id : ModuleId) :
    Mirrors names imports imports' (SameRecord names) (registered id) (registered id) := by
  refine .get_bind (fun engine engine' hmirrors => ?_)
  dsimp only
  rw [hmirrors.store.lookup, hmirrors.store.find]
  cases engine.store.lookup? id with
  | none => exact ⟨.error _, hmirrors⟩
  | some ref =>
      cases engine.store.find? id with
      | none => exact ⟨.error _, hmirrors⟩
      | some record => exact ⟨.ok rfl, hmirrors⟩

theorem keepSource_mirrors (ref : RecordRef) (given : Except ModuleError ModuleSource) :
    Mirrors names imports imports' Eq (keepSource ref given)
      (keepSource (names.record ref) given) := by
  refine (Relates.ofExcept (.refl given)).bind_same (fun source => ?_)
  intro engine engine' hmirrors
  have hstore : (engine.store.modify ref (fun record =>
        { record with source? := some source })).Mirrors names
      (engine'.store.modify (names.record ref) (fun record =>
        { record with source? := some source })) :=
    hmirrors.store.modify ref (fun _ => rfl)
  exact ⟨.ok rfl, { hmirrors with store := hstore }⟩

theorem sourceOf_mirrors (ref : RecordRef) (record : Record) :
    Mirrors names imports imports' Eq (sourceOf ref record)
      (sourceOf (names.record ref) (record.rename names)) := by
  unfold sourceOf
  rw [Record.rename_source, Record.rename_id]
  cases record.source? with
  | some source => exact .pure rfl
  | none =>
      refine .get_bind (fun engine engine' hmirrors => ?_)
      rw [hmirrors.host]
      exact keepSource_mirrors ref _ engine engine' hmirrors

theorem analyze_mirrors (ref : RecordRef) (record : Record) :
    Mirrors names imports imports' Eq (analyze ref record)
      (analyze (names.record ref) (record.rename names)) := by
  unfold analyze
  rw [Record.rename_analysis, Record.rename_format, Record.rename_id]
  cases record.analysis? with
  | some analysis => exact .pure rfl
  | none =>
      dsimp only
      refine (sourceOf_mirrors ref record).bind (fun source _ hsource => ?_)
      subst hsource
      have hkeep : ∀ analysis, Mirrors names imports imports' Eq
          (onStore (fun store => ((), store.modify ref (fun record =>
            { record with analysis? := some analysis }))) >>= fun _ => pure analysis.requested)
          (onStore (fun store => ((), store.modify (names.record ref) (fun record =>
            { record with analysis? := some analysis }))) >>= fun _ => pure analysis.requested) := by
        intro analysis
        refine (modify_mirrors ref (fun record => ?_)).bind (fun _ _ _ => .pure rfl)
        rfl
      cases record.format with
      | legacy => exact hkeep _
      | modern =>
          exact (relates_analyzeModern resolvesAlike_mirrors record.id source).bind_same hkeep

theorem walk_mirrors (fuel : Nat) (above : List ModuleId) (id : ModuleId)
    (dependencies : List ModuleId) (graph : Graph) :
    Mirrors names imports imports' Eq (walk fuel above id dependencies graph)
      (walk fuel above id dependencies graph) := by
  induction fuel generalizing above id dependencies graph with
  | zero => exact .throw _
  | succ fuel ih =>
      refine (Relates.foldlM_same dependencies graph (fun dependency _ graph => ?_)).bind_same
        (fun graph => .pure rfl)
      split
      · exact .pure rfl
      · split
        · exact .pure rfl
        · refine (registered_mirrors dependency).bind (fun found found' hfound => ?_)
          obtain ⟨ref, record⟩ := found
          subst hfound
          dsimp only
          rw [Record.rename_status, Record.rename_requested]
          split
          · exact .pure rfl
          · refine (analyze_mirrors ref record).bind (fun further _ hfurther => ?_)
            subst hfurther
            exact ih _ _ _ _

theorem buildGraph_mirrors (root : ModuleId) :
    Mirrors names imports imports' Eq (buildGraph root) (buildGraph root) := by
  refine (registered_mirrors root).bind (fun found found' hfound => ?_)
  obtain ⟨ref, record⟩ := found
  subst hfound
  refine (analyze_mirrors ref record).bind (fun dependencies _ hdependencies => ?_)
  subst hdependencies
  refine .get_bind (fun engine engine' hmirrors => ?_)
  rw [hmirrors.reach]
  exact walk_mirrors _ _ _ _ _ engine engine' hmirrors

theorem graphOf_mirrors (specifier : String) :
    Mirrors names imports imports' Eq (graphOf specifier) (graphOf specifier) := by
  refine (resolveAndRegister_mirrors specifier none).bind (fun found found' hfound => ?_)
  obtain ⟨resolved, ref⟩ := found
  obtain ⟨resolved', ref'⟩ := found'
  obtain rfl : resolved' = resolved := hfound.1
  exact buildGraph_mirrors resolved'.id

theorem prepare_mirrors (root : ModuleId) :
    Mirrors names imports imports' Eq (prepare root) (prepare root) := by
  refine (buildGraph_mirrors root).bind_same (fun graph => ?_)
  refine (tryStore_mirrors (R := fun _ _ => True) (fun store store' hmirrors => ?_)).bind
    (fun _ _ _ => .pure rfl)
  obtain ⟨hresult, hlinked⟩ := hmirrors.link graph.order
  rw [hresult]
  exact ⟨(Matches.refl _).mono (fun _ _ _ => trivial), hlinked⟩

theorem startLegacy_mirrors (ref : RecordRef) :
    Mirrors names imports imports' Eq (startLegacy ref) (startLegacy (names.record ref)) := by
  refine .get_bind (fun engine engine' hmirrors => ?_)
  rw [hmirrors.store.record]
  cases engine.store.record? ref with
  | none => exact ⟨.ok rfl, hmirrors⟩
  | some record =>
      dsimp only [Option.map_some]
      refine Relates.bind (analyze_mirrors ref record) (fun _ _ _ => ?_) engine engine' hmirrors
      refine .get_bind (fun engine engine' hmirrors => ?_)
      rw [hmirrors.store.record]
      cases engine.store.record? ref with
      | none => exact ⟨.ok rfl, hmirrors⟩
      | some record =>
          dsimp only [Option.map_some]
          refine Relates.bind (sourceOf_mirrors ref record) (fun source _ hsource => ?_) engine
            engine' hmirrors
          subst hsource
          refine (modify_mirrors ref (fun record => ?_)).bind (fun _ _ _ => .pure rfl)
          unfold Record.rename
          simp only [Option.map_map]
          rfl

/-! ## Fetching ahead -/

theorem unsettled_mirrors (ids : List ModuleId) :
    Mirrors names imports imports'
      (fun found found' => found' = found.map (fun entry =>
        (names.record entry.1, entry.2.rename names)))
      (unsettled ids) (unsettled ids) := by
  refine .get_bind (fun engine engine' hmirrors => ⟨.ok ?_, hmirrors⟩)
  rw [List.map_filterMap]
  congr 1
  funext id
  rw [hmirrors.store.lookup, hmirrors.store.find]
  cases engine.store.lookup? id with
  | none => rfl
  | some ref =>
      cases engine.store.find? id with
      | none => rfl
      | some record =>
          dsimp only [Option.map_some]
          rw [Record.rename_status]
          split <;> rfl

theorem fetchSource_mirrors (ref : RecordRef) (record : Record) :
    Mirrors names imports imports' (fun _ _ => True) (fetchSource ref record)
      (fetchSource (names.record ref) (record.rename names)) := by
  unfold fetchSource
  rw [Record.rename_source, Record.rename_id]
  split
  · refine .get_bind (fun engine engine' hmirrors => ?_)
    rw [hmirrors.host]
    exact Relates.bind (keepSource_mirrors ref _) (fun _ _ _ => .pure trivial) engine engine'
      hmirrors
  · exact .pure trivial

theorem nextLevel_mirrors (ref : RecordRef) (record : Record) (found seen : List ModuleId) :
    Mirrors names imports imports' Eq (nextLevel ref record found seen)
      (nextLevel (names.record ref) (record.rename names) found seen) := by
  unfold nextLevel
  rw [Record.rename_format, Record.rename_id]
  split
  · exact .pure rfl
  · refine .get_bind (fun engine engine' hmirrors => ?_)
    have hsource : (engine'.store.record? (names.record ref)).bind (·.source?) =
        (engine.store.record? ref).bind (·.source?) := by
      rw [hmirrors.store.record]
      cases engine.store.record? ref <;> rfl
    dsimp only
    rw [hsource]
    cases (engine.store.record? ref).bind (·.source?) with
    | none => exact ⟨.ok rfl, hmirrors⟩
    | some source =>
        refine Relates.foldlM_same source.specifiers (found, seen) (fun specifier _ known => ?_)
          engine engine' hmirrors
        refine (resolveAndRegister_mirrors specifier (some record.id)).bind
          (fun answer answer' hanswer => ?_)
        obtain ⟨resolved, ref⟩ := answer
        obtain ⟨resolved', ref'⟩ := answer'
        obtain rfl : resolved' = resolved := hanswer.1
        dsimp only
        split
        · exact .pure rfl
        · exact .pure rfl

theorem prefetchLevels_mirrors (fuel : Nat) (level seen : List ModuleId) :
    Mirrors names imports imports' (fun _ _ => True) (prefetchLevels fuel level seen)
      (prefetchLevels fuel level seen) := by
  induction fuel generalizing level seen with
  | zero => exact .pure trivial
  | succ fuel ih =>
      unfold prefetchLevels
      split
      · exact .pure trivial
      · refine (unsettled_mirrors level).bind (fun records records' hrecords => ?_)
        subst hrecords
        refine (Relates.forM records (fun entry _ =>
          fetchSource_mirrors entry.1 entry.2)).bind (fun _ _ _ => ?_)
        refine (Relates.foldlM (S := Eq) records rfl (fun entry _ known _ hknown => ?_)).bind
          (fun further _ hfurther => ?_)
        · subst hknown
          exact nextLevel_mirrors entry.1 entry.2 known.1 known.2
        · subst hfurther
          exact ih further.1 further.2

theorem prefetch_mirrors (root : ModuleId) :
    Mirrors names imports imports' (fun _ _ => True) (prefetch root) (prefetch root) := by
  refine .get_bind (fun engine engine' hmirrors => ?_)
  rw [hmirrors.reach]
  exact prefetchLevels_mirrors _ _ _ engine engine' hmirrors

theorem concludeImport_mirrors (target : ModuleId) (requester? : Option ModuleId) :
    Mirrors names imports imports' (fun found found' => found' = found.rename names)
      (concludeImport target requester?) (concludeImport target requester?) := by
  refine (registered_mirrors target).bind (fun found found' hfound => ?_)
  obtain ⟨ref, record⟩ := found
  subst hfound
  dsimp only
  rw [Record.rename_error]
  cases record.error? with
  | some error => exact .throw error
  | none =>
      exact tryStore_mirrors (fun store store' hmirrors =>
        ⟨.of_map (hmirrors.namespace_ target requester?).1,
          (hmirrors.namespace_ target requester?).2⟩)

end Attempt

end Linkage
