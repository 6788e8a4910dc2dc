import Linkage.Proofs.Alike.Linking
import Linkage.Proofs.Engine.Relating
import Linkage.Proofs.Engine.Remembering

/-!
# Engines that are alike

Two engines are alike if their stores are, and they have the same settings, the same host and the
same remembered answers.  If all modules are compared, what an engine does for one module, dynamic
imports that begin or end apart, does the same to both.

* `Engine.Alike` : the relation, with the dynamic imports that each of them keeps.
* `Attempt.alike_buildGraph`, `Attempt.alike_prepare`, `Attempt.alike_startLegacy` : what runs
  bodies is prepared alike.
* `Attempt.alike_unsettled`, `Attempt.alike_fetchSource`, `Attempt.alike_nextLevel`,
  `Attempt.alike_prefetch` : fetching ahead.
-/

namespace Linkage

/-- Two engines that do not differ but in paired numbers, in what is cached and in their dynamic
imports. -/
structure Engine.Alike (pairing : Pairing) (imports imports' : Imports) (engine engine' : Engine) :
    Prop where
  config : engine.config = engine'.config
  host : engine.host = engine'.host
  remembered : ∀ specifier referrer?, engine.resolver.remembered? specifier referrer? =
    engine'.resolver.remembered? specifier referrer?
  memory : engine.resolver.size = engine'.resolver.size
  store : engine.store.Alike pairing engine'.store
  imports_left : engine.imports = imports
  imports_right : engine'.imports = imports'

variable {pairing : Pairing} {imports imports' : Imports} {engine engine' : Engine}

namespace Engine.Alike

theorem withStore (halike : engine.Alike pairing imports imports' engine') {store store' : Store}
    (hstore : store.Alike pairing store') :
    Engine.Alike pairing imports imports' { engine with store } { engine' with store := store' } :=
  { halike with store := hstore }

/-- The host may change on both sides. -/
theorem withHost (halike : engine.Alike pairing imports imports' engine') (host : Host) :
    Engine.Alike pairing imports imports' { engine with host } { engine' with host } :=
  { halike with host := rfl }

/-- The dynamic imports are not compared. -/
theorem withImports (halike : engine.Alike pairing imports imports' engine')
    (newer newer' : Imports) : Engine.Alike pairing newer newer' { engine with imports := newer }
      { engine' with imports := newer' } :=
  { halike with imports_left := rfl, imports_right := rfl }

/-- How many sources have been given is not compared. -/
theorem withLoads (halike : engine.Alike pairing imports imports' engine') (loads loads' : Nat) :
    Engine.Alike pairing imports imports' { engine with loads } { engine' with loads := loads' } :=
  { halike with }

/-- A module is resolved alike, and the answer is remembered on both sides. -/
theorem resolve (halike : engine.Alike pairing imports imports' engine') (specifier : String)
    (referrer? : Option ModuleId) :
    let ended := engine.resolver.resolve engine.config engine.host specifier referrer?
    let ended' := engine'.resolver.resolve engine'.config engine'.host specifier referrer?
    ended.1 = ended'.1 ∧ Engine.Alike pairing imports imports' { engine with resolver := ended.2 }
      { engine' with resolver := ended'.2 } := by
  intro ended ended'
  have hsame := halike.remembered specifier referrer?
  have hleft : ended = Resolver.resolve _ _ _ _ _ := rfl
  have hright : ended' = Resolver.resolve _ _ _ _ _ := rfl
  cases hknown : engine.resolver.remembered? specifier referrer? with
  | some resolved =>
      rw [Resolver.resolve_of_remembered hknown] at hleft
      rw [Resolver.resolve_of_remembered (hsame.symm.trans hknown)] at hright
      rw [hleft, hright]
      exact ⟨rfl, halike⟩
  | none =>
      rw [Resolver.resolve_of_unknown hknown, halike.config, halike.host] at hleft
      rw [Resolver.resolve_of_unknown (hsame.symm.trans hknown)] at hright
      rw [hleft, hright]
      cases engine'.config.resolve engine'.host specifier referrer? with
      | error error => exact ⟨rfl, halike⟩
      | ok resolved =>
          refine ⟨rfl, { halike with remembered := fun other asker? => ?_, memory := ?_ }⟩
          · dsimp only
            rw [Resolver.remembered_append, Resolver.remembered_append, halike.remembered]
          · have hsize := halike.memory
            unfold Resolver.size at hsize ⊢
            dsimp only
            rw [List.length_append, List.length_append, hsize]

end Engine.Alike

namespace Attempt

/-- Two attempts that do the same to engines that are alike. -/
abbrev Alike {α β : Type} (pairing : Pairing) (imports imports' : Imports) (R : α → β → Prop)
    (action : Attempt α) (action' : Attempt β) : Prop :=
  Relates (Engine.Alike pairing imports imports') R action action'

/-- A record that is found with its handle, on both sides. -/
def RecordAlike (pairing : Pairing) (found found' : RecordRef × Record) : Prop :=
  pairing.record found.1 found'.1 ∧ found.2.Alike pairing found'.2

theorem alike_onStore {α β : Type} {R : α → β → Prop} {f : Store → α × Store}
    {f' : Store → β × Store}
    (hsame : ∀ store store' : Store, store.Alike pairing store' →
      R (f store).1 (f' store').1 ∧ (f store).2.Alike pairing (f' store').2) :
    Attempt.Alike pairing imports imports' R (onStore f) (onStore f') := by
  intro engine engine' halike
  rw [Engine.attempt_onStore, Engine.attempt_onStore]
  obtain ⟨hresult, hstore⟩ := hsame _ _ halike.store
  exact ⟨.ok hresult, halike.withStore hstore⟩

theorem alike_tryStore {α β : Type} {R : α → β → Prop}
    {f : Store → Except ModuleError α × Store} {f' : Store → Except ModuleError β × Store}
    (hsame : ∀ store store' : Store, store.Alike pairing store' →
      Matches R (f store).1 (f' store').1 ∧ (f store).2.Alike pairing (f' store').2) :
    Attempt.Alike pairing imports imports' R (tryStore f) (tryStore f') := by
  intro engine engine' halike
  rw [Engine.attempt_tryStore, Engine.attempt_tryStore]
  obtain ⟨hresult, hstore⟩ := hsame _ _ halike.store
  exact ⟨hresult, halike.withStore hstore⟩

theorem alike_resolve (specifier : String) (referrer? : Option ModuleId) :
    Attempt.Alike pairing imports imports' Eq (resolve specifier referrer?)
      (resolve specifier referrer?) := by
  intro engine engine' halike
  obtain ⟨hresult, halike'⟩ := halike.resolve specifier referrer?
  rw [Engine.attempt_resolve, Engine.attempt_resolve]
  refine ⟨?_, halike'⟩
  dsimp only at hresult ⊢
  rw [hresult]
  exact .refl _

section Recorded

variable {ref ref' : RecordRef} (href : pairing.record ref ref')
include href

/-- A change of one record that keeps it alike. -/
theorem alike_modify {f f' : Record → Record}
    (hsame : ∀ record record', record.Alike pairing record' → (f record).Alike pairing (f' record'))
    (hid : ∀ record, (f record).id = record.id) (hid' : ∀ record, (f' record).id = record.id) :
    Attempt.Alike pairing imports imports' (fun _ _ => True)
      (onStore (fun store => ((), store.modify ref f)))
      (onStore (fun store => ((), store.modify ref' f'))) :=
  alike_onStore (fun _ _ halike => ⟨trivial, halike.modify href hsame hid hid'⟩)

theorem alike_keepSource (given : Except ModuleError ModuleSource) :
    Attempt.Alike pairing imports imports' Eq (keepSource ref given) (keepSource ref' given) := by
  refine (Relates.ofExcept (.refl given)).bind_same (fun source => ?_)
  intro engine engine' halike
  have hstore : Store.Alike pairing
      (engine.store.modify ref (fun record => { record with source? := some source }))
      (engine'.store.modify ref' (fun record => { record with source? := some source })) :=
    halike.store.modify href (fun _ _ hrecord => { hrecord with source := rfl }) (fun _ => rfl)
      (fun _ => rfl)
  exact ⟨.ok rfl, (halike.withStore hstore).withLoads _ _⟩

variable {record record' : Record} (hrecord : record.Alike pairing record')
include hrecord

theorem alike_sourceOf : Attempt.Alike pairing imports imports' Eq (sourceOf ref record)
    (sourceOf ref' record') := by
  unfold sourceOf
  rw [← hrecord.source, ← hrecord.id]
  cases record.source? with
  | some source => exact .pure rfl
  | none =>
      refine .get_bind (fun engine engine' halike => ?_)
      rw [halike.host]
      exact alike_keepSource href _ engine engine' halike

end Recorded

section Covered

variable (hall : ∀ id, pairing.covers id)
include hall

theorem alike_reach (halike : engine.Alike pairing imports imports' engine') :
    engine.reach = engine'.reach := by
  have hregistry : engine.store.registry.Alike pairing.record engine'.store.registry :=
    fun key => halike.store.lookup (hall ⟨key⟩)
  unfold Engine.reach Store.size
  rw [hregistry.size, halike.memory, halike.host]

theorem alike_resolveAndRegister (specifier : String) (referrer? : Option ModuleId) :
    Attempt.Alike pairing imports imports'
      (fun found found' => found.1 = found'.1 ∧ pairing.record found.2 found'.2)
      (resolveAndRegister specifier referrer?) (resolveAndRegister specifier referrer?) := by
  refine (alike_resolve specifier referrer?).bind_same (fun resolved => ?_)
  have hregisters : ∀ store store' : Store, store.Alike pairing store' →
      pairing.record (store.getOrCreate resolved.id resolved.format).1
        (store'.getOrCreate resolved.id resolved.format).1 ∧
      (store.getOrCreate resolved.id resolved.format).2.Alike pairing
        (store'.getOrCreate resolved.id resolved.format).2 :=
    fun _ _ halike => halike.getOrCreate (hall resolved.id) resolved.format
  exact (alike_onStore hregisters).bind (fun ref ref' href => .pure ⟨rfl, href⟩)

theorem resolvesAlike_alike : ResolvesAlike (Engine.Alike pairing imports imports') :=
  fun specifier referrer? => (alike_resolveAndRegister hall specifier referrer?).mono
    (fun _ _ hfound => hfound.1.symm)

theorem alike_registered (id : ModuleId) :
    Attempt.Alike pairing imports imports' (RecordAlike pairing) (registered id)
      (registered id) := by
  refine .get_bind (fun engine engine' halike => ?_)
  rcases halike.store.registered (hall id) with
    ⟨hlookup, hlookup', -, -⟩ | ⟨_, _, _, _, href, hrecord, hregistered, hregistered', -⟩
  · dsimp only
    rw [hlookup, hlookup']
    exact ⟨.error _, halike⟩
  · dsimp only
    rw [hregistered.lookup, hregistered'.lookup, hregistered.find, hregistered'.find]
    exact ⟨.ok ⟨href, hrecord⟩, halike⟩

section Recorded

variable {ref ref' : RecordRef} (href : pairing.record ref ref') {record record' : Record}
  (hrecord : record.Alike pairing record')
include href hrecord

theorem alike_analyze : Attempt.Alike pairing imports imports' Eq (analyze ref record)
    (analyze ref' record') := by
  unfold analyze
  rw [← hrecord.analysis, ← hrecord.format, ← hrecord.id]
  cases record.analysis? with
  | some analysis => exact .pure rfl
  | none =>
      dsimp only
      refine (alike_sourceOf href hrecord).bind_same (fun source => ?_)
      have hkeep : ∀ analysis, Attempt.Alike pairing imports imports' Eq
          (onStore (fun store => ((), store.modify ref (fun record =>
            { record with analysis? := some analysis }))) >>= fun _ => pure analysis.requested)
          (onStore (fun store => ((), store.modify ref' (fun record =>
            { record with analysis? := some analysis }))) >>= fun _ => pure analysis.requested) := by
        intro analysis
        refine Relates.bind (R := fun _ _ => True) ?_ (fun _ _ _ => .pure rfl)
        refine alike_modify href (fun record record' hrecord => ?_) (fun _ => rfl) (fun _ => rfl)
        exact { hrecord with analysis := rfl, covered := fun _ _ source _ => hall source }
      cases record.format with
      | legacy => exact hkeep _
      | modern =>
          exact (relates_analyzeModern (resolvesAlike_alike hall) record.id source).bind_same hkeep

/-- The next level of sources is found alike. -/
theorem alike_nextLevel (found seen : List ModuleId) :
    Attempt.Alike pairing imports imports' Eq (nextLevel ref record found seen)
      (nextLevel ref' record' found seen) := by
  unfold nextLevel
  rw [← hrecord.format, ← hrecord.id]
  split
  · exact .pure rfl
  · refine .get_bind (fun engine engine' halike => ?_)
    dsimp only
    rw [rel_bind_eq (halike.store.record href) (fun _ _ hrecord => hrecord.source)]
    cases (engine'.store.record? ref').bind (·.source?) with
    | none => exact ⟨.ok rfl, halike⟩
    | some source =>
        refine Relates.foldlM_same source.specifiers (found, seen) (fun specifier _ known => ?_)
          engine engine' halike
        refine (alike_resolveAndRegister hall specifier (some record.id)).bind
          (fun answer answer' hanswer => ?_)
        obtain ⟨resolved, ref⟩ := answer
        obtain ⟨resolved', ref'⟩ := answer'
        obtain rfl : resolved = resolved' := hanswer.1
        dsimp only
        split
        · exact .pure rfl
        · exact .pure rfl

end Recorded

/-- The body of a legacy module is made ready alike. -/
theorem alike_startLegacy {ref ref' : RecordRef} (href : pairing.record ref ref') :
    Attempt.Alike pairing imports imports' Eq (startLegacy ref) (startLegacy ref') := by
  refine .get_bind (fun engine engine' halike => ?_)
  rcases rel_cases (halike.store.record href) with
    ⟨hnone, hnone'⟩ | ⟨record, record', hsome, hsome', hrecord⟩
  · rw [hnone, hnone']
    exact ⟨.ok rfl, halike⟩
  · rw [hsome, hsome']
    refine Relates.bind (alike_analyze hall href hrecord) (fun _ _ _ => ?_) engine engine' halike
    refine .get_bind (fun engine engine' halike => ?_)
    rcases rel_cases (halike.store.record href) with
      ⟨hnone, hnone'⟩ | ⟨record, record', hsome, hsome', hrecord⟩
    · rw [hnone, hnone']
      exact ⟨.ok rfl, halike⟩
    · rw [hsome, hsome']
      refine Relates.bind_same (alike_sourceOf href hrecord) (fun source => ?_) engine engine'
        halike
      refine Relates.bind (R := fun _ _ => True) ?_ (fun _ _ _ => .pure rfl)
      refine alike_modify href (fun record record' hrecord => ?_) (fun _ => rfl) (fun _ => rfl)
      exact { hrecord with
        status := rfl
        exports := rel_map hrecord.exports
          (fun _ _ hexports => { hexports with started := rfl }) }

/-! ## Graphs -/

theorem alike_walk (fuel : Nat) (above : List ModuleId) (id : ModuleId)
    (dependencies : List ModuleId) (graph : Graph) :
    Attempt.Alike pairing imports imports' Eq (walk fuel above id dependencies graph)
      (walk fuel above id dependencies graph) := by
  induction fuel generalizing above id dependencies graph with
  | zero => exact .throw _
  | succ fuel ih =>
      refine (Relates.foldlM_same dependencies graph (fun dependency _ graph => ?_)).bind_same
        (fun graph => .pure rfl)
      split
      · exact .pure rfl
      · split
        · exact .pure rfl
        · refine (alike_registered hall dependency).bind (fun found found' hfound => ?_)
          obtain ⟨ref, record⟩ := found
          obtain ⟨ref', record'⟩ := found'
          obtain ⟨href, hrecord⟩ := hfound
          dsimp only at href hrecord ⊢
          rw [← hrecord.status, ← hrecord.requested]
          split
          · exact .pure rfl
          · exact (alike_analyze hall href hrecord).bind_same (fun further => ih _ _ _ _)

theorem alike_buildGraph (root : ModuleId) :
    Attempt.Alike pairing imports imports' Eq (buildGraph root) (buildGraph root) := by
  refine (alike_registered hall root).bind (fun found found' hfound => ?_)
  refine (alike_analyze hall hfound.1 hfound.2).bind_same (fun dependencies => ?_)
  refine .get_bind (fun engine engine' halike => ?_)
  rw [alike_reach hall halike]
  exact alike_walk hall _ _ _ _ _ engine engine' halike

theorem alike_graphOf (specifier : String) :
    Attempt.Alike pairing imports imports' Eq (graphOf specifier) (graphOf specifier) := by
  refine (alike_resolveAndRegister hall specifier none).bind (fun found found' hfound => ?_)
  obtain ⟨resolved, ref⟩ := found
  obtain ⟨resolved', ref'⟩ := found'
  obtain rfl : resolved = resolved' := hfound.1
  exact alike_buildGraph hall resolved.id

/-- A module is built and linked alike. -/
theorem alike_prepare (root : ModuleId) :
    Attempt.Alike pairing imports imports' Eq (prepare root) (prepare root) := by
  refine (alike_buildGraph hall root).bind_same (fun graph => ?_)
  refine (alike_tryStore (R := fun _ _ => True) (fun store store' halike => ?_)).bind
    (fun _ _ _ => .pure rfl)
  obtain ⟨hresult, hlinked⟩ := halike.link hall graph.order
  rw [hresult]
  exact ⟨(Matches.refl _).mono (fun _ _ _ => trivial), hlinked⟩

/-! ## Fetching ahead -/

/-- The same modules have not settled. -/
theorem alike_unsettled (ids : List ModuleId) :
    Attempt.Alike pairing imports imports' (List.Forall₂ (RecordAlike pairing)) (unsettled ids)
      (unsettled ids) := by
  refine .get_bind (fun engine engine' halike => ⟨.ok ?_, halike⟩)
  induction ids with
  | nil => exact .nil
  | cons id rest ih =>
      rcases halike.store.registered (hall id) with
        ⟨hlookup, hlookup', -, -⟩ | ⟨ref, ref', record, record', href, hrecord, hfound, hfound', -⟩
      · rw [List.filterMap_cons, List.filterMap_cons, hlookup, hlookup']
        exact ih
      · rw [List.filterMap_cons, List.filterMap_cons, hfound.lookup, hfound'.lookup, hfound.find,
          hfound'.find]
        dsimp only
        rw [← hrecord.status]
        cases record.status.isSettled with
        | true => exact ih
        | false => exact .cons ⟨href, hrecord⟩ ih

omit hall in
theorem alike_fetchSource {ref ref' : RecordRef} (href : pairing.record ref ref')
    {record record' : Record} (hrecord : record.Alike pairing record') :
    Attempt.Alike pairing imports imports' (fun _ _ => True) (fetchSource ref record)
      (fetchSource ref' record') := by
  unfold fetchSource
  rw [← hrecord.source, ← hrecord.id]
  split
  · refine .get_bind (fun engine engine' halike => ?_)
    rw [halike.host]
    exact Relates.bind (alike_keepSource href _) (fun _ _ _ => .pure trivial) engine engine' halike
  · exact .pure trivial

/-- The same levels are fetched. -/
theorem alike_prefetchLevels (fuel : Nat) (level seen : List ModuleId) :
    Attempt.Alike pairing imports imports' Eq (prefetchLevels fuel level seen)
      (prefetchLevels fuel level seen) := by
  induction fuel generalizing level seen with
  | zero => exact .pure rfl
  | succ fuel ih =>
      unfold prefetchLevels
      split
      · exact .pure rfl
      · refine (alike_unsettled hall level).bind (fun records records' hrecords => ?_)
        refine (Relates.forM_pairs hrecords (fun entry entry' hentry =>
          alike_fetchSource hentry.1 hentry.2)).bind (fun _ _ _ => ?_)
        refine (Relates.foldlM_pairs hrecords rfl
          (fun entry entry' hentry known _ hknown => ?_)).bind_same (fun found => ih found.1 found.2)
        subst hknown
        exact alike_nextLevel hall hentry.1 hentry.2 known.1 known.2

theorem alike_prefetch (root : ModuleId) :
    Attempt.Alike pairing imports imports' Eq (prefetch root) (prefetch root) := by
  refine .get_bind (fun engine engine' halike => ?_)
  rw [alike_reach hall halike]
  exact alike_prefetchLevels hall _ [root] [root] engine engine' halike

end Covered

end Attempt

/-- What one engine comes to, the other does. -/
theorem Engine.Alike.attempt {α : Type} {action action' : Attempt α}
    (halike : engine.Alike pairing imports imports' engine')
    (hrelates : Attempt.Alike pairing imports imports' Eq action action') {ended : Engine}
    {result : Except ModuleError α} (hended : engine.attempt action = (result, ended)) :
    ∃ ended', engine'.attempt action' = (result, ended') ∧
      ended.Alike pairing imports imports' ended' := by
  obtain ⟨hresult, halike'⟩ := hrelates engine engine' halike
  rw [hended] at hresult halike'
  exact ⟨(engine'.attempt action').2, Prod.ext hresult.eq rfl, halike'⟩

end Linkage
