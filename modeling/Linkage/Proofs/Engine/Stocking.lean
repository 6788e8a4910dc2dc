import Linkage.Proofs.Engine.Unbounded
import Linkage.Proofs.Engine.Repeating

/-!
# Graphs that are built without the host

Where every module that can be reached is settled, or analyzed, or has a source whose specifiers are
remembered, a graph is built without asking the host for anything.  Then nothing can go wrong but that
the declarations of a module contradict each other.

* `Attempt.OnlyReads`, `Attempt.onlyReads_analyzeModern` : declarations whose specifiers are remembered.
* `Engine.Stocked` : all is at hand that a graph needs.
* `Attempt.Unasking`, `Attempt.unasking_analyze` : analyzing a module without the host.
* `Attempt.buildGraph_without_host` : building the graph without it.
* `Attempt.Visits.blames`, `Attempt.Builds.blames` : only declarations can be to blame.
-/

namespace Linkage

/-- Whether an error says that the declarations of a module contradict each other. -/
def ModuleError.blamesDeclarations : ModuleError → Bool
  | .malformed _ _ | .duplicateExport _ _ => true
  | _ => false

namespace Attempt

variable {α β γ : Type} {engine : Engine}

/-- An attempt that learns nothing, whoever makes it that remembers as much, and that fails only over
declarations. -/
def OnlyReads (engine : Engine) (action : Attempt α) : Prop :=
  ∃ result, (∀ later, engine.Retains later → later.attempt action = (result, later)) ∧
    ∀ error, result = .error error → error.blamesDeclarations = true

namespace OnlyReads

theorem pure (value : α) : OnlyReads engine (Pure.pure value : Attempt α) :=
  ⟨.ok value, fun _ _ => rfl, nofun⟩

theorem ofExcept {given : Except ModuleError α}
    (hgiven : ∀ error, given = .error error → error.blamesDeclarations = true) :
    OnlyReads engine (MonadExcept.ofExcept given : Attempt α) :=
  ⟨given, fun _ _ => Engine.attempt_ofExcept given, hgiven⟩

theorem bind {action : Attempt α} {next : α → Attempt β} (hfirst : OnlyReads engine action)
    (hnext : ∀ value, OnlyReads engine (next value)) : OnlyReads engine (action >>= next) := by
  obtain ⟨result, hresult, hblames⟩ := hfirst
  cases result with
  | error error =>
      refine ⟨.error error, fun later hlater => ?_, fun other hother => ?_⟩
      · rw [Engine.attempt_bind, hresult later hlater]
      · exact Except.error.inj hother ▸ hblames error rfl
  | ok value =>
      obtain ⟨result', hresult', hblames'⟩ := hnext value
      refine ⟨result', fun later hlater => ?_, hblames'⟩
      rw [Engine.attempt_bind, hresult later hlater]
      exact hresult' later hlater

theorem foldlM {f : β → γ → Attempt β} (items : List γ) (start : β)
    (hstep : ∀ item ∈ items, ∀ value, OnlyReads engine (f value item)) :
    OnlyReads engine (items.foldlM f start) := by
  induction items generalizing start with
  | nil => exact .pure start
  | cons item rest ih =>
      rw [List.foldlM_cons]
      exact (hstep item List.mem_cons_self start).bind
        (fun value => ih value (fun other hother => hstep other (List.mem_cons_of_mem _ hother)))

end OnlyReads

end Attempt

namespace Engine

/-- A specifier is remembered and leads to a module that is registered, one of these. -/
def Foresees (engine : Engine) (within : ModuleId → Prop) (id : ModuleId) (specifier : String) : Prop :=
  ∃ resolved, engine.resolver.remembered? specifier (some id) = some resolved ∧
    within resolved.id ∧ ∃ ref, engine.store.lookup? resolved.id = some ref

end Engine

namespace Attempt

variable {engine : Engine} {within : ModuleId → Prop} {id : ModuleId}

/-- The items of a declaration fail only over declarations. -/
theorem blames_addItems {source? : Option ModuleId} {analysis : Analysis} {items : List ExportItem}
    {error : ModuleError} (hfailed : analysis.addItems id source? items = .error error) :
    error.blamesDeclarations = true := by
  unfold Analysis.addItems at hfailed
  obtain ⟨item, -, sofar, hitem⟩ := exists_of_foldlM_eq_error hfailed
  rcases bind_eq_error_iff.mp hitem with hentry | ⟨entry, -, hadded⟩
  · cases item <;> cases source? <;> simp only [Analysis.exportEntry, reduceCtorEq] at hentry
    · split at hentry <;> cases hentry
    · obtain rfl := Except.error.inj hentry
      rfl
    · obtain rfl := Except.error.inj hentry
      rfl
  · unfold Analysis.addExport at hadded
    split at hadded
    · split at hadded
      · obtain rfl := Except.error.inj hadded
        rfl
      · cases hadded
    · cases hadded

theorem onlyReads_request {specifier : String} (hforesees : engine.Foresees within id specifier)
    (analysis : Analysis) : OnlyReads engine (request id specifier analysis) := by
  obtain ⟨resolved, hknown, -, ref, hlookup⟩ := hforesees
  refine ⟨.ok (resolved.id, analysis.request resolved.id), fun later hlater => ?_, nofun⟩
  unfold request
  rw [Engine.attempt_bind, attempt_resolveAndRegister_of_known (hlater.resolver _ _ _ hknown)
    (hlater.lookup _ _ hlookup)]
  rfl

/-- **Declarations whose specifiers are remembered** are read without learning anything. -/
theorem onlyReads_analyzeModern {source : ModuleSource}
    (hforesees : ∀ specifier ∈ source.specifiers, engine.Foresees within id specifier) :
    OnlyReads engine (analyzeModern id source) := by
  unfold analyzeModern
  refine (OnlyReads.foldlM source.imports Analysis.empty (fun declaration hmem analysis => ?_)).bind
    (fun analysis => OnlyReads.foldlM source.exports analysis (fun declaration hmem analysis => ?_))
  · refine (onlyReads_request (hforesees _ (List.mem_append_left _ ?_)) analysis).bind
      (fun _ => .pure _)
    exact List.mem_map_of_mem hmem
  · unfold addExports
    cases hsource : declaration.source? with
    | none => exact .ofExcept (fun _ hfailed => blames_addItems hfailed)
    | some specifier =>
        refine (onlyReads_request (hforesees specifier (List.mem_append_right _ ?_)) analysis).bind
          (fun _ => .ofExcept (fun _ hfailed => blames_addItems hfailed))
        exact List.mem_filterMap.mpr ⟨declaration, hmem, hsource⟩

end Attempt

/-! ## What a graph needs -/

namespace Engine

variable {engine : Engine} {root : ModuleId} {within : ModuleId → Prop} {id : ModuleId}
  {ref : RecordRef} {record : Record}

/-- What a module asks for is known, or can be read off its source. -/
def HasAtHand (engine : Engine) (within : ModuleId → Prop) (record : Record) : Prop :=
  (∃ analysis, record.analysis? = some analysis ∧
    (record.format = .modern → ∀ dependency ∈ analysis.requested, within dependency)) ∨
  record.analysis? = none ∧ ∃ source, record.source? = some source ∧ (record.format = .modern →
    ∀ specifier ∈ source.specifiers, engine.Foresees within record.id specifier)

/-- **All is at hand that the graph of a root needs.**  Each of these modules is a leaf of the graph,
or what it asks for is at hand and is one of them. -/
def Stocked (root : ModuleId) (within : ModuleId → Prop) (engine : Engine) : Prop :=
  ∀ id, within id → ∃ ref record, engine.store.Registered id ref record ∧
    (id ≠ root ∧ record.status.isSettled = true ∨ engine.HasAtHand within record)

/-- What a graph expands is at hand. -/
theorem Stocked.hasAtHand (hstocked : engine.Stocked root within)
    (hregistered : engine.store.Registered id ref record) (hid : within id)
    (hopen : id = root ∨ record.status.isSettled = false) : engine.HasAtHand within record := by
  obtain ⟨ref', found, hfound, hcases⟩ := hstocked id hid
  obtain ⟨rfl, rfl⟩ := hfound.unique hregistered
  refine hcases.resolve_left (fun hleaf => ?_)
  rcases hopen with rfl | hunsettled
  · exact hleaf.1 rfl
  · rw [hleaf.2] at hunsettled
    cases hunsettled

/-- A module has been analyzed, and it asks only for such modules. -/
theorem Stocked.keepAnalysis (hstocked : engine.Stocked root within) (ref : RecordRef)
    {analysis : Analysis} (hwithin : ∀ dependency ∈ analysis.requested, within dependency) :
    Stocked root within { engine with
      store := engine.store.modify ref (fun record => { record with
        analysis? := some analysis }) } := by
  intro id hid
  obtain ⟨other, found, hfound, hcases⟩ := hstocked id hid
  by_cases hsame : other = ref
  · subst hsame
    exact ⟨other, _, ⟨hfound.lookup, Store.record?_modify_self _ hfound.record⟩,
      .inr (.inl ⟨analysis, rfl, fun _ => hwithin⟩)⟩
  · exact ⟨other, found,
      ⟨hfound.lookup, (Store.record?_modify_ne hsame _).trans hfound.record⟩, hcases⟩

end Engine

namespace Attempt

open Engine

variable {α β : Type} {root : ModuleId} {within : ModuleId → Prop} {engine : Engine}
  {post : α → Prop} {post' : β → Prop} {fails : ModuleError → Prop} {id : ModuleId} {ref : RecordRef}
  {record : Record}

/-- An attempt that asks the host for nothing: over any other it ends in the same way and leaves the
same modules, and all that the graph needs is still at hand. -/
def Unasking (root : ModuleId) (within : ModuleId → Prop) (engine : Engine) (action : Attempt α)
    (post : α → Prop) (fails : ModuleError → Prop) : Prop :=
  ∃ result store, (∀ host, Engine.attempt { engine with host } action =
      (result, { engine with host, store })) ∧
    Stocked root within { engine with store } ∧ (∀ value, result = .ok value → post value) ∧
    ∀ error, result = .error error → fails error

namespace Unasking

theorem pure (hstocked : engine.Stocked root within) {value : α} (hvalue : post value) :
    Unasking root within engine (Pure.pure value) post fails :=
  ⟨.ok value, engine.store, fun _ => rfl, hstocked, fun _ hsame => Except.ok.inj hsame ▸ hvalue,
    nofun⟩

theorem throw (hstocked : engine.Stocked root within) {error : ModuleError} (herror : fails error) :
    Unasking root within engine (MonadExcept.throw error : Attempt α) post fails :=
  ⟨.error error, engine.store, fun _ => rfl, hstocked, nofun,
    fun _ hsame => Except.error.inj hsame ▸ herror⟩

theorem bind {action : Attempt α} {next : α → Attempt β}
    (hfirst : Unasking root within engine action post fails)
    (hnext : ∀ value store, post value → Stocked root within { engine with store } →
      Unasking root within { engine with store } (next value) post' fails) :
    Unasking root within engine (action >>= next) post' fails := by
  obtain ⟨result, store, hended, hstocked, hok, herror⟩ := hfirst
  cases result with
  | error error =>
      refine ⟨.error error, store, fun host => ?_, hstocked, nofun,
        fun other hother => herror other (by rw [← Except.error.inj hother])⟩
      rw [attempt_bind, hended]
  | ok value =>
      obtain ⟨result', store', hended', hafter⟩ := hnext value store (hok value rfl) hstocked
      refine ⟨result', store', fun host => ?_, hafter⟩
      rw [attempt_bind, hended]
      exact hended' host

/-- A module that is there is found. -/
theorem registered_bind {next : RecordRef × Record → Attempt β}
    (hregistered : engine.store.Registered id ref record)
    (hnext : Unasking root within engine (next (ref, record)) post' fails) :
    Unasking root within engine (registered id >>= next) post' fails := by
  obtain ⟨result, store, hended, hafter⟩ := hnext
  refine ⟨result, store, fun host => ?_, hafter⟩
  have hfound : Store.Registered (Engine.store { engine with host }) id ref record := hregistered
  rw [attempt_bind, attempt_registered hfound]
  exact hended host

theorem foldlM {γ : Type} {f : β → γ → Attempt β} (items : List γ) (start : β)
    (hstocked : engine.Stocked root within)
    (hstep : ∀ item ∈ items, ∀ value store, Stocked root within { engine with store } →
      Unasking root within { engine with store } (f value item) (fun _ => True) fails) :
    Unasking root within engine (items.foldlM f start) (fun _ => True) fails := by
  induction items generalizing start engine with
  | nil => exact .pure hstocked trivial
  | cons item rest ih =>
      rw [List.foldlM_cons]
      refine (hstep item List.mem_cons_self start engine.store hstocked).bind
        (fun value store _ hstocked' => ih value hstocked' (fun other hother => ?_))
      exact hstep other (List.mem_cons_of_mem _ hother)

end Unasking

/-- What is read off declarations at hand is at hand. -/
theorem within_of_foresees {specifiers : List String} {analysis : Analysis}
    (hforesees : ∀ specifier ∈ specifiers, engine.Foresees within id specifier)
    (hheard : Heard id specifiers analysis engine) :
    ∀ dependency ∈ analysis.requested, within dependency := by
  intro dependency hdependency
  obtain ⟨specifier, hspecifier, resolved, hknown, rfl⟩ := hheard.named dependency hdependency
  obtain ⟨foreseen, hforeseen, hwithin, -⟩ := hforesees specifier hspecifier
  obtain rfl := Option.some.inj (hknown.symm.trans hforeseen)
  exact hwithin

/-- What has been read is kept. -/
theorem unasking_keep {result : Except ModuleError Analysis} (hstocked : engine.Stocked root within)
    (hended : ∀ host, Engine.attempt { engine with host } (analyze ref record) = match result with
      | .error error => (.error error, { engine with host })
      | .ok analysis => (.ok analysis.requested, { engine with
          host
          store := engine.store.modify ref (fun record =>
            { record with analysis? := some analysis }) }))
    (hwithin : ∀ analysis, result = .ok analysis →
      ∀ dependency ∈ analysis.requested, within dependency)
    (hblames : ∀ error, result = .error error → error.blamesDeclarations = true) :
    Unasking root within engine (analyze ref record)
      (fun further => ∀ dependency ∈ further, within dependency)
      (·.blamesDeclarations = true) := by
  cases result with
  | error error =>
      refine ⟨.error error, engine.store, hended, hstocked, nofun, fun other hother => ?_⟩
      exact hblames other (by rw [← Except.error.inj hother])
  | ok analysis =>
      refine ⟨.ok analysis.requested, _, hended, hstocked.keepAnalysis ref (hwithin analysis rfl),
        fun further hfurther => ?_, nofun⟩
      exact Except.ok.inj hfurther ▸ hwithin analysis rfl

/-- A module that is at hand and has not been analyzed is read, and nothing is asked. -/
theorem unasking_read {source : ModuleSource} (hstocked : engine.Stocked root within)
    (hunread : record.analysis? = none) (hsource : record.source? = some source)
    (hforesees : record.format = .modern →
      ∀ specifier ∈ source.specifiers, engine.Foresees within record.id specifier) :
    Unasking root within engine (analyze ref record)
      (fun further => ∀ dependency ∈ further, within dependency)
      (·.blamesDeclarations = true) := by
  have hthere (host : Host) : Engine.attempt { engine with host } (sourceOf ref record) =
      (.ok source, { engine with host }) := by
    unfold sourceOf
    rw [hsource]
    rfl
  cases hformat : record.format with
  | legacy =>
      refine @unasking_keep _ _ _ _ _ (.ok (.ofLegacy source)) hstocked (fun host => ?_)
        (fun analysis hanalysis => ?_) nofun
      · rw [attempt_analyze_of_unread hunread, hthere, hformat]
        rfl
      · obtain rfl := Except.ok.inj hanalysis
        exact fun _ hmem => absurd hmem List.not_mem_nil
  | modern =>
      -- how the declarations are read does not depend on the host
      obtain ⟨result, hresult, hblames⟩ := onlyReads_analyzeModern (hforesees hformat)
      refine unasking_keep hstocked (fun host => ?_) (fun analysis hanalysis => ?_) hblames
      · have hread := hresult { engine with host }
          ⟨fun _ _ _ hknown => hknown, fun _ _ hlookup => hlookup⟩
        rw [attempt_analyze_of_unread hunread, hthere, hformat]
        dsimp only
        rw [hread]
        cases result <;> rfl
      · have hheard := (@triple_analyzeModern (fun _ => True) record.id source
          (fun _ _ => .of_after (fun _ _ => trivial))) engine trivial
        rw [hresult engine (.refl engine), hanalysis] at hheard
        exact within_of_foresees (hforesees hformat) (hheard.1 analysis rfl).2

/-- **A module that a graph expands is analyzed without the host.** -/
theorem unasking_analyze (hstocked : engine.Stocked root within)
    (hregistered : engine.store.Registered id ref record) (hid : within id)
    (hopen : id = root ∨ record.status.isSettled = false) :
    Unasking root within engine (analyze ref record)
      (fun further => ∀ dependency ∈ further, within dependency)
      (·.blamesDeclarations = true) := by
  rcases hstocked.hasAtHand hregistered hid hopen with
    ⟨analysis, hanalysis, hwithin⟩ | ⟨hunread, source, hsource, hforesees⟩
  · unfold analyze
    rw [hanalysis]
    refine .pure hstocked ?_
    cases hformat : record.format with
    | legacy => exact fun _ hmem => absurd hmem List.not_mem_nil
    | modern => exact hwithin hformat
  · exact unasking_read hstocked hunread hsource hforesees

/-! ## Building the graph -/

/-- What is walked over is at hand, so the host is asked for nothing. -/
theorem unasking_walk (fuel : Nat) {above dependencies : List ModuleId} (graph : Graph)
    (hstocked : engine.Stocked root within)
    (hwithin : ∀ dependency ∈ dependencies, within dependency) :
    Unasking root within engine (walk fuel above id dependencies graph) (fun _ => True)
      (fun _ => True) := by
  -- on the fuel, since what is asked for is walked with one less
  induction fuel generalizing above id dependencies graph engine with
  | zero => exact .throw hstocked trivial
  | succ fuel ih =>
      rw [walk_succ]
      refine (Unasking.foldlM dependencies graph hstocked
        (fun dependency hdependency graph store hstocked' => ?_)).bind
        (fun graph' _ _ hstocked' => .pure hstocked' trivial)
      obtain ⟨ref, record, hregistered, -⟩ := hstocked' dependency (hwithin dependency hdependency)
      unfold visit
      split
      · exact .pure hstocked' trivial
      split
      · exact .pure hstocked' trivial
      refine .registered_bind hregistered ?_
      dsimp only
      split
      · exact .pure hstocked' trivial
      rename_i hunsettled
      obtain ⟨result, store', hended, hafter, hfurther, -⟩ := unasking_analyze hstocked' hregistered
        (hwithin dependency hdependency) (.inr (by simpa using hunsettled))
      have hanalyzed : Unasking root within { engine with store } (analyze ref record)
          (fun further => ∀ dependency ∈ further, within dependency) (fun _ => True) :=
        ⟨result, store', hended, hafter, hfurther, fun _ _ => trivial⟩
      exact hanalyzed.bind (fun further _ hfurther hstocked'' => ih graph hstocked'' hfurther)

/-- **The graph is built without the host**: over any other of the same size it is the same, and
nothing else becomes of the engine than that modules are analyzed. -/
theorem buildGraph_without_host (hstocked : engine.Stocked root within) (hroot : within root) :
    ∃ result store, ∀ host : Host, host.size = engine.host.size →
      Engine.attempt { engine with host } (buildGraph root) =
        (result, { engine with host, store }) := by
  obtain ⟨ref, record, hregistered, -⟩ := hstocked root hroot
  have hfound (host : Host) : Engine.attempt { engine with host } (registered root) =
      (.ok (ref, record), { engine with host }) := attempt_registered hregistered
  obtain ⟨result, store, hended, hstocked', hfurther, -⟩ :=
    unasking_analyze hstocked hregistered hroot (.inl rfl)
  unfold buildGraph
  cases result with
  | error error =>
      refine ⟨.error error, store, fun host _ => ?_⟩
      rw [attempt_bind, hfound]
      dsimp only
      rw [attempt_bind, hended]
  | ok dependencies =>
      have hwalked : Unasking root within { engine with store }
          (walk (reach { engine with store }) [root] root dependencies (.empty root))
          (fun _ => True) (fun _ => True) :=
        unasking_walk _ _ hstocked' (hfurther dependencies rfl)
      obtain ⟨result', store', hended', -⟩ := hwalked
      refine ⟨result', store', fun host hsize => ?_⟩
      have hreach : reach { engine with host, store } = reach { engine with store } := by
        unfold reach
        rw [hsize]
      rw [attempt_bind, hfound]
      dsimp only
      rw [attempt_bind, hended]
      dsimp only
      rw [attempt_bind, attempt_get]
      dsimp only
      rw [hreach]
      exact hended' host

/-- What has been analyzed is still at hand, and only declarations can be to blame. -/
theorem stocked_analyze {ended : Except ModuleError (List ModuleId) × Engine}
    (hstocked : engine.Stocked root within) (hregistered : engine.store.Registered id ref record)
    (hid : within id) (hopen : id = root ∨ record.status.isSettled = false)
    (hanalyze : engine.attempt (analyze ref record) = ended) :
    ended.2.Stocked root within ∧
      (∀ further, ended.1 = .ok further → ∀ dependency ∈ further, within dependency) ∧
      ∀ error, ended.1 = .error error → error.blamesDeclarations = true := by
  obtain ⟨result, store, hended, hafter⟩ := unasking_analyze hstocked hregistered hid hopen
  have hsame := (hended engine.host).symm.trans hanalyze
  subst hsame
  exact hafter

/-- **A walk over what is at hand fails only over declarations.** -/
theorem Visits.blames {above dependencies : List ModuleId} {graph : Graph}
    {ended : Except ModuleError Graph × Engine}
    (hvisits : Visits above id dependencies graph engine ended)
    (hstocked : engine.Stocked root within)
    (hwithin : ∀ dependency ∈ dependencies, within dependency) :
    ended.2.Stocked root within ∧
      ∀ error, ended.1 = .error error → error.blamesDeclarations = true := by
  induction hvisits with
  | done => exact ⟨hstocked, nofun⟩
  | cycle _ _ ih | listed _ _ _ ih | leaf _ _ _ _ _ ih =>
      exact ih hstocked (List.forall_mem_cons.mp hwithin).2
  | missing _ _ hmissing =>
      obtain ⟨ref, record, hregistered, -⟩ := hstocked _ (hwithin _ List.mem_cons_self)
      rw [attempt_registered hregistered] at hmissing
      cases hmissing
  | fault _ _ hregistered hunsettled hanalyze =>
      obtain ⟨hstocked', -, hblames⟩ := stocked_analyze hstocked hregistered
        (hwithin _ List.mem_cons_self) (.inr hunsettled) hanalyze
      exact ⟨hstocked', fun error herror => hblames error (by rw [← Except.error.inj herror])⟩
  | down _ _ hregistered hunsettled hanalyze _ _ ihbelow ihrest =>
      obtain ⟨hstocked', hfurther, -⟩ := stocked_analyze hstocked hregistered
        (hwithin _ List.mem_cons_self) (.inr hunsettled) hanalyze
      exact ihrest (ihbelow hstocked' (hfurther _ rfl)).1 (List.forall_mem_cons.mp hwithin).2
  | stop _ _ hregistered hunsettled hanalyze _ ihbelow =>
      obtain ⟨hstocked', hfurther, -⟩ := stocked_analyze hstocked hregistered
        (hwithin _ List.mem_cons_self) (.inr hunsettled) hanalyze
      obtain ⟨hstocked'', hblames⟩ := ihbelow hstocked' (hfurther _ rfl)
      exact ⟨hstocked'', fun error herror => hblames error (by rw [← Except.error.inj herror])⟩

/-- So does the building of a graph. -/
theorem Builds.blames {ended : Except ModuleError Graph × Engine} (hbuilds : Builds root engine ended)
    (hstocked : engine.Stocked root within) (hroot : within root) :
    ∀ error, ended.1 = .error error → error.blamesDeclarations = true := by
  cases hbuilds with
  | missing hmissing =>
      obtain ⟨ref, record, hregistered, -⟩ := hstocked root hroot
      rw [attempt_registered hregistered] at hmissing
      cases hmissing
  | fault hregistered hanalyze =>
      obtain ⟨-, -, hblames⟩ := stocked_analyze hstocked hregistered hroot (.inl rfl) hanalyze
      exact fun error herror => hblames error (by rw [← Except.error.inj herror])
  | @walked _ _ _ _ visited hregistered hanalyze hvisits =>
      obtain ⟨hstocked', hfurther, -⟩ :=
        stocked_analyze hstocked hregistered hroot (.inl rfl) hanalyze
      obtain ⟨-, hblames⟩ := hvisits.blames hstocked' (hfurther _ rfl)
      intro error herror
      obtain ⟨result, engine'⟩ := visited
      cases result with
      | error other => exact hblames error (congrArg Except.error (Except.error.inj herror))
      | ok graph => cases herror

end Attempt

end Linkage
