import Linkage.Proofs.Engine.Unbounded

/-!
# The same attempt again

What an engine has learnt it keeps, so an attempt that is made once more does nothing.  Names are
found in the memory of the resolver, modules are registered, and what has been analyzed is not read
again.  An attempt that has failed stops where it stopped before and with the same error, provided
that nothing has happened in between; one that has succeeded does so at any later time.

* `Engine.Recalls` : a later engine that has kept what was learnt.
* `Attempt.Repeats` : an attempt that ends as it did and changes nothing.
* `Attempt.repeats_analyzeModern`, `Attempt.analyze_again` : reading declarations.
* `Attempt.Visits.again`, `Attempt.Builds.repeated` : building a graph.
-/

namespace Linkage

/-! ## What is kept -/

/-- All answers are still remembered. -/
def Resolver.Recalls (resolver later : Resolver) : Prop :=
  ∀ specifier referrer? resolved, resolver.remembered? specifier referrer? = some resolved →
    later.remembered? specifier referrer? = some resolved

theorem Resolver.recalls_resolve (resolver : Resolver) (config : Config) (host : Host)
    (specifier : String) (referrer? : Option ModuleId) :
    resolver.Recalls (resolver.resolve config host specifier referrer?).2 :=
  fun _ _ _ => remembered_resolve_of_remembered

/-- Answers are still remembered, and modules are still registered. -/
structure Engine.Retains (engine later : Engine) : Prop where
  resolver : engine.resolver.Recalls later.resolver
  lookup : ∀ id ref, engine.store.lookup? id = some ref → later.store.lookup? id = some ref

/-- A later engine.  Answers are still remembered, and modules are registered as they were. -/
structure Engine.Recalls (engine later : Engine) : Prop extends Engine.Retains engine later where
  record : ∀ ref record, engine.store.record? ref = some record →
    ∃ record', later.store.record? ref = some record' ∧ record.Touched record'

/-- An engine that has what was learnt in an attempt; right after it if the attempt has failed. -/
structure Engine.Remembers {α : Type} (ended : Except ModuleError α × Engine) (later : Engine) :
    Prop where
  retains : ended.2.Retains later
  failed : ∀ error, ended.1 = .error error → later = ended.2

/-- An engine at some time after an attempt has ended; right after it if the attempt has failed. -/
structure Engine.Follows {α : Type} (ended : Except ModuleError α × Engine) (later : Engine) :
    Prop where
  recalls : ended.2.Recalls later
  failed : ∀ error, ended.1 = .error error → later = ended.2

namespace Engine

variable {engine engine' later : Engine} {id : ModuleId} {ref : RecordRef} {record : Record}

theorem Retains.refl (engine : Engine) : engine.Retains engine :=
  ⟨fun _ _ _ hknown => hknown, fun _ _ hlookup => hlookup⟩

theorem Retains.trans (hfirst : engine.Retains engine') (hsecond : engine'.Retains later) :
    engine.Retains later where
  resolver specifier referrer? resolved hknown :=
    hsecond.resolver _ _ _ (hfirst.resolver specifier referrer? resolved hknown)
  lookup id ref hlookup := hsecond.lookup id ref (hfirst.lookup id ref hlookup)

theorem Recalls.refl (engine : Engine) : engine.Recalls engine :=
  ⟨.refl engine, fun _ record hrecord => ⟨record, hrecord, .refl record⟩⟩

theorem Recalls.trans (hfirst : engine.Recalls engine') (hsecond : engine'.Recalls later) :
    engine.Recalls later where
  toRetains := hfirst.toRetains.trans hsecond.toRetains
  record ref record hrecord := by
    obtain ⟨record', hrecord', htouched⟩ := hfirst.record ref record hrecord
    obtain ⟨record'', hrecord'', htouched'⟩ := hsecond.record ref record' hrecord'
    exact ⟨record'', hrecord'', htouched.trans htouched'⟩

theorem Recalls.registered (hrecalls : engine.Recalls later)
    (hregistered : engine.store.Registered id ref record) :
    ∃ record', later.store.Registered id ref record' ∧ record.Touched record' := by
  obtain ⟨record', hrecord', htouched⟩ := hrecalls.record ref record hregistered.record
  exact ⟨record', ⟨hrecalls.lookup id ref hregistered.lookup, hrecord'⟩, htouched⟩

/-- An engine whose store has only been touched. -/
theorem Recalls.of_touches (hresolver : engine.resolver.Recalls later.resolver)
    (htouches : engine.store.Touches later.store) : engine.Recalls later :=
  ⟨⟨hresolver, fun _ _ => Store.touches_lookup htouches⟩,
    fun _ _ => Store.touches_record htouches⟩

theorem Remembers.refl {α : Type} (ended : Except ModuleError α × Engine) :
    Remembers ended ended.2 :=
  ⟨.refl _, fun _ _ => rfl⟩

/-- What has failed has failed whatever it would have given. -/
theorem Remembers.failure {α β : Type} {error : ModuleError}
    (hremembers : Remembers ((.error error, engine) : Except ModuleError α × Engine) later) :
    Remembers ((.error error, engine) : Except ModuleError β × Engine) later :=
  ⟨hremembers.retains, fun _ _ => hremembers.failed error rfl⟩

theorem Remembers.of_ok {α : Type} {value : α} (hretains : engine.Retains later) :
    Remembers (.ok value, engine) later :=
  ⟨hretains, nofun⟩

theorem Follows.refl {α : Type} (ended : Except ModuleError α × Engine) :
    Follows ended ended.2 :=
  ⟨.refl _, fun _ _ => rfl⟩

/-- Success is followed by anything later. -/
theorem Follows.of_ok {α : Type} {value : α} (hrecalls : engine.Recalls later) :
    Follows (.ok value, engine) later :=
  ⟨hrecalls, nofun⟩

theorem Follows.eq_of_error {α : Type} {error : ModuleError}
    (hfollows : Follows ((.error error, engine) : Except ModuleError α × Engine) later) :
    later = engine :=
  hfollows.failed error rfl

theorem Follows.failure {α β : Type} {error : ModuleError}
    (hfollows : Follows ((.error error, engine) : Except ModuleError α × Engine) later) :
    Follows ((.error error, engine) : Except ModuleError β × Engine) later :=
  ⟨hfollows.recalls, fun _ _ => hfollows.eq_of_error⟩

/-! ## Facts about the answers that are remembered -/

section Answers

open Attempt

variable {fact : Engine → Prop}

/-- A fact about the memory of the resolver is upheld if resolving keeps it. -/
theorem upheldAhead_of_resolver
    (hsame : ∀ engine engine' : Engine, engine'.resolver = engine.resolver → fact engine →
      fact engine')
    (hresolve : ∀ specifier referrer?, Keeps fact (Attempt.resolve specifier referrer?)) :
    UpheldAhead fact := by
  have honStore {α : Type} (f : Store → α × Store) : Keeps fact (onStore f) :=
    .onStore (fun engine hfact => hsame engine _ rfl hfact)
  have hregister (specifier : String) (referrer? : Option ModuleId) :
      Keeps fact (resolveAndRegister specifier referrer?) :=
    (hresolve specifier referrer?).seq (fun resolved =>
      (honStore (·.getOrCreate resolved.id resolved.format)).seq
        (fun _ => .pure (fun _ hfact => hfact)))
  have hsame' (engine engine' : Engine) (_ : engine'.config = engine.config)
      (_ : engine'.host = engine.host) (hresolver : engine'.resolver = engine.resolver)
      (_ : ∀ id, engine'.store.lookup? id = engine.store.lookup? id) (hfact : fact engine) :
      fact engine' :=
    hsame engine engine' hresolver hfact
  have hjoin (resolved : Resolved) : Keeps fact (joinOrStart resolved) :=
    triple_joinOrStart (fun engine imports => hsame engine { engine with imports } rfl)
      (fun _ hfact => hfact) (honStore _)
  exact {
    same := fun hknows hfact => hsame _ _ hknows.resolver hfact
    resolve := hresolve
    load := fun ref record =>
      (keeps_sourceOf_of_same hsame' ref record).weaken (fun _ hpre => hpre.1)
    toTaught := (taughtAhead_of_same hsame' hregister).toTaught
    prefetch := (taughtAhead_of_same hsame' hregister).keeps_prefetch
    join := fun specifier requester? =>
      (hresolve specifier requester?).seq (fun resolved => (hjoin resolved).seq
        (fun _ => .pure (fun _ hfact => hfact)))
    recount := fun engine loads hfact => hsame engine { engine with loads } rfl hfact }

/-- **Answers once given are remembered** whatever an engine does, short of forgetting all. -/
theorem upheldAhead_recalls (resolver : Resolver) :
    UpheldAhead (fun engine => resolver.Recalls engine.resolver) := by
  refine upheldAhead_of_resolver ?_ (fun specifier referrer? => .of_after ?_)
  · intro engine engine' hresolver hrecalls
    exact hresolver ▸ hrecalls
  · intro engine hrecalls
    rw [attempt_resolve]
    exact fun _ _ _ hknown => Resolver.recalls_resolve _ _ _ _ _ _ _ _ (hrecalls _ _ _ hknown)

end Answers

end Engine

/-- Every settled module has been analyzed. -/
def Store.SettledAnalyzed (store : Store) : Prop :=
  ∀ ref record, store.record? ref = some record → record.status.isSettled = true →
    record.analysis?.isSome

theorem Store.settledAnalyzed_lasting : Lasting SettledAnalyzed := by
  intro store store' htouch hanalyzed ref record' hrecord' hsettled
  rcases htouch.record_back hrecord' with ⟨record, hrecord, htouched⟩ | ⟨-, _, _, rfl⟩
  · rw [htouched.status] at hsettled
    have hbefore := hanalyzed ref record hrecord hsettled
    rwa [htouched.analyzed hbefore]
  · cases hsettled

/-! ## Attempts that repeat -/

namespace Attempt

open Engine

variable {α β γ : Type}

/-- An attempt that, made again, ends as it did and changes nothing. -/
def Repeats (action : Attempt α) : Prop :=
  ∀ engine : Engine, engine.Recalls (engine.attempt action).2 ∧
    ∀ later, Remembers (engine.attempt action) later →
      later.attempt action = ((engine.attempt action).1, later)

namespace Repeats

theorem pure (value : α) : (Pure.pure value : Attempt α).Repeats :=
  fun engine => ⟨.refl engine, fun _ _ => rfl⟩

theorem ofExcept (given : Except ModuleError α) :
    (MonadExcept.ofExcept given : Attempt α).Repeats := by
  intro engine
  rw [attempt_ofExcept]
  exact ⟨.refl engine, fun later _ => attempt_ofExcept given⟩

theorem bind {action : Attempt α} {next : α → Attempt β} (hfirst : action.Repeats)
    (hnext : ∀ value, (next value).Repeats) : (action >>= next).Repeats := by
  intro engine
  obtain ⟨hrecalls, hagain⟩ := hfirst engine
  rw [attempt_bind]
  generalize engine.attempt action = ended at hrecalls hagain
  obtain ⟨result, engine'⟩ := ended
  cases result with
  | error error =>
      refine ⟨hrecalls, fun later hlater => ?_⟩
      rw [attempt_bind, hagain later hlater.failure]
  | ok value =>
      obtain ⟨hrecalls', hagain'⟩ := hnext value engine'
      refine ⟨hrecalls.trans hrecalls', fun later hlater => ?_⟩
      have hretains := hrecalls'.toRetains.trans hlater.retains
      rw [attempt_bind, hagain later (.of_ok hretains)]
      exact hagain' later hlater

theorem foldlM {f : β → γ → Attempt β} (items : List γ) (start : β)
    (hstep : ∀ value item, (f value item).Repeats) : (items.foldlM f start).Repeats := by
  induction items generalizing start with
  | nil => exact .pure start
  | cons item rest ih =>
      rw [List.foldlM_cons]
      exact (hstep start item).bind ih

end Repeats


/-- What has been resolved and registered is remembered and registered. -/
theorem known_of_resolveAndRegister {engine engine' : Engine} {specifier : String}
    {referrer? : Option ModuleId} {resolved : Resolved} {ref : RecordRef}
    (hended : engine.attempt (resolveAndRegister specifier referrer?) =
      (.ok (resolved, ref), engine')) :
    engine'.resolver.remembered? specifier referrer? = some resolved ∧
      engine'.store.lookup? resolved.id = some ref := by
  rw [attempt_resolveAndRegister, attempt_resolve] at hended
  cases hresult : (engine.resolver.resolve engine.config engine.host specifier referrer?).1 with
  | error error =>
      rw [hresult] at hended
      cases hended
  | ok found =>
      rw [hresult] at hended
      simp only [Prod.mk.injEq, Except.ok.injEq] at hended
      obtain ⟨⟨rfl, rfl⟩, rfl⟩ := hended
      exact ⟨Resolver.remembered_of_resolve hresult,
        engine.store.lookup?_getOrCreate found.id found.format⟩

/-- What is remembered and registered is found, and nothing changes. -/
theorem attempt_resolveAndRegister_of_known {engine : Engine} {specifier : String}
    {referrer? : Option ModuleId} {resolved : Resolved} {ref : RecordRef}
    (hknown : engine.resolver.remembered? specifier referrer? = some resolved)
    (hlookup : engine.store.lookup? resolved.id = some ref) :
    engine.attempt (resolveAndRegister specifier referrer?) = (.ok (resolved, ref), engine) := by
  rw [attempt_resolveAndRegister, attempt_resolve, Resolver.resolve_of_remembered hknown]
  dsimp only
  rw [Store.getOrCreate_of_lookup resolved.format hlookup]

/-- Resolving and registering once more finds the answer in the memory and the module registered. -/
theorem repeats_resolveAndRegister (specifier : String) (referrer? : Option ModuleId) :
    (resolveAndRegister specifier referrer?).Repeats := by
  intro engine
  have hmemo := engine.resolver.recalls_resolve engine.config engine.host specifier referrer?
  cases hresult : (engine.resolver.resolve engine.config engine.host specifier referrer?).1 with
  | error error =>
      -- an answer that cannot be given leaves no trace, so this is the same attempt again
      have hended : engine.attempt (resolveAndRegister specifier referrer?) =
          (.error error, engine) := by
        rw [attempt_resolveAndRegister, attempt_resolve, hresult]
        dsimp only
        rw [Resolver.resolve_of_error hresult]
      rw [hended]
      refine ⟨.refl engine, fun later hlater => ?_⟩
      rw [hlater.failed error rfl, hended]
  | ok resolved =>
      have hended : engine.attempt (resolveAndRegister specifier referrer?) =
          (.ok (resolved, (engine.store.getOrCreate resolved.id resolved.format).1), { engine with
            resolver := (engine.resolver.resolve engine.config engine.host specifier referrer?).2
            store := (engine.store.getOrCreate resolved.id resolved.format).2 }) := by
        rw [attempt_resolveAndRegister, attempt_resolve, hresult]
      obtain ⟨hknown, hlookup⟩ := known_of_resolveAndRegister hended
      rw [hended]
      refine ⟨.of_touches hmemo (.single (.register _ _)), fun later hlater => ?_⟩
      exact attempt_resolveAndRegister_of_known (hlater.retains.resolver _ _ _ hknown)
        (hlater.retains.lookup _ _ hlookup)

theorem repeats_request (id : ModuleId) (specifier : String) (analysis : Analysis) :
    (request id specifier analysis).Repeats :=
  (repeats_resolveAndRegister specifier (some id)).bind (fun _ => .pure _)

theorem repeats_addImports (id : ModuleId) (analysis : Analysis)
    (declaration : ImportDeclaration) : (addImports id analysis declaration).Repeats :=
  (repeats_request id declaration.specifier analysis).bind (fun _ => .pure _)

theorem repeats_addExports (id : ModuleId) (analysis : Analysis)
    (declaration : ExportDeclaration) : (addExports id analysis declaration).Repeats := by
  unfold addExports
  cases declaration.source? with
  | none => exact .ofExcept _
  | some specifier =>
      exact (repeats_request id specifier analysis).bind (fun _ => .ofExcept _)

/-- **Reading the same declarations again** finds every specifier resolved, up to the one for which
it failed. -/
theorem repeats_analyzeModern (id : ModuleId) (source : ModuleSource) :
    (analyzeModern id source).Repeats :=
  (Repeats.foldlM source.imports Analysis.empty (repeats_addImports id)).bind
    (fun analysis => .foldlM source.exports analysis (repeats_addExports id))

/-! ## Analyzing a module again -/

variable {engine : Engine} {ref : RecordRef} {record : Record}

/-- Reading declarations leaves every record as it is. -/
theorem keeps_record_analyzeModern (id : ModuleId) (source : ModuleSource) :
    Keeps (fun engine => engine.store.record? ref = some record) (analyzeModern id source) := by
  refine (triple_analyzeModern source (fun specifier _ => .of_after ?_)).imp
    (fun _ hpre => hpre) (fun _ _ hpost => hpost.1) (fun _ hfails => hfails)
  intro engine hrecord
  rw [attempt_resolveAndRegister, attempt_resolve]
  generalize engine.resolver.resolve engine.config engine.host specifier (some id) = answer
  obtain ⟨result, resolver⟩ := answer
  cases result with
  | error error => exact hrecord
  | ok resolved => exact Store.record?_getOrCreate resolved.id resolved.format hrecord

theorem recalls_analyze (hrecord : engine.store.record? ref = some record) :
    engine.Recalls (engine.attempt (analyze ref record)).2 := by
  have hended := meets_analyze engine rfl hrecord
  have hresolver := ((upheldAhead_recalls engine.resolver).analyze ref record).after
    ⟨fun _ _ _ hknown => hknown, hrecord⟩
  exact .of_touches hresolver hended.touches

theorem touches_analyze {ended : Except ModuleError (List ModuleId) × Engine}
    (hrecord : engine.store.record? ref = some record)
    (hanalyze : engine.attempt (analyze ref record) = ended) :
    engine.store.Touches ended.2.store :=
  hanalyze ▸ (meets_analyze engine rfl hrecord).touches

/-- The source of a module is not to be had, or the record keeps it. -/
theorem attempt_sourceOf_cases (hrecord : engine.store.record? ref = some record) :
    (∃ error, engine.attempt (sourceOf ref record) = (.error error, engine)) ∨
      ∃ source loaded engine', engine.attempt (sourceOf ref record) = (.ok source, engine') ∧
        engine'.store.record? ref = some loaded ∧ loaded.source? = some source ∧
        loaded.id = record.id ∧ loaded.format = record.format ∧
        loaded.analysis? = record.analysis? := by
  unfold sourceOf
  cases hsource : record.source? with
  | some source => exact .inr ⟨source, record, engine, rfl, hrecord, hsource, rfl, rfl, rfl⟩
  | none =>
      dsimp only
      rw [attempt_bind, attempt_get]
      dsimp only
      unfold keepSource
      rw [attempt_bind, attempt_ofExcept]
      cases engine.host.load record.id with
      | error error => exact .inl ⟨error, rfl⟩
      | ok source =>
          exact .inr ⟨source, _, _, rfl, Store.record?_modify_self _ hrecord, rfl, rfl, rfl, rfl⟩

/-- A module is analyzed by loading it and reading its declarations. -/
theorem attempt_analyze_of_unread (hunread : record.analysis? = none) :
    engine.attempt (analyze ref record) = match engine.attempt (sourceOf ref record) with
      | (.error error, engine) => (.error error, engine)
      | (.ok source, engine) =>
          let reading := match record.format with
            | .legacy => Pure.pure (Analysis.ofLegacy source)
            | .modern => analyzeModern record.id source
          match engine.attempt reading with
          | (.error error, engine) => (.error error, engine)
          | (.ok analysis, engine) => (.ok analysis.requested, { engine with
              store := engine.store.modify ref (fun record =>
                { record with analysis? := some analysis }) }) := by
  unfold analyze
  rw [hunread]
  dsimp only
  rw [attempt_bind]
  generalize engine.attempt (sourceOf ref record) = ended
  obtain ⟨result, engine'⟩ := ended
  cases result with
  | error error => rfl
  | ok source =>
      cases record.format with
      | legacy => rfl
      | modern =>
          dsimp only
          rw [attempt_bind]
          generalize engine'.attempt (analyzeModern record.id source) = ended
          obtain ⟨result, engine''⟩ := ended
          cases result <;> rfl

/-- A module that could not be analyzed fails again in the same way: its source is still not to be
had, or its declarations still cannot be read. -/
theorem analyze_error_again {error : ModuleError} {engine' : Engine}
    (hrecord : engine.store.record? ref = some record)
    (hended : engine.attempt (analyze ref record) = (.error error, engine')) :
    ∃ record', engine'.store.record? ref = some record' ∧
      engine'.attempt (analyze ref record') = (.error error, engine') := by
  have hunread : record.analysis? = none := by
    rw [← Option.not_isSome_iff_eq_none]
    intro hanalyzed
    rw [attempt_analyze_of_analyzed engine ref hanalyzed] at hended
    cases hended
  rcases attempt_sourceOf_cases hrecord with
    ⟨failure, hsource⟩ | ⟨source, loaded, between, hsource, hkept, hloaded, hid, hformat, hsame⟩
  · have hunchanged := hended
    rw [attempt_analyze_of_unread hunread, hsource] at hunchanged
    obtain ⟨-, rfl⟩ := Prod.mk.inj hunchanged
    exact ⟨record, hrecord, hended⟩
  · rw [attempt_analyze_of_unread hunread, hsource, ← hid, ← hformat] at hended
    dsimp only at hended
    cases hmodern : loaded.format with
    | legacy =>
        rw [hmodern] at hended
        cases hended
    | modern =>
        rw [hmodern] at hended
        have hread := keeps_record_analyzeModern loaded.id source between hkept
        have hagain := (repeats_analyzeModern loaded.id source between).2 _ (.refl _)
        dsimp only at hended
        generalize between.attempt (analyzeModern loaded.id source) = reading
          at hended hread hagain
        obtain ⟨result, last⟩ := reading
        cases result with
        | ok analysis => cases hended
        | error failure =>
            obtain ⟨hfailure, rfl⟩ := Prod.mk.inj hended
            obtain rfl := Except.error.inj hfailure
            have hthere : last.attempt (sourceOf ref loaded) = (.ok source, last) := by
              unfold sourceOf
              rw [hloaded]
              rfl
            refine ⟨loaded, hread.2 failure rfl, ?_⟩
            rw [attempt_analyze_of_unread (hsame.trans hunread), hthere, hmodern]
            dsimp only
            rw [hagain]

/-- **A registered module is analyzed again** with its record as it is then, and nothing changes. -/
theorem analyze_again {later : Engine} {id : ModuleId}
    {ended : Except ModuleError (List ModuleId) × Engine}
    (hregistered : engine.store.Registered id ref record)
    (hanalyze : engine.attempt (analyze ref record) = ended) (hlater : Follows ended later) :
    ∃ record', later.store.Registered id ref record' ∧ record.Touched record' ∧
      later.attempt (analyze ref record') = (ended.1, later) := by
  have hrecalls := recalls_analyze hregistered.record
  have hmeets := meets_analyze engine rfl hregistered.record
  rw [hanalyze] at hrecalls hmeets
  obtain ⟨record', hregistered', htouched⟩ :=
    (hrecalls.trans hlater.recalls).registered hregistered
  refine ⟨record', hregistered', htouched, ?_⟩
  obtain ⟨result, engine'⟩ := ended
  cases result with
  | error error =>
      obtain ⟨found, hfound, hagain⟩ := analyze_error_again hregistered.record hanalyze
      obtain rfl := hlater.eq_of_error
      obtain rfl := Option.some.inj (hfound.symm.trans hregistered'.record)
      exact hagain
  | ok dependencies =>
      obtain ⟨between, hbetween, hanalyzed, rfl⟩ := hmeets.ok dependencies rfl
      obtain ⟨found, hfound, htouched'⟩ := hlater.recalls.record ref between hbetween
      obtain rfl := Option.some.inj (hfound.symm.trans hregistered'.record)
      rw [attempt_analyze_of_analyzed later ref (by rwa [htouched'.analyzed hanalyzed]),
        htouched'.dependencies hanalyzed]

/-! ## Building a graph again -/

variable {later : Engine} {above dependencies : List ModuleId} {id root : ModuleId} {graph : Graph}
  {ended : Except ModuleError Graph × Engine}

/-- A walk forgets nothing. -/
theorem Visits.recalls (hvisits : Visits above id dependencies graph engine ended) :
    engine.Recalls ended.2 := by
  induction hvisits with
  | done => exact .refl _
  | cycle _ _ ih => exact ih
  | listed _ _ _ ih => exact ih
  | missing => exact .refl _
  | leaf _ _ _ _ _ ih => exact ih
  | fault _ _ hregistered _ hanalyze =>
      have hrecalls := recalls_analyze hregistered.record
      rwa [hanalyze] at hrecalls
  | down _ _ hregistered _ hanalyze _ _ ihbelow ihrest =>
      have hrecalls := recalls_analyze hregistered.record
      rw [hanalyze] at hrecalls
      exact (hrecalls.trans ihbelow).trans ihrest
  | stop _ _ hregistered _ hanalyze _ ihbelow =>
      have hrecalls := recalls_analyze hregistered.record
      rw [hanalyze] at hrecalls
      exact hrecalls.trans ihbelow

/-- A walk does no more to the store than touch it. -/
theorem Visits.touches (hvisits : Visits above id dependencies graph engine ended) :
    engine.store.Touches ended.2.store := by
  induction hvisits with
  | done | missing => exact .refl
  | cycle _ _ ih | listed _ _ _ ih | leaf _ _ _ _ _ ih => exact ih
  | fault _ _ hregistered _ hanalyze =>
      exact touches_analyze hregistered.record hanalyze
  | down _ _ hregistered _ hanalyze _ _ ihbelow ihrest =>
      exact ((touches_analyze hregistered.record hanalyze).trans ihbelow).trans ihrest
  | stop _ _ hregistered _ hanalyze _ ihbelow =>
      exact (touches_analyze hregistered.record hanalyze).trans ihbelow

theorem Builds.recalls (hbuilds : Builds root engine ended) : engine.Recalls ended.2 := by
  cases hbuilds with
  | missing => exact .refl _
  | fault hregistered hanalyze =>
      have hrecalls := recalls_analyze hregistered.record
      rwa [hanalyze] at hrecalls
  | walked hregistered hanalyze hvisits =>
      have hrecalls := recalls_analyze hregistered.record
      rw [hanalyze] at hrecalls
      exact hrecalls.trans hvisits.recalls

/-- A module that is registered, and neither walked nor listed, is settled and listed, or it is
analyzed and walked over. -/
theorem attempt_visit_of_registered {fuel : Nat} {dependency : ModuleId}
    (habove : dependency ∉ above) (hlisted : dependency ∉ graph.order)
    (hregistered : engine.store.Registered dependency ref record) :
    engine.attempt (visit fuel above id graph dependency) =
      if record.status.isSettled then (.ok (graph.list dependency record.requested), engine)
      else match engine.attempt (analyze ref record) with
        | (.error error, engine) => (.error error, engine)
        | (.ok further, engine) =>
            engine.attempt (walk fuel (dependency :: above) dependency further graph) := by
  unfold visit
  rw [if_neg habove, if_neg hlisted, attempt_bind, attempt_registered hregistered]
  dsimp only
  split
  · rfl
  · rw [attempt_bind]
    generalize engine.attempt (analyze ref record) = ended
    obtain ⟨result, engine'⟩ := ended
    cases result <;> rfl

/-- What a walk does before it lists its module. -/
theorem attempt_walk_succ (fuel : Nat) :
    engine.attempt (walk (fuel + 1) above id dependencies graph) =
      ((engine.attempt (dependencies.foldlM (visit fuel above id) graph)).1.map
        (·.list id dependencies),
        (engine.attempt (dependencies.foldlM (visit fuel above id) graph)).2) := by
  rw [walk_succ, attempt_bind]
  generalize engine.attempt (dependencies.foldlM (visit fuel above id) graph) = ended
  obtain ⟨result, engine'⟩ := ended
  cases result <;> rfl

/-- As long as a registered module is left that is not being walked, one more can be walked. -/
theorem exists_fuel {store : Store} {fuel : Nat} {dependency : ModuleId} (hnodup : above.Nodup)
    (hknown : above ⊆ store.ids) (hfuel : store.size ≤ fuel + above.length)
    (hfresh : dependency ∉ above) (hregistered : dependency ∈ store.ids) :
    ∃ less, fuel = less + 1 ∧ (dependency :: above).Nodup ∧ dependency :: above ⊆ store.ids ∧
      store.size ≤ less + (dependency :: above).length := by
  have hnodup' : (dependency :: above).Nodup := List.nodup_cons.mpr ⟨hfresh, hnodup⟩
  have hknown' : dependency :: above ⊆ store.ids := List.cons_subset.mpr ⟨hregistered, hknown⟩
  have hlength := length_above_le hnodup' hknown'
  rw [store.length_ids] at hlength
  cases fuel with
  | zero =>
      rw [List.length_cons] at hlength
      omega
  | succ less =>
      refine ⟨less, rfl, hnodup', hknown', ?_⟩
      rw [List.length_cons]
      omega

/-- **A walk made again lists the same modules** in the same order, and stops where it stopped.  If it
begins with the same graph, and what is settled has been analyzed, it ends with the same graph. -/
theorem Visits.again (hvisits : Visits above id dependencies graph engine ended)
    (hlater : Follows ended later) (fuel : Nat) (start : Graph) (hstart : start.order = graph.order)
    (hnodup : above.Nodup) (hknown : above ⊆ later.store.ids)
    (hfuel : later.store.size ≤ fuel + above.length) :
    ∃ result, later.attempt (dependencies.foldlM (visit fuel above id) start) = (result, later) ∧
      result.map (·.order) = ended.1.map (·.order) ∧
      (engine.store.SettledAnalyzed → start = graph → result = ended.1) := by
  induction hvisits generalizing fuel start with
  | done =>
      refine ⟨.ok start, rfl, congrArg Except.ok hstart, fun _ hsame => ?_⟩
      rw [hsame]
  | cycle habove _ ih =>
      obtain ⟨result, hagain, horder, hequal⟩ :=
        ih hlater fuel (start.closeCycle _ _) hstart hnodup hknown hfuel
      refine ⟨result, ?_, horder, fun hread hsame => hequal hread (by rw [hsame])⟩
      rw [List.foldlM_cons, attempt_bind]
      unfold visit
      rw [if_pos habove]
      exact hagain
  | listed habove hlisted _ ih =>
      obtain ⟨result, hagain, horder, hequal⟩ := ih hlater fuel start hstart hnodup hknown hfuel
      refine ⟨result, ?_, horder, hequal⟩
      rw [List.foldlM_cons, attempt_bind]
      unfold visit
      rw [if_neg habove, hstart, if_pos hlisted]
      exact hagain
  | @missing above id dependency rest graph engine error habove hlisted hmissing =>
      obtain rfl := hlater.eq_of_error
      refine ⟨.error error, ?_, rfl, fun _ _ => rfl⟩
      rw [List.foldlM_cons, attempt_bind]
      unfold visit
      rw [if_neg habove, hstart, if_neg hlisted, attempt_bind]
      rcases later.attempt_registered_cases dependency with
        ⟨ref, record, hregistered⟩ | ⟨failure, hfailure⟩
      · rw [attempt_registered hregistered] at hmissing
        cases hmissing
      · rw [hfailure] at hmissing ⊢
        rw [Except.error.inj hmissing]
  | @leaf above id dependency rest graph engine ended ref record habove hlisted hregistered hsettled
      hrest ih =>
      obtain ⟨record', hregistered', htouched⟩ :=
        (hrest.recalls.trans hlater.recalls).registered hregistered
      obtain ⟨result, hagain, horder, hequal⟩ := ih hlater fuel (start.list _ record'.requested)
        (by rw [Graph.list, hstart]; rfl) hnodup hknown hfuel
      refine ⟨result, ?_, horder, fun hread hsame => hequal hread ?_⟩
      · rw [List.foldlM_cons, attempt_bind,
          attempt_visit_of_registered habove (hstart ▸ hlisted) hregistered',
          if_pos (htouched.status ▸ hsettled)]
        exact hagain
      · -- what has been analyzed asks for the same modules
        have hanalyzed := htouched.analyzed (hread ref record hregistered.record hsettled)
        rw [hsame, show record'.requested = record.requested by
          unfold Record.requested; rw [hanalyzed]]
  | fault habove hlisted hregistered hunsettled hanalyze =>
      obtain ⟨record', hregistered', htouched, hagain⟩ :=
        analyze_again hregistered hanalyze hlater.failure
      refine ⟨.error _, ?_, rfl, fun _ _ => rfl⟩
      rw [List.foldlM_cons, attempt_bind, attempt_visit_of_registered habove (hstart ▸ hlisted)
        hregistered', htouched.status, if_neg (by simp [hunsettled]), hagain]
  | down habove hlisted hregistered hunsettled hanalyze hbelow hrest ihbelow ihrest =>
      have hrecalls := hrest.recalls.trans hlater.recalls
      obtain ⟨record', hregistered', htouched, hagain⟩ :=
        analyze_again hregistered hanalyze (.of_ok (hbelow.recalls.trans hrecalls))
      obtain ⟨less, rfl, hnodup', hknown', hless⟩ :=
        exists_fuel hnodup hknown hfuel habove hregistered'.mem_ids
      obtain ⟨result, hwalked, horder, hequal⟩ :=
        ihbelow (.of_ok hrecalls) less start hstart hnodup' hknown' hless
      obtain ⟨middle, rfl, hmiddle⟩ : ∃ middle, result = .ok middle ∧ middle.order = _ := by
        cases result with
        | error error => cases horder
        | ok middle => exact ⟨middle, rfl, Except.ok.inj horder⟩
      obtain ⟨result, hagain', horder', hequal'⟩ := ihrest hlater (less + 1) (middle.list _ _)
        (congrArg (· ++ [_]) hmiddle) hnodup hknown hfuel
      have htouches := touches_analyze hregistered.record hanalyze
      refine ⟨result, ?_, horder', fun hread hsame => ?_⟩
      · rw [List.foldlM_cons, attempt_bind, attempt_visit_of_registered habove (hstart ▸ hlisted)
          hregistered', htouched.status, if_neg (by simp [hunsettled]), hagain]
        dsimp only
        rw [attempt_walk_succ, hwalked]
        exact hagain'
      · have hread' := Store.settledAnalyzed_lasting.touches htouches hread
        obtain rfl := Except.ok.inj (hequal hread' hsame)
        exact hequal' (Store.settledAnalyzed_lasting.touches hbelow.touches hread') rfl
  | stop habove hlisted hregistered hunsettled hanalyze hbelow ihbelow =>
      obtain ⟨record', hregistered', htouched, hagain⟩ :=
        analyze_again hregistered hanalyze (.of_ok (hbelow.recalls.trans hlater.recalls))
      obtain ⟨less, rfl, hnodup', hknown', hless⟩ :=
        exists_fuel hnodup hknown hfuel habove hregistered'.mem_ids
      obtain ⟨result, hwalked, horder, -⟩ := ihbelow hlater less start hstart hnodup' hknown' hless
      cases result with
      | ok middle => cases horder
      | error error =>
          obtain rfl := Except.error.inj horder
          refine ⟨.error _, ?_, rfl, fun _ _ => rfl⟩
          rw [List.foldlM_cons, attempt_bind, attempt_visit_of_registered habove
            (hstart ▸ hlisted) hregistered', htouched.status, if_neg (by simp [hunsettled]), hagain]
          dsimp only
          rw [attempt_walk_succ, hwalked]
          rfl

/-- A graph built again lists the same modules in the same order, and fails where it failed; nothing
is loaded, and nothing is learnt.  If what is settled has been analyzed it is the same graph. -/
theorem Builds.repeated (hbuilds : Builds root engine ended) (hlater : Follows ended later) :
    ∃ result, later.attempt (buildGraph root) = (result, later) ∧
      result.map (·.order) = ended.1.map (·.order) ∧
      (engine.store.SettledAnalyzed → result = ended.1) := by
  unfold buildGraph
  rw [attempt_bind]
  cases hbuilds with
  | missing hmissing =>
      obtain rfl := hlater.eq_of_error
      rcases later.attempt_registered_cases root with
        ⟨ref, record, hregistered⟩ | ⟨failure, hfailure⟩
      · rw [attempt_registered hregistered] at hmissing
        cases hmissing
      · rw [hfailure] at hmissing ⊢
        obtain rfl := Except.error.inj hmissing
        exact ⟨.error _, rfl, rfl, fun _ => rfl⟩
  | fault hregistered hanalyze =>
      obtain ⟨record', hregistered', -, hagain⟩ := analyze_again hregistered hanalyze hlater.failure
      rw [attempt_registered hregistered']
      dsimp only
      rw [attempt_bind, hagain]
      exact ⟨.error _, rfl, rfl, fun _ => rfl⟩
  | @walked engine' ref record dependencies ended hregistered hanalyze hvisits =>
      have hfollows : Follows ended later := by
        refine ⟨hlater.recalls, fun error herror => hlater.failed error ?_⟩
        rw [herror]
        rfl
      obtain ⟨record', hregistered', -, hagain⟩ :=
        analyze_again hregistered hanalyze (.of_ok (hvisits.recalls.trans hlater.recalls))
      have hfuel : later.reach = later.store.size + later.resolver.size + later.host.size + 1 := rfl
      obtain ⟨result, hwalked, horder, hequal⟩ := hvisits.again hfollows
        (later.store.size + later.resolver.size + later.host.size) (.empty root) rfl
        (List.nodup_singleton root)
        (List.cons_subset.mpr ⟨hregistered'.mem_ids, List.nil_subset _⟩) (by omega)
      rw [attempt_registered hregistered']
      dsimp only
      rw [attempt_bind, hagain]
      dsimp only
      rw [attempt_bind, attempt_get]
      dsimp only
      rw [hfuel, attempt_walk_succ, hwalked]
      refine ⟨_, rfl, ?_, fun hread => ?_⟩
      · have hlisted (found : Except ModuleError Graph) :
            (found.map (·.list root dependencies)).map (·.order) =
              (found.map (·.order)).map (· ++ [root]) := by
          cases found <;> rfl
        rw [hlisted, hlisted, horder]
      · have htouches := touches_analyze hregistered.record hanalyze
        rw [hequal (Store.settledAnalyzed_lasting.touches htouches hread) rfl]

/-- **A graph built again lists the same modules** in the same order, and fails where it failed;
nothing is loaded, and nothing is learnt. -/
theorem Builds.again (hbuilds : Builds root engine ended) (hlater : Follows ended later) :
    ∃ result, later.attempt (buildGraph root) = (result, later) ∧
      result.map (·.order) = ended.1.map (·.order) := by
  obtain ⟨result, hagain, horder, -⟩ := hbuilds.repeated hlater
  exact ⟨result, hagain, horder⟩

end Attempt

end Linkage
