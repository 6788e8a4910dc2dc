import Linkage.Proofs.Engine.Housing

/-!
# Which modules can come to be registered

While the host stays as it is, an engine registers no modules but those that are registered, those that
it remembers, and those that exist.  There are never more of them than an engine counts when it begins
to walk, whatever host it had before.

* `Engine.taughtAhead_of_same` : facts about what is registered and remembered.
* `Resolver.Answers` : the answer to a specifier, be it remembered or found now.
* `Engine.Fenced`, `Engine.taughtAhead_fenced` : only these modules can be registered.
* `Engine.exists_fenced` : they are no more than an engine reaches.
-/

namespace Linkage

namespace Engine

open Attempt

/-! ## Facts about what is registered and remembered -/

section Same

variable {fact : Engine → Prop}
  (hsame : ∀ engine engine' : Engine, engine'.config = engine.config →
    engine'.host = engine.host → engine'.resolver = engine.resolver →
    (∀ id, engine'.store.lookup? id = engine.store.lookup? id) → fact engine → fact engine')
include hsame

theorem keeps_modify_of_same (ref : RecordRef) (f : Record → Record) :
    Keeps fact (onStore (fun store => ((), store.modify ref f))) :=
  .onStore (fun engine hfact => hsame engine _ rfl rfl rfl (fun _ => rfl) hfact)

theorem keeps_keepSource_of_same (ref : RecordRef) (given : Except ModuleError ModuleSource) :
    Keeps fact (keepSource ref given) := by
  refine .of_after (fun engine hfact => ?_)
  unfold keepSource
  rw [attempt_bind, attempt_ofExcept]
  cases given with
  | error error => exact hfact
  | ok source => exact hsame engine _ rfl rfl rfl (fun _ => rfl) hfact

theorem keeps_sourceOf_of_same (ref : RecordRef) (record : Record) :
    Keeps fact (sourceOf ref record) := by
  unfold sourceOf
  split
  · exact .pure (fun _ hfact => hfact)
  · refine .get_bind (fun engine hfact => (keeps_keepSource_of_same hsame ref _).weaken ?_)
    rintro _ rfl
    exact hfact

theorem keeps_fetchSource_of_same (ref : RecordRef) (record : Record) :
    Keeps fact (fetchSource ref record) := by
  unfold fetchSource
  split
  · refine .get_bind (fun engine hfact => ?_)
    refine Triple.weaken ((keeps_keepSource_of_same hsame ref _).seq
      (fun _ => .pure (fun _ hfact => hfact))) ?_
    rintro _ rfl
    exact hfact
  · exact .pure (fun _ hfact => hfact)

variable (hregister : ∀ specifier referrer?, Keeps fact (resolveAndRegister specifier referrer?))
include hregister

theorem keeps_analyze_of_same (ref : RecordRef) (record : Record) :
    Keeps fact (analyze ref record) := by
  have hnoted (analysis : Analysis) : Keeps fact (do
      onStore (fun store => ((), store.modify ref (fun record =>
        { record with analysis? := some analysis })))
      return analysis.requested) :=
    (keeps_modify_of_same hsame ref _).seq (fun _ => .pure (fun _ hfact => hfact))
  unfold analyze
  split
  · exact .pure (fun _ hfact => hfact)
  · refine (keeps_sourceOf_of_same hsame ref record).seq (fun source => ?_)
    split
    · exact Keeps.seq (.pure (fun _ hfact => hfact)) hnoted
    · refine Keeps.seq ?_ hnoted
      exact (triple_analyzeModern source (fun specifier _ => hregister specifier _)).imp
        (fun _ hfact => hfact) (fun _ _ hpost => hpost.1) (fun _ hfact => hfact)

/-- A fact about which modules are registered, and what is remembered over which host, is upheld by
all that is learnt if resolving and registering keep it. -/
theorem taughtAhead_of_same : TaughtAhead fact where
  register := hregister
  analyze ref record :=
    (keeps_analyze_of_same hsame hregister ref record).weaken (fun _ hpre => hpre.1)
  fetch _ _ := (keeps_fetchSource_of_same hsame _ _).weaken (fun _ hpre => hpre.1)

end Same

end Engine

/-! ## Answers -/

/-- What a resolver answers: what it remembers, or else what the host says. -/
def Resolver.Answers (resolver : Resolver) (config : Config) (host : Host) (specifier : String)
    (referrer? : Option ModuleId) (resolved : Resolved) : Prop :=
  resolver.remembered? specifier referrer? = some resolved ∨
    resolver.remembered? specifier referrer? = none ∧
      config.resolve host specifier referrer? = .ok resolved

namespace Resolver

variable {resolver : Resolver} {config : Config} {host : Host} {specifier other : String}
  {referrer? asker? : Option ModuleId} {resolved : Resolved}

theorem answers_of_resolve
    (hresolved : (resolver.resolve config host specifier referrer?).1 = .ok resolved) :
    resolver.Answers config host specifier referrer? resolved := by
  cases hknown : resolver.remembered? specifier referrer? with
  | some known =>
      rw [resolve_of_remembered hknown] at hresolved
      exact .inl (hknown.trans (congrArg some (Except.ok.inj hresolved)))
  | none =>
      rw [resolve_of_unknown hknown] at hresolved
      refine .inr ⟨hknown, ?_⟩
      cases hfresh : config.resolve host specifier referrer? with
      | error error =>
          rw [hfresh] at hresolved
          cases hresolved
      | ok found =>
          rw [hfresh] at hresolved
          exact hresolved

theorem Answers.resolve (hanswers : resolver.Answers config host specifier referrer? resolved) :
    (resolver.resolve config host specifier referrer?).1 = .ok resolved := by
  rcases hanswers with hknown | ⟨hunknown, hfresh⟩
  · rw [resolve_of_remembered hknown]
  · rw [resolve_of_unknown hunknown, hfresh]

/-- What is remembered after an answer was an answer before. -/
theorem answers_of_remembered
    (hknown : (resolver.resolve config host specifier referrer?).2.remembered? other asker? =
      some resolved) : resolver.Answers config host other asker? resolved := by
  rw [remembered_resolve] at hknown
  rcases Option.or_eq_some_iff.mp hknown with hknown | ⟨-, hanswer⟩
  · exact .inl hknown
  · split at hanswer
    · rename_i hsame
      obtain ⟨rfl, rfl⟩ := hsame
      refine answers_of_resolve ?_
      cases hresult : (resolver.resolve config host specifier referrer?).1 with
      | error error =>
          rw [hresult] at hanswer
          cases hanswer
      | ok found =>
          rw [hresult] at hanswer
          exact congrArg Except.ok (Option.some.inj hanswer)
    · cases hanswer

end Resolver

namespace Engine

open Attempt

variable {config : Config} {host : Host} {ids : List ModuleId} {engine : Engine}

/-- To resolve a specifier and register its module fails and changes nothing, or it gives the
answer. -/
theorem attempt_resolveAndRegister_cases (engine : Engine) (specifier : String)
    (referrer? : Option ModuleId) :
    (∃ error, engine.resolver.remembered? specifier referrer? = none ∧
      engine.config.resolve engine.host specifier referrer? = .error error ∧
      engine.attempt (resolveAndRegister specifier referrer?) = (.error error, engine)) ∨
    ∃ resolved, engine.resolver.Answers engine.config engine.host specifier referrer? resolved ∧
      engine.attempt (resolveAndRegister specifier referrer?) =
        (.ok (resolved, (engine.store.getOrCreate resolved.id resolved.format).1), { engine with
          resolver := (engine.resolver.resolve engine.config engine.host specifier referrer?).2
          store := (engine.store.getOrCreate resolved.id resolved.format).2 }) := by
  rw [attempt_resolveAndRegister, attempt_resolve]
  cases hresult : (engine.resolver.resolve engine.config engine.host specifier referrer?).1 with
  | error error =>
      refine .inl ⟨error, ?_⟩
      dsimp only
      rw [Resolver.resolve_of_error hresult]
      cases hknown : engine.resolver.remembered? specifier referrer? with
      | some known =>
          rw [Resolver.resolve_of_remembered hknown] at hresult
          cases hresult
      | none =>
          rw [Resolver.resolve_of_unknown hknown] at hresult
          refine ⟨rfl, ?_, rfl⟩
          cases hfresh : engine.config.resolve engine.host specifier referrer? with
          | error failure =>
              rw [hfresh] at hresult
              exact hresult
          | ok resolved =>
              rw [hfresh] at hresult
              cases hresult
  | ok resolved => exact .inr ⟨resolved, Resolver.answers_of_resolve hresult, rfl⟩

/-! ## The fence -/

/-- Only these modules are registered, remembered, or exist. -/
structure Fenced (config : Config) (host : Host) (ids : List ModuleId) (engine : Engine) :
    Prop where
  settings : engine.config = config
  place : engine.host = host
  names : ∀ resolved, config.Names host resolved → resolved.id ∈ ids
  remembered : ∀ specifier referrer? resolved,
    engine.resolver.remembered? specifier referrer? = some resolved → resolved.id ∈ ids
  registered : ∀ id ref, engine.store.lookup? id = some ref → id ∈ ids

theorem Fenced.answer (hfenced : engine.Fenced config host ids) {specifier : String}
    {referrer? : Option ModuleId} {resolved : Resolved}
    (hanswers : engine.resolver.Answers config host specifier referrer? resolved) :
    resolved.id ∈ ids := by
  rcases hanswers with hknown | ⟨-, hfresh⟩
  · exact hfenced.remembered specifier referrer? resolved hknown
  · exact hfenced.names resolved ⟨specifier, referrer?, hfresh⟩

theorem keeps_fenced_register (config : Config) (host : Host) (ids : List ModuleId)
    (specifier : String) (referrer? : Option ModuleId) :
    Keeps (Fenced config host ids) (resolveAndRegister specifier referrer?) := by
  refine .of_after (fun engine hfenced => ?_)
  rcases engine.attempt_resolveAndRegister_cases specifier referrer? with
    ⟨error, -, -, heq⟩ | ⟨resolved, hanswers, heq⟩
  · rwa [heq]
  · rw [heq]
    rw [hfenced.settings, hfenced.place] at hanswers ⊢
    refine ⟨rfl, rfl, hfenced.names, fun other asker? found hknown => ?_,
      fun id ref hlookup => ?_⟩
    · exact hfenced.answer (Resolver.answers_of_remembered hknown)
    · rcases engine.store.getOrCreate_cases resolved.id resolved.format with
        ⟨_, -, heq⟩ | ⟨-, heap, fresh, -, hid, heq⟩
      · rw [heq] at hlookup
        exact hfenced.registered id ref hlookup
      · dsimp only at hlookup
        rw [heq, Store.lookup?_register] at hlookup
        split at hlookup
        · rename_i hsame
          rw [hsame, hid]
          exact hfenced.answer hanswers
        · exact hfenced.registered id ref hlookup

/-- It matters only which modules are registered and remembered over which host. -/
theorem fenced_of_same (engine engine' : Engine) (hconfig : engine'.config = engine.config)
    (hhost : engine'.host = engine.host) (hresolver : engine'.resolver = engine.resolver)
    (hlookup : ∀ id, engine'.store.lookup? id = engine.store.lookup? id)
    (hfenced : engine.Fenced config host ids) : engine'.Fenced config host ids where
  settings := hconfig.trans hfenced.settings
  place := hhost.trans hfenced.place
  names := hfenced.names
  remembered := hresolver ▸ hfenced.remembered
  registered id ref href := hfenced.registered id ref ((hlookup id).symm.trans href)

/-- No other modules come to be registered. -/
theorem taughtAhead_fenced (config : Config) (host : Host) (ids : List ModuleId) :
    TaughtAhead (Fenced config host ids) :=
  taughtAhead_of_same fenced_of_same (keeps_fenced_register config host ids)

/-- What is registered, what is remembered and what exists is no more than an engine reaches. -/
theorem exists_fenced (engine : Engine)
    (hids : ids.length ≤ engine.host.size ∧
      ∀ resolved, engine.config.Names engine.host resolved → resolved.id ∈ ids) :
    ∃ all : List ModuleId, all.length < engine.reach ∧
      engine.Fenced engine.config engine.host all := by
  refine ⟨engine.store.ids ++ engine.resolver.memo.map (·.resolved.id) ++ ids, ?_, rfl, rfl,
    fun resolved hnames => ?_, fun specifier referrer? resolved hknown => ?_,
    fun id ref hlookup => ?_⟩
  · rw [List.length_append, List.length_append, List.length_map, engine.store.length_ids]
    unfold reach Resolver.size
    omega
  · exact List.mem_append_right _ (hids.2 resolved hnames)
  · obtain ⟨entry, hentry, rfl⟩ := Option.map_eq_some_iff.mp hknown
    exact List.mem_append_left _ (List.mem_append_right _
      (List.mem_map_of_mem (List.mem_of_find?_eq_some hentry)))
  · refine List.mem_append_left _ (List.mem_append_left _ ?_)
    exact List.mem_map.mpr ⟨id.text, Table.mem_keys_of_find? hlookup, rfl⟩

end Engine

end Linkage
