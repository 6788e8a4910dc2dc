import Linkage.Proofs.Engine.Studying

/-!
# Learning no more than another engine

Two engines that begin in one state may learn of modules in different orders.  One learns no more than
another if it registers no module that the other has not registered, keeps no source and no analysis
that the other does not keep, and remembers no answer that the other does not remember.

* `Store.Bounded` : a store that knows no more of modules than another.
* `Engine.Bounded` : an engine that has learnt no more than another since both began.
* `Engine.Bounded.register`, `Engine.Bounded.keepSource`, `Engine.Bounded.keepAnalysis` : what another
  engine has learnt may be learnt.
-/

namespace Linkage

/-- Of a registered module there is something in the record. -/
def Store.Has (store : Store) (id : ModuleId) (part : Record → Bool) : Prop :=
  ∃ ref record, store.Registered id ref record ∧ part record = true

/-- A store that knows no more of modules than another one, the limit, and that has not changed the
records of modules that were forgotten before the start. -/
structure Store.Bounded (start limit store : Store) : Prop where
  registered : ∀ id, (store.lookup? id).isSome → (limit.lookup? id).isSome
  sourced : ∀ id, store.Has id (·.source?.isSome) → limit.Has id (·.source?.isSome)
  analyzed : ∀ id, store.Has id (·.analysis?.isSome) → limit.Has id (·.analysis?.isSome)
  aside : ∀ ref record, start.record? ref = some record → (∀ id, start.lookup? id ≠ some ref) →
    store.record? ref = some record

namespace Store

variable {start limit store next : Store} {id : ModuleId} {ref : RecordRef}

/-- What there is of a module is there when more is known. -/
theorem Learns.has (hlearns : store.Learns next) {part : Record → Bool}
    (hpart : ∀ record record' : Record, record.Informed record' → part record = true →
      part record' = true) (hhas : store.Has id part) : next.Has id part := by
  obtain ⟨ref, record, hregistered, hsome⟩ := hhas
  obtain ⟨record', hrecord', hinformed⟩ := hlearns.enriches.record ref record hregistered.record
  exact ⟨ref, record', ⟨hlearns.enriches.lookup id ref hregistered.lookup, hrecord'⟩,
    hpart record record' hinformed hsome⟩

/-- A store that has only learnt knows all that it knew. -/
theorem Learns.bounded (hlearns : store.Learns next) : Bounded store next store where
  registered id hsome := by
    obtain ⟨ref, hlookup⟩ := Option.isSome_iff_exists.mp hsome
    rw [hlearns.enriches.lookup id ref hlookup]
    rfl
  sourced _ := hlearns.has (fun _ _ hinformed hsome => by
    obtain ⟨source, hsource⟩ := Option.isSome_iff_exists.mp hsome
    rw [hinformed.source source hsource]
    rfl)
  analyzed _ := hlearns.has (fun _ _ hinformed hsome => by
    obtain ⟨analysis, hanalysis⟩ := Option.isSome_iff_exists.mp hsome
    rw [hinformed.analysis analysis hanalysis]
    rfl)
  aside _ _ hrecord _ := hrecord

namespace Bounded

variable (hbounded : Bounded start limit store)
include hbounded

/-- A module may be registered that is registered at the limit. -/
theorem getOrCreate (hid : (limit.lookup? id).isSome) (format : Format) :
    Bounded start limit (store.getOrCreate id format).2 := by
  rcases store.getOrCreate_cases id format with
    ⟨_, -, heq⟩ | ⟨hnone, heap, fresh, hfresh, hname, heq⟩ <;> rw [heq]
  · exact hbounded
  -- of the fresh record nothing is known
  have hback {other : ModuleId} {part : Record → Bool}
      (hhas : Has (register { store with heap } fresh).2 other part) (hunknown : part fresh = false) :
      store.Has other part := by
    obtain ⟨found, record, hregistered, hsome⟩ := hhas
    have hrecord := hregistered.record
    rw [record?_register] at hrecord
    split at hrecord
    · rw [← Option.some.inj hrecord, hunknown] at hsome
      cases hsome
    · rename_i hother
      have hlookup := hregistered.lookup
      rw [lookup?_register] at hlookup
      split at hlookup
      · exact absurd (congrArg RecordRef.index (Option.some.inj hlookup)).symm hother
      · exact ⟨found, record, ⟨hlookup, hrecord⟩, hsome⟩
  obtain ⟨_, _, rfl⟩ := hfresh
  refine ⟨fun other hsome => ?_, fun other hhas => hbounded.sourced other (hback hhas rfl),
    fun other hhas => hbounded.analyzed other (hback hhas rfl), fun found record hrecord hforgotten => ?_⟩
  · rw [lookup?_register] at hsome
    split at hsome
    · rename_i hsame
      rwa [hsame, hname]
    · exact hbounded.registered other hsome
  · exact record?_register_of_record (hbounded.aside found record hrecord hforgotten)

/-- More may be known of a registered module if it is known at the limit. -/
theorem modify (hlearns : start.Learns store) (hnamed : store.Named)
    (hlookup : store.lookup? id = some ref) {f : Record → Record}
    (hsourced : ∀ record, store.record? ref = some record → (f record).source?.isSome →
      record.source?.isSome ∨ limit.Has id (·.source?.isSome))
    (hanalyzed : ∀ record, store.record? ref = some record → (f record).analysis?.isSome →
      record.analysis?.isSome ∨ limit.Has id (·.analysis?.isSome)) :
    Bounded start limit (store.modify ref f) := by
  have hback {other : ModuleId} {part : Record → Bool}
      (hpart : ∀ record, store.record? ref = some record → part (f record) = true →
        part record = true ∨ limit.Has id part) (hhas : (store.modify ref f).Has other part) :
      store.Has other part ∨ limit.Has other part := by
    obtain ⟨found, record, hregistered, hsome⟩ := hhas
    have hrecord := hregistered.record
    rw [record?_modify] at hrecord
    split at hrecord
    · rename_i hsame
      subst hsame
      obtain ⟨before, hbefore, rfl⟩ := Option.map_eq_some_iff.mp hrecord
      rcases hpart before hbefore hsome with hknown | hlimit
      · exact .inl ⟨found, before, ⟨hregistered.lookup, hbefore⟩, hknown⟩
      · -- the record is that of one module
        obtain ⟨_, hone, rfl⟩ := hnamed id found hlookup
        obtain ⟨_, hother, rfl⟩ := hnamed other found hregistered.lookup
        obtain rfl := Option.some.inj (hone.symm.trans hother)
        exact .inr hlimit
    · exact .inl ⟨found, record, ⟨hregistered.lookup, hrecord⟩, hsome⟩
  refine ⟨hbounded.registered, fun other hhas => ?_, fun other hhas => ?_,
    fun found record hrecord hforgotten => ?_⟩
  · exact (hback hsourced hhas).elim (hbounded.sourced other) (fun hlimit => hlimit)
  · exact (hback hanalyzed hhas).elim (hbounded.analyzed other) (fun hlimit => hlimit)
  · have hne : found ≠ ref := by
      rintro rfl
      rcases hlearns.lookup_back hlookup with hbefore | hnone
      · exact hforgotten id hbefore
      · cases hnone.symm.trans hrecord
    rw [record?_modify_ne hne]
    exact hbounded.aside found record hrecord hforgotten

end Bounded

end Store

namespace Engine

/-- An engine that has learnt since a start, over one host, no more than another one has learnt. -/
structure Bounded (config : Config) (host : Host) (start limit engine : Engine) : Prop where
  enriched : start.Enriched engine
  housed : engine.Housed config host
  studied : engine.Studied
  resolver : engine.resolver.Recalls limit.resolver
  store : Store.Bounded start.store limit.store engine.store

variable {config : Config} {host : Host} {start limit engine : Engine}

/-- What is remembered is what the host says. -/
theorem Housed.of_remembered (hhoused : engine.Housed config host) {specifier : String}
    {referrer? : Option ModuleId} {resolved : Resolved}
    (hknown : engine.resolver.remembered? specifier referrer? = some resolved) :
    config.resolve host specifier referrer? = .ok resolved := by
  refine (hhoused.resolve specifier referrer?).1 resolved ?_
  rw [Resolver.resolve_of_remembered hknown]

/-- An engine that has only learnt has learnt no less than nothing. -/
theorem Enriched.bounded (henriched : start.Enriched limit) (hhoused : start.Housed config host)
    (hstudied : start.Studied) : Bounded config host start limit start where
  enriched := .refl start
  housed := hhoused
  studied := hstudied
  resolver := henriched.resolver
  store := henriched.store.bounded

namespace Bounded

variable (hbounded : Bounded config host start limit engine) {id : ModuleId} {ref : RecordRef}
  {record : Record} {source : ModuleSource}
include hbounded

/-- A specifier whose answer is remembered at the limit may be resolved, and the module registered. -/
theorem register (hhoused : limit.Housed config host) {specifier : String}
    {referrer? : Option ModuleId} {resolved : Resolved}
    (hknown : limit.resolver.remembered? specifier referrer? = some resolved)
    (hthere : (limit.store.lookup? resolved.id).isSome) :
    ∃ ref engine', engine.attempt (Attempt.resolveAndRegister specifier referrer?) =
        (.ok (resolved, ref), engine') ∧ Bounded config host start limit engine' ∧
      engine'.store.lookup? resolved.id = some ref := by
  have hresolved := hhoused.of_remembered hknown
  have henriched := hbounded.enriched.register specifier referrer?
  have hhoused' := (keeps_housed_register config host specifier referrer?).after hbounded.housed
  have hstudied' := (keptStepwise_studied.keeps_register specifier referrer?).after hbounded.studied
  rcases engine.attempt_resolveAndRegister_cases specifier referrer? with
    ⟨error, -, hfailed, -⟩ | ⟨found, hanswers, heq⟩
  · rw [hbounded.housed.settings, hbounded.housed.place] at hfailed
    cases hresolved.symm.trans hfailed
  rw [hbounded.housed.settings, hbounded.housed.place] at hanswers
  obtain rfl := Except.ok.inj
    (((hbounded.housed.resolve specifier referrer?).1 found hanswers.resolve).symm.trans hresolved)
  rw [heq] at henriched hhoused' hstudied' ⊢
  refine ⟨_, _, rfl, ⟨henriched, hhoused', hstudied', ?_, hbounded.store.getOrCreate hthere _⟩,
    Store.lookup?_getOrCreate _ _ _⟩
  -- the answer is remembered at the limit as well
  intro other asker? answer hanswer
  dsimp only at hanswer
  rw [Resolver.remembered_resolve] at hanswer
  rcases Option.or_eq_some_iff.mp hanswer with hbefore | ⟨-, hnew⟩
  · exact hbounded.resolver other asker? answer hbefore
  · split at hnew
    · rename_i hsame
      obtain ⟨rfl, rfl⟩ := hsame
      rw [hbounded.housed.settings, hbounded.housed.place, hanswers.resolve] at hnew
      exact Option.some.inj hnew ▸ hknown
    · cases hnew

/-- A source that is kept at the limit may be kept. -/
theorem keepSource (hregistered : engine.store.Registered id ref record)
    (hnew : record.source? = none) (hgives : host.Gives record.id source)
    (hlimit : limit.store.Has id (·.source?.isSome)) (loads : Nat) :
    Bounded config host start limit { engine with
      loads
      store := engine.store.modify ref (fun record => { record with source? := some source }) } where
  enriched := hbounded.enriched.modify loads (.source hregistered.record hnew source)
  housed := hbounded.housed.keepSource hregistered.record hgives loads
  studied := hbounded.studied.keepSource hregistered.record hnew source loads
  resolver := hbounded.resolver
  store := hbounded.store.modify hbounded.enriched.store hbounded.studied.named hregistered.lookup
    (fun _ _ _ => .inr hlimit) (fun _ _ hsome => .inl hsome)

/-- An analysis that is kept at the limit may be kept. -/
theorem keepAnalysis (hregistered : engine.store.Registered id ref record)
    (hsource : record.source? = some source) (hnew : record.analysis? = none) {analysis : Analysis}
    (hreads : record.ReadsAs engine source analysis)
    (hlimit : limit.store.Has id (·.analysis?.isSome)) :
    Bounded config host start limit { engine with
      store := engine.store.modify ref (fun record => { record with
        analysis? := some analysis }) } where
  enriched := hbounded.enriched.modify engine.loads (.analysis hregistered.record hnew analysis)
  housed := hbounded.housed.modify ref (fun _ => ⟨rfl, rfl, rfl⟩)
  studied := hbounded.studied.keepAnalysis hregistered.record hsource hreads
  resolver := hbounded.resolver
  store := hbounded.store.modify hbounded.enriched.store hbounded.studied.named hregistered.lookup
    (fun _ _ hsome => .inl hsome) (fun _ _ _ => .inr hlimit)

end Bounded

end Engine

end Linkage
