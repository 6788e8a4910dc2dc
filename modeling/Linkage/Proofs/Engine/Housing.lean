import Linkage.Proofs.Engine.Upholding

/-!
# What an engine has from its host

As long as the host stays the same, an engine remembers of each specifier what resolving it afresh
would give, so only modules that exist are registered, and every source that it keeps is one that the
host gave.  All that an engine does upholds this.

* `Engine.Housed` : all that an engine has is from its host.
* `Engine.upheldAhead_housed` : it stays so.
-/

namespace Linkage

/-- What a host may give as the source of a module, at once or ahead. -/
def Host.Gives (host : Host) (id : ModuleId) (source : ModuleSource) : Prop :=
  host.load id = .ok source ∨ host.fetch id = .ok source

/-- A module that some specifier names. -/
def Config.Names (config : Config) (host : Host) (resolved : Resolved) : Prop :=
  ∃ specifier referrer?, config.resolve host specifier referrer? = .ok resolved

/-- What a specifier names exists, and has the format that the configuration says. -/
theorem Config.Names.held {config : Config} {host : Host} {resolved : Resolved}
    (hnames : config.Names host resolved) :
    host.holds resolved.id = true ∧ resolved.format = config.formatOf host resolved.id := by
  obtain ⟨specifier, referrer?, hresolved⟩ := hnames
  unfold Config.resolve at hresolved
  split at hresolved
  · cases hresolved
  · split at hresolved
    · cases hresolved
    · split at hresolved
      · cases hresolved
      · rename_i id hprobe
        rw [← Except.ok.inj hresolved]
        have hholds : host.holds id = true := List.find?_some (p := host.holds) hprobe
        exact ⟨hholds, by dsimp only⟩

/-- A fresh record has the format asked for. -/
theorem Store.getOrCreate_fresh (store : Store) {id : ModuleId} (format : Format)
    (hnone : store.lookup? id = none) : ∃ heap record, record.IsFresh ∧ record.id = id ∧
      record.format = format ∧ store.getOrCreate id format = register { store with heap } record := by
  unfold getOrCreate
  rw [hnone]
  cases format with
  | modern => exact ⟨store.heap, .modern id, ⟨id, none, rfl⟩, rfl, rfl, rfl⟩
  | legacy =>
      exact ⟨(store.heap.alloc {}).2, .legacy id (.object (store.heap.alloc {}).1),
        ⟨id, some _, rfl⟩, rfl, rfl, rfl⟩

namespace Engine

/-- All that an engine has is from its host. -/
structure Housed (config : Config) (host : Host) (engine : Engine) : Prop where
  settings : engine.config = config
  place : engine.host = host
  remembered : ∀ entry ∈ engine.resolver.memo,
    config.resolve host entry.specifier entry.referrer? = .ok entry.resolved
  registered : ∀ id ref, engine.store.lookup? id = some ref → ∃ record,
    engine.store.record? ref = some record ∧ record.id = id ∧ config.Names host ⟨id, record.format⟩
  sources : ∀ ref record source, engine.store.record? ref = some record →
    record.source? = some source → host.Gives record.id source

variable {config : Config} {host : Host} {engine engine' : Engine}

theorem housed_new (config : Config) (host : Host) : (new host config).Housed config host where
  settings := rfl
  place := rfl
  remembered := nofun
  registered _ _ hlookup := by cases hlookup
  sources _ _ _ hrecord := by simp [new, Store.empty, Store.record?] at hrecord

namespace Housed

theorem knowsSame (hhoused : engine.Housed config host) (hsame : engine.KnowsSame engine') :
    engine'.Housed config host where
  settings := hsame.config.trans hhoused.settings
  place := hsame.host.trans hhoused.place
  remembered := hsame.resolver ▸ hhoused.remembered
  registered id ref hlookup := by
    rw [hsame.store.lookup] at hlookup
    obtain ⟨record, hrecord, hid, hnames⟩ := hhoused.registered id ref hlookup
    obtain ⟨record', hrecord', hknown⟩ := hsame.store.record ref record hrecord
    exact ⟨record', hrecord', hknown.id.trans hid, by rwa [hknown.format]⟩
  sources ref record' source hrecord' hsource := by
    obtain ⟨record, hrecord, hknown⟩ := hsame.store.back hrecord'
    rw [hknown.id]
    exact hhoused.sources ref record source hrecord (hknown.source ▸ hsource)

/-- A resolver answers as the host says now. -/
theorem resolve (hhoused : engine.Housed config host) (specifier : String)
    (referrer? : Option ModuleId) :
    (∀ resolved, (engine.resolver.resolve config host specifier referrer?).1 = .ok resolved →
      config.resolve host specifier referrer? = .ok resolved) ∧
    ∀ entry ∈ (engine.resolver.resolve config host specifier referrer?).2.memo,
      config.resolve host entry.specifier entry.referrer? = .ok entry.resolved := by
  unfold Resolver.resolve
  cases hknown : engine.resolver.remembered? specifier referrer? with
  | some known =>
      refine ⟨fun resolved hresolved => ?_, hhoused.remembered⟩
      obtain rfl := Except.ok.inj hresolved
      obtain ⟨entry, hfound, rfl⟩ := Option.map_eq_some_iff.mp hknown
      have hkey := List.find?_some hfound
      obtain ⟨rfl, rfl⟩ : entry.specifier = specifier ∧ entry.referrer? = referrer? := by
        simpa using hkey
      exact hhoused.remembered entry (List.mem_of_find?_eq_some hfound)
  | none =>
      cases hfresh : config.resolve host specifier referrer? with
      | error error => exact ⟨nofun, hhoused.remembered⟩
      | ok resolved =>
          refine ⟨fun found hfound => hfound, fun entry hentry => ?_⟩
          rcases List.mem_append.mp hentry with hentry | hentry
          · exact hhoused.remembered entry hentry
          · rw [List.mem_singleton.mp hentry]
            exact hfresh

theorem getOrCreate (hhoused : engine.Housed config host) {resolved : Resolved}
    (hnames : config.Names host resolved) : Housed config host { engine with
      store := (engine.store.getOrCreate resolved.id resolved.format).2 } := by
  obtain ⟨id, format⟩ := resolved
  dsimp only
  cases hlookup : engine.store.lookup? id with
  | some ref =>
      rw [Store.getOrCreate_of_lookup format hlookup]
      exact hhoused
  | none =>
      obtain ⟨heap, fresh, hfresh, rfl, rfl, heq⟩ :=
        engine.store.getOrCreate_fresh format hlookup
      rw [heq]
      refine ⟨hhoused.settings, hhoused.place, hhoused.remembered, fun other ref hother => ?_,
        fun ref record source hrecord hsource => ?_⟩
      · rw [Store.lookup?_register] at hother
        split at hother
        · rename_i hid
          obtain rfl := Option.some.inj hother
          subst hid
          exact ⟨fresh, by rw [Store.record?_register, if_pos rfl], rfl, hnames⟩
        · obtain ⟨record, hrecord, hregistered⟩ := hhoused.registered other ref hother
          exact ⟨record, Store.record?_register_of_record hrecord, hregistered⟩
      · rw [Store.record?_register] at hrecord
        split at hrecord
        · obtain rfl := Option.some.inj hrecord
          obtain ⟨_, _, rfl⟩ := hfresh
          cases hsource
        · exact hhoused.sources ref record source hrecord hsource

/-- More may be known of a record than its source. -/
theorem modify (hhoused : engine.Housed config host) (ref : RecordRef) {f : Record → Record}
    (hsame : ∀ record : Record, (f record).id = record.id ∧ (f record).format = record.format ∧
      (f record).source? = record.source?) :
    Housed config host { engine with store := engine.store.modify ref f } := by
  have hrecord (other : RecordRef) : (engine.store.modify ref f).record? other =
      if other = ref then (engine.store.record? other).map f else engine.store.record? other :=
    Store.record?_modify _ _ _
  refine ⟨hhoused.settings, hhoused.place, hhoused.remembered, fun id other hlookup => ?_,
    fun other found source hfound hsource => ?_⟩
  · obtain ⟨record, hregistered, hid, hnames⟩ := hhoused.registered id other hlookup
    rw [hrecord, hregistered]
    split
    · obtain ⟨hid', hformat', -⟩ := hsame record
      exact ⟨f record, rfl, hid'.trans hid, by rwa [hformat']⟩
    · exact ⟨record, rfl, hid, hnames⟩
  · rw [hrecord] at hfound
    split at hfound
    · obtain ⟨record, hregistered, rfl⟩ := Option.map_eq_some_iff.mp hfound
      obtain ⟨hid', -, hsource'⟩ := hsame record
      rw [hid']
      exact hhoused.sources other record source hregistered (hsource'.symm.trans hsource)
    · exact hhoused.sources other found source hfound hsource

/-- A source that the host gave is kept. -/
theorem keepSource (hhoused : engine.Housed config host) {ref : RecordRef} {record : Record}
    (hrecord : engine.store.record? ref = some record) {source : ModuleSource}
    (hgives : host.Gives record.id source) (loads : Nat) :
    Housed config host { engine with
      loads
      store := engine.store.modify ref (fun record => { record with source? := some source }) } := by
  refine ⟨hhoused.settings, hhoused.place, hhoused.remembered, fun id other hlookup => ?_,
    fun other found source' hfound hsource' => ?_⟩
  · obtain ⟨record', hrecord', hregistered⟩ := hhoused.registered id other hlookup
    rw [Store.record?_modify]
    split
    · rename_i hsame
      subst hsame
      rw [hrecord']
      exact ⟨_, rfl, hregistered⟩
    · exact ⟨record', hrecord', hregistered⟩
  · rw [Store.record?_modify] at hfound
    split at hfound
    · rename_i hsame
      subst hsame
      rw [hrecord] at hfound
      obtain rfl := Option.some.inj hfound
      obtain rfl := Option.some.inj hsource'
      exact hgives
    · exact hhoused.sources other found source' hfound hsource'

end Housed

open Attempt

/-- A specifier is resolved to a module that exists. -/
theorem triple_resolve (config : Config) (host : Host) (specifier : String)
    (referrer? : Option ModuleId) :
    Triple (Housed config host) (Attempt.resolve specifier referrer?)
      (fun resolved engine => engine.Housed config host ∧
        config.resolve host specifier referrer? = .ok resolved) (Housed config host) := by
  intro engine hhoused
  obtain rfl := hhoused.settings
  obtain rfl := hhoused.place
  rw [attempt_resolve]
  obtain ⟨hanswer, hmemo⟩ := hhoused.resolve specifier referrer?
  have hhoused' : Housed engine.config engine.host { engine with
      resolver := (engine.resolver.resolve engine.config engine.host specifier referrer?).2 } :=
    { hhoused with remembered := hmemo }
  generalize engine.resolver.resolve engine.config engine.host specifier referrer? = ended
    at hanswer hhoused'
  obtain ⟨result, resolver⟩ := ended
  cases result with
  | error error => exact ⟨fun _ hvalue => (by cases hvalue), fun _ _ => hhoused'⟩
  | ok resolved =>
      refine ⟨fun found hfound => ⟨hhoused', hanswer found ?_⟩, fun _ herror => (by cases herror)⟩
      exact hfound

theorem triple_getOrCreate (config : Config) (host : Host) (resolved : Resolved) :
    Triple (fun engine => engine.Housed config host ∧ config.Names host resolved)
      (onStore (·.getOrCreate resolved.id resolved.format)) (fun _ => Housed config host)
      (Housed config host) :=
  .onStore (fun _ hpre => hpre.1.getOrCreate hpre.2)

theorem keeps_housed_register (config : Config) (host : Host) (specifier : String)
    (referrer? : Option ModuleId) :
    Keeps (Housed config host) (resolveAndRegister specifier referrer?) :=
  (triple_resolve config host specifier referrer?).bind (fun resolved =>
    ((triple_getOrCreate config host resolved).weaken
      (fun _ hpre => ⟨hpre.1, _, _, hpre.2⟩)).bind
      (fun _ => .pure (fun _ hhoused => hhoused)))

theorem triple_housed_keepSource (config : Config) (host : Host) (ref : RecordRef)
    {known : Record} {given : Except ModuleError ModuleSource}
    (hgiven : given = host.load known.id ∨ given = host.fetch known.id) :
    Triple (fun engine => engine.Housed config host ∧ engine.store.RecordOf ref known)
      (Attempt.keepSource ref given) (fun _ => Housed config host) (Housed config host) := by
  intro engine hpre
  obtain ⟨hhoused, record, hrecord, hid, -⟩ := hpre
  rw [← hid] at hgiven
  unfold Attempt.keepSource
  rw [attempt_bind, attempt_ofExcept]
  cases given with
  | error error => exact ⟨fun _ hvalue => (by cases hvalue), fun _ _ => hhoused⟩
  | ok source =>
      have hgives : host.Gives record.id source :=
        hgiven.imp (fun hload => hload.symm) (fun hfetch => hfetch.symm)
      exact ⟨fun _ _ => hhoused.keepSource hrecord hgives _, fun _ herror => (by cases herror)⟩

theorem triple_housed_sourceOf (config : Config) (host : Host) (ref : RecordRef)
    (record : Record) :
    Triple (fun engine => engine.Housed config host ∧ engine.store.record? ref = some record)
      (sourceOf ref record) (fun _ => Housed config host) (Housed config host) := by
  unfold sourceOf
  split
  · exact .pure (fun _ hpre => hpre.1)
  · refine .get_bind (fun engine hpre => ?_)
    rw [hpre.1.place]
    refine (triple_housed_keepSource config host ref (.inl rfl)).weaken ?_
    rintro _ rfl
    exact ⟨hpre.1, record, hpre.2, rfl, rfl⟩

theorem triple_housed_joinOrStart (config : Config) (host : Host) (resolved : Resolved) :
    Triple (fun engine => engine.Housed config host ∧ config.Names host resolved)
      (joinOrStart resolved) (fun _ => Housed config host) (Housed config host) :=
  Attempt.triple_joinOrStart (fun engine _ hhoused => hhoused.knowsSame (.of_imports engine _))
    (fun _ hpre => hpre.1)
    (triple_getOrCreate config host resolved)

/-- What an engine learns is from its host. -/
theorem taughtAhead_housed (config : Config) (host : Host) : TaughtAhead (Housed config host) where
  register := keeps_housed_register config host
  analyze ref record := by
    unfold analyze
    split
    · exact .pure (fun _ hpre => hpre.1)
    · have hnoted (analysis : Analysis) : Keeps (Housed config host) (do
          onStore (fun store => ((), store.modify ref (fun record =>
            { record with analysis? := some analysis })))
          return analysis.requested) := by
        refine Keeps.seq (.onStore (fun engine hhoused => ?_))
          (fun _ => .pure (fun _ hhoused => hhoused))
        refine hhoused.modify ref (fun record => ?_)
        exact ⟨rfl, rfl, rfl⟩
      refine (triple_housed_sourceOf config host ref record).bind (fun source => ?_)
      split
      · exact Triple.bind (Triple.pure (fun _ hhoused => hhoused)) hnoted
      · have hread : Keeps (Housed config host) (analyzeModern record.id source) :=
          (triple_analyzeModern source (fun specifier _ =>
            keeps_housed_register config host specifier _)).imp (fun _ hpre => hpre)
            (fun _ _ hpost => hpost.1) (fun _ hfails => hfails)
        exact hread.bind hnoted
  fetch {_ ref _} _ _ := by
    unfold fetchSource
    split
    · refine .get_bind (fun engine hpre => ?_)
      rw [hpre.1.place]
      refine ((triple_housed_keepSource config host ref (.inr rfl)).weaken ?_).bind
        (fun _ => .pure (fun _ hhoused => hhoused))
      rintro _ rfl
      exact hpre
    · exact .pure (fun _ hpre => hpre.1)

/-- **All that an engine does leaves it with what is from its host.** -/
theorem upheldAhead_housed (config : Config) (host : Host) :
    UpheldAhead (Housed config host) where
  toTaught := (taughtAhead_housed config host).toTaught
  same hsame hhoused := hhoused.knowsSame hsame
  resolve specifier referrer? :=
    (triple_resolve config host specifier referrer?).imp (fun _ hpre => hpre)
      (fun _ _ hpost => hpost.1) (fun _ hfails => hfails)
  load := triple_housed_sourceOf config host
  prefetch := (taughtAhead_housed config host).keeps_prefetch
  join specifier requester? :=
    (triple_resolve config host specifier requester?).bind (fun resolved =>
      ((triple_housed_joinOrStart config host resolved).weaken
        (fun _ hpre => ⟨hpre.1, _, _, hpre.2⟩)).bind
        (fun _ => .pure (fun _ hhoused => hhoused)))
  recount _ _ hhoused :=
    ⟨hhoused.settings, hhoused.place, hhoused.remembered, hhoused.registered, hhoused.sources⟩

end Engine

end Linkage
