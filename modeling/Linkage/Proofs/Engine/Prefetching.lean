import Linkage.Proofs.Engine.Enriching

/-!
# Fetching ahead, level by level

Before a dynamic import is run, the sources of all modules it leads to are fetched: first the target,
then what its source names, and so on.  No module stands twice on a level, so each is fetched as it is
known then.  When a level has been fetched, each of its modules is settled, or has a source whose
specifiers are all remembered and lead to modules that have been seen.

* `Attempt.fetchLevel` : one level.
* `Attempt.Spreads` : the modules of the next level are those that have not been seen.
* `Engine.Gathered` : a module that has been fetched, with what it names.
* `Attempt.triple_fetchLevel` : what one level does, given what fetching and registering do.
* `Attempt.Fetches`, `Attempt.Prefetches` : level after level, without a bound on their number.
* `Attempt.fetches_prefetch` : what engines do is that.
-/

namespace Linkage

namespace Attempt

/-- One level: what has not settled is fetched, and what it names is looked for. -/
def fetchLevel (level seen : List ModuleId) : Attempt (List ModuleId × List ModuleId) := do
  let records ← unsettled level
  records.forM (fun (ref, record) => fetchSource ref record)
  records.foldlM (fun (found, seen) (ref, record) => nextLevel ref record found seen) ([], seen)

/-- An empty level is the last one. -/
theorem attempt_prefetchLevels_nil (engine : Engine) (fuel : Nat) (seen : List ModuleId) :
    engine.attempt (prefetchLevels fuel [] seen) = (.ok (), engine) := by
  cases fuel with
  | zero => rfl
  | succ fuel =>
      rw [prefetchLevels]
      rfl

/-- Levels are fetched one after the other. -/
theorem attempt_prefetchLevels_succ (engine : Engine) (fuel : Nat) {level : List ModuleId}
    (seen : List ModuleId) (hlevel : level ≠ []) :
    engine.attempt (prefetchLevels (fuel + 1) level seen) =
      match engine.attempt (fetchLevel level seen) with
      | (.error error, engine) => (.error error, engine)
      | (.ok (next, seen), engine) => engine.attempt (prefetchLevels fuel next seen) := by
  have hsplit : prefetchLevels (fuel + 1) level seen = (do
      let records ← unsettled level
      records.forM (fun (ref, record) => fetchSource ref record)
      let (next, seen) ← records.foldlM (fun (found, seen) (ref, record) =>
        nextLevel ref record found seen) ([], seen)
      prefetchLevels fuel next seen) := by
    rw [prefetchLevels, if_neg (by simpa using hlevel)]
  rw [hsplit]
  unfold fetchLevel
  rw [Engine.attempt_bind, Engine.attempt_bind]
  generalize engine.attempt (unsettled level) = ended
  obtain ⟨_ | records, engine⟩ := ended
  · rfl
  dsimp only
  rw [Engine.attempt_bind, Engine.attempt_bind]
  generalize engine.attempt (records.forM _) = ended
  obtain ⟨_ | _, engine⟩ := ended
  · rfl
  dsimp only
  rw [Engine.attempt_bind]
  generalize engine.attempt (records.foldlM _ _) = ended
  obtain ⟨_ | _, engine⟩ := ended <;> rfl

/-- What has been found is what has been seen since, each module once. -/
structure Spreads (seen : List ModuleId) (result : List ModuleId × List ModuleId) : Prop where
  append : result.2 = result.1.reverse ++ seen
  nodup : result.2.Nodup

namespace Spreads

variable {seen : List ModuleId} {result : List ModuleId × List ModuleId}

theorem start (hnodup : seen.Nodup) : Spreads seen ([], seen) := ⟨rfl, hnodup⟩

theorem found (hspreads : Spreads seen result) {id : ModuleId} (hnew : id ∉ result.2) :
    Spreads seen (result.1 ++ [id], id :: result.2) := by
  refine ⟨?_, List.nodup_cons.mpr ⟨hnew, hspreads.nodup⟩⟩
  dsimp only
  rw [hspreads.append, List.reverse_append, List.append_assoc]
  rfl

theorem nodup_found (hspreads : Spreads seen result) : result.1.Nodup := by
  have hnodup := hspreads.nodup
  rw [hspreads.append] at hnodup
  exact List.nodup_reverse.mp hnodup.of_append_left

theorem subset (hspreads : Spreads seen result) : seen ⊆ result.2 := by
  rw [hspreads.append]
  exact List.subset_append_right _ _

theorem mem_cases (hspreads : Spreads seen result) {id : ModuleId} (hid : id ∈ result.2) :
    id ∈ result.1 ∨ id ∈ seen := by
  rw [hspreads.append] at hid
  exact (List.mem_append.mp hid).imp List.mem_reverse.mp (fun hseen => hseen)

theorem length (hspreads : Spreads seen result) :
    result.2.length = result.1.length + seen.length := by
  rw [hspreads.append, List.length_append, List.length_reverse]

end Spreads

/-! ## One deed for each of several things -/

section Apart

variable {γ : Type} {fact fails : Engine → Prop} {before after : γ → Engine → Prop}
  {apart : γ → γ → Prop} {f : γ → Attempt PUnit} {items : List γ}

/-- What is done for one thing does not matter to the others. -/
theorem Triple.forM_apart (hitems : items.Pairwise apart)
    (hstep : ∀ item ∈ items, Triple (fun engine => fact engine ∧ before item engine) (f item)
      (fun _ engine => fact engine ∧ after item engine) fails)
    (hbefore : ∀ item other, apart item other → Keeps (before other) (f item))
    (hafter : ∀ item other, apart item other → Keeps (after item) (f other)) :
    Triple (fun engine => fact engine ∧ ∀ item ∈ items, before item engine) (items.forM f)
      (fun _ engine => fact engine ∧ ∀ item ∈ items, after item engine) fails := by
  induction items with
  | nil => exact .pure (fun _ hpre => ⟨hpre.1, nofun⟩)
  | cons item rest ih =>
      obtain ⟨hfirst, hrest⟩ := List.pairwise_cons.mp hitems
      have hone := (hstep item List.mem_cons_self).and
        (Keeps.all rest (fun other hother => hbefore item other (hfirst other hother)))
      have hothers := (ih hrest (fun other hother => hstep other (List.mem_cons_of_mem _ hother))).and
        (Triple.forM rest (fun other hother => hafter item other (hfirst other hother)))
      refine (hone.imp ?_ (fun _ _ hpost => hpost) (fun _ hfails => hfails.1)).bind
        (fun _ => hothers.imp ?_ ?_ (fun _ hfails => hfails.1))
      · exact fun engine hpre => ⟨⟨hpre.1, hpre.2 item List.mem_cons_self⟩,
          fun other hother => hpre.2 other (List.mem_cons_of_mem _ hother)⟩
      · exact fun engine hpost => ⟨⟨hpost.1.1, hpost.2⟩, hpost.1.2⟩
      · rintro _ engine ⟨⟨hfact, hafters⟩, hdone⟩
        exact ⟨hfact, List.forall_mem_cons.mpr ⟨hdone, hafters⟩⟩

end Apart

/-! ## The modules of a level -/

variable {engine : Engine} {level seen : List ModuleId}

/-- The records of a level, each of another module. -/
structure Picks (level : List ModuleId) (engine : Engine) (records : List (RecordRef × Record)) :
    Prop where
  entry : ∀ entry ∈ records, ∃ id ∈ level, engine.store.Registered id entry.1 entry.2 ∧
    entry.2.status.isSettled = false
  complete : ∀ id ∈ level, ∀ ref record, engine.store.Registered id ref record →
    record.status.isSettled = false → (ref, record) ∈ records
  apart : records.Pairwise (fun entry other => entry.1 ≠ other.1)

theorem attempt_unsettled (hnamed : engine.store.Named) (hlevel : level.Nodup) :
    ∃ records, engine.attempt (unsettled level) = (.ok records, engine) ∧
      Picks level engine records := by
  refine ⟨_, rfl, fun entry hentry => ?_, fun id hid ref record hregistered hunsettled => ?_, ?_⟩
  · obtain ⟨id, hid, hfound⟩ := List.mem_filterMap.mp hentry
    split at hfound
    · rename_i ref record hlookup hfind
      split at hfound
      · cases hfound
      · rename_i hunsettled
        obtain rfl := Option.some.inj hfound
        rw [Store.find?, hlookup] at hfind
        exact ⟨id, hid, ⟨hlookup, hfind⟩, by simpa using hunsettled⟩
    · cases hfound
  · refine List.mem_filterMap.mpr ⟨id, hid, ?_⟩
    rw [hregistered.lookup, hregistered.find]
    dsimp only
    rw [hunsettled]
    rfl
  · -- two modules of a level have two records
    refine List.Pairwise.filterMap _ (fun id other hother entry hentry entry' hentry' => ?_) hlevel
    split at hentry
    · rename_i ref record hlookup _
      split at hentry'
      · rename_i ref' record' hlookup' _
        split at hentry
        · cases hentry
        split at hentry'
        · cases hentry'
        obtain rfl := Option.some.inj hentry
        obtain rfl := Option.some.inj hentry'
        rintro rfl
        exact hother (hnamed.unique hlookup' hlookup)
      · cases hentry'
    · cases hentry

/-- A source is fetched for a module that has none. -/
theorem attempt_fetchSource_cases (engine : Engine) (ref : RecordRef) (record : Record) :
    (∃ source, record.source? = some source ∧
      engine.attempt (fetchSource ref record) = (.ok (), engine)) ∨
    record.source? = none ∧ ((∃ error, engine.host.fetch record.id = .error error ∧
        engine.attempt (fetchSource ref record) = (.error error, engine)) ∨
      ∃ source, engine.host.fetch record.id = .ok source ∧
        engine.attempt (fetchSource ref record) = (.ok (), { engine with
          loads := engine.loads + 1
          store := engine.store.modify ref (fun record => { record with
            source? := some source }) })) := by
  unfold fetchSource
  cases hsource : record.source? with
  | some source => exact .inl ⟨source, rfl, rfl⟩
  | none =>
      refine .inr ⟨rfl, ?_⟩
      simp only [Option.isNone_none, if_true]
      rw [Engine.attempt_bind, Engine.attempt_get]
      dsimp only
      unfold keepSource
      rw [Engine.attempt_bind, Engine.attempt_bind, Engine.attempt_ofExcept]
      cases engine.host.fetch record.id with
      | error error => exact .inl ⟨error, rfl, rfl⟩
      | ok source => exact .inr ⟨source, rfl, rfl⟩

end Attempt

/-! ## What one level does -/

namespace Engine

/-- A specifier that a module names is remembered, and leads to a module that has been seen. -/
def Leads (engine : Engine) (id : ModuleId) (seen : List ModuleId) (specifier : String) : Prop :=
  ∃ resolved, engine.resolver.remembered? specifier (some id) = some resolved ∧ resolved.id ∈ seen

/-- A module that has been fetched: it is settled, or it has a source whose specifiers lead to modules
that have been seen. -/
def Gathered (engine : Engine) (seen : List ModuleId) (id : ModuleId) : Prop :=
  ∃ ref record, engine.store.Registered id ref record ∧ (record.status.isSettled = true ∨
    ∃ source, record.source? = some source ∧ (record.format = .modern →
      ∀ specifier ∈ source.specifiers, engine.Leads id seen specifier))

variable {start engine : Engine} {seen seen' : List ModuleId} {id : ModuleId}

theorem Leads.mono {specifier : String} (hleads : start.Leads id seen specifier)
    (hresolver : start.resolver.Recalls engine.resolver) (hseen : seen ⊆ seen') :
    engine.Leads id seen' specifier := by
  obtain ⟨resolved, hknown, hmem⟩ := hleads
  exact ⟨resolved, hresolver _ _ _ hknown, hseen hmem⟩

theorem Gathered.mono (hgathered : start.Gathered seen id) (henriched : start.Enriched engine)
    (hseen : seen ⊆ seen') : engine.Gathered seen' id := by
  obtain ⟨ref, record, hregistered, hcases⟩ := hgathered
  obtain ⟨record', hrecord', hinformed⟩ :=
    henriched.store.enriches.record ref record hregistered.record
  have hlookup := henriched.store.enriches.lookup id ref hregistered.lookup
  refine ⟨ref, record', ⟨hlookup, hrecord'⟩, hcases.imp (fun hsettled => ?_) ?_⟩
  · rwa [hinformed.status]
  · rintro ⟨source, hsource, hleads⟩
    refine ⟨source, hinformed.source source hsource, fun hmodern specifier hspecifier => ?_⟩
    rw [hinformed.format] at hmodern
    exact (hleads hmodern specifier hspecifier).mono henriched.resolver hseen

end Engine

namespace Attempt

/-- What is needed of fetching and registering for a level to be fetched. -/
structure Fetchable (start : Engine) (level : List ModuleId) (fact fails : Engine → Prop)
    (allowed : ModuleId → Prop) : Prop where
  enriched : ∀ engine, fact engine → start.Enriched engine
  fetch : ∀ id ∈ level, ∀ ref record, start.store.Registered id ref record →
    record.status.isSettled = false → Triple
      (fun engine => fact engine ∧ engine.store.record? ref = some record)
      (fetchSource ref record) (fun _ => fact) fails
  register : ∀ id ∈ level, ∀ ref record source, start.store.Registered id ref record →
    record.status.isSettled = false → record.format = .modern →
    ∀ specifier ∈ source.specifiers, Triple
      (fun engine => fact engine ∧
        engine.store.record? ref = some { record with source? := some source })
      (resolveAndRegister specifier (some id))
      (fun found engine => fact engine ∧ allowed found.1.id) fails

section Level

variable {start : Engine} {level seen : List ModuleId} {fact fails : Engine → Prop}
  {allowed : ModuleId → Prop} {ref : RecordRef} {record : Record}

/-- The record of a module that has been fetched. -/
def Sourced (entry : RecordRef × Record) (engine : Engine) : Prop :=
  ∃ source, engine.store.record? entry.1 = some { entry.2 with source? := some source }

/-- Besides, what its source names has been looked for. -/
def Followed (seen : List ModuleId) (entry : RecordRef × Record) (engine : Engine) : Prop :=
  ∃ source, engine.store.record? entry.1 = some { entry.2 with source? := some source } ∧
    (entry.2.format = .modern →
      ∀ specifier ∈ source.specifiers, engine.Leads entry.2.id seen specifier)

theorem keeps_record_register (ref : RecordRef) (record : Record) (specifier : String)
    (referrer? : Option ModuleId) :
    Keeps (fun engine => engine.store.record? ref = some record)
      (resolveAndRegister specifier referrer?) := by
  refine .of_after (fun engine hrecord => ?_)
  rcases engine.attempt_resolveAndRegister_cases specifier referrer? with
    ⟨error, -, -, heq⟩ | ⟨resolved, -, heq⟩
  · rwa [heq]
  · rw [heq]
    exact Store.record?_getOrCreate resolved.id resolved.format hrecord

theorem keeps_leads_register (id : ModuleId) (seen : List ModuleId) (named specifier : String)
    (referrer? : Option ModuleId) :
    Keeps (fun engine => engine.Leads id seen named) (resolveAndRegister specifier referrer?) := by
  refine .of_after (fun engine hleads => hleads.mono ?_ (List.Subset.refl _))
  rw [resolver_resolveAndRegister]
  exact engine.resolver.recalls_resolve _ _ _ _

theorem keeps_lookup_register (id : ModuleId) (specifier : String) (referrer? : Option ModuleId) :
    Keeps (fun engine => ∃ ref, engine.store.lookup? id = some ref)
      (resolveAndRegister specifier referrer?) := by
  refine .of_after (fun engine hlookup => ?_)
  obtain ⟨ref, hlookup⟩ := hlookup
  rcases engine.attempt_resolveAndRegister_cases specifier referrer? with
    ⟨error, -, -, heq⟩ | ⟨resolved, -, heq⟩
  · exact ⟨ref, heq ▸ hlookup⟩
  · rw [heq]
    exact ⟨ref, Store.lookup?_getOrCreate_of_lookup resolved.format hlookup⟩

theorem keeps_sourced_register (entry : RecordRef × Record) (specifier : String)
    (referrer? : Option ModuleId) : Keeps (Sourced entry) (resolveAndRegister specifier referrer?) := by
  refine .of_after (fun engine hsourced => ?_)
  obtain ⟨source, hrecord⟩ := hsourced
  exact ⟨source, (keeps_record_register entry.1 _ specifier referrer?).after hrecord⟩

theorem keeps_followed_register (seen : List ModuleId) (entry : RecordRef × Record)
    (specifier : String) (referrer? : Option ModuleId) :
    Keeps (Followed seen entry) (resolveAndRegister specifier referrer?) := by
  refine .of_after (fun engine hfollowed => ?_)
  obtain ⟨source, hrecord, hleads⟩ := hfollowed
  refine ⟨source, (keeps_record_register entry.1 _ specifier referrer?).after hrecord, ?_⟩
  exact fun hmodern named hnamed =>
    (keeps_leads_register entry.2.id seen named specifier referrer?).after (hleads hmodern named hnamed)

theorem Followed.mono {seen seen' : List ModuleId} {entry : RecordRef × Record} {engine : Engine}
    (hfollowed : Followed seen entry engine) (hseen : seen ⊆ seen') :
    Followed seen' entry engine := by
  obtain ⟨source, hrecord, hleads⟩ := hfollowed
  exact ⟨source, hrecord, fun hmodern specifier hspecifier =>
    (hleads hmodern specifier hspecifier).mono (fun _ _ _ hknown => hknown) hseen⟩

/-- The records of a level are fetched, each as it is known. -/
theorem triple_fetchRecords (hfetchable : Fetchable start level fact fails allowed)
    {records : List (RecordRef × Record)} (hpicks : Picks level start records) :
    Triple (fun engine => fact engine ∧
        ∀ entry ∈ records, engine.store.record? entry.1 = some entry.2)
      (records.forM (fun (ref, record) => fetchSource ref record))
      (fun _ engine => fact engine ∧ ∀ entry ∈ records, Sourced entry engine) fails := by
  -- what is done to one record is not done to another
  have hother : ∀ (entry other : RecordRef × Record) (found : Record), entry.1 ≠ other.1 →
      Keeps (fun engine => engine.store.record? other.1 = some found)
        (fetchSource entry.1 entry.2) := by
    intro entry other found hne
    refine .of_after (fun engine hrecord => ?_)
    rcases attempt_fetchSource_cases engine entry.1 entry.2 with
      ⟨_, -, heq⟩ | ⟨-, ⟨_, -, heq⟩ | ⟨_, -, heq⟩⟩ <;> rw [heq]
    · exact hrecord
    · exact hrecord
    · exact (Store.record?_modify_ne hne.symm _).trans hrecord
  refine Triple.forM_apart hpicks.apart (fun entry hentry => ?_)
    (fun entry other hne => hother entry other other.2 hne) (fun entry other hne => ?_)
  · obtain ⟨id, hid, hregistered, hunsettled⟩ := hpicks.entry entry hentry
    refine (hfetchable.fetch id hid entry.1 entry.2 hregistered hunsettled).also
      (fun _ => Sourced entry) (fun engine hpre value hvalue => ?_)
    rcases attempt_fetchSource_cases engine entry.1 entry.2 with
      ⟨source, hsource, heq⟩ | ⟨-, ⟨_, -, heq⟩ | ⟨source, -, heq⟩⟩ <;> rw [heq] at hvalue ⊢
    · refine ⟨source, hpre.2.trans ?_⟩
      rw [← hsource]
    · cases hvalue
    · exact ⟨source, Store.record?_modify_self _ hpre.2⟩
  · refine .of_after (fun engine hsourced => ?_)
    obtain ⟨source, hrecord⟩ := hsourced
    exact ⟨source, (hother other entry _ hne.symm).after hrecord⟩

/-- One specifier of a fetched module is looked for. -/
def follow (id : ModuleId) (known : List ModuleId × List ModuleId) (specifier : String) :
    Attempt (List ModuleId × List ModuleId) := do
  let (resolved, _) ← resolveAndRegister specifier (some id)
  if resolved.id ∈ known.2 then return known
  else return (known.1 ++ [resolved.id], resolved.id :: known.2)

/-- What has been found and seen after some specifiers of a module. -/
structure Sights (seen : List ModuleId) (allowed : ModuleId → Prop) (id : ModuleId)
    (done : List String) (before result : List ModuleId × List ModuleId) (engine : Engine) : Prop where
  spreads : Spreads seen result
  seen : before.2 ⊆ result.2
  allowed : ∀ id ∈ result.1, allowed id
  registered : ∀ id ∈ result.1, ∃ ref, engine.store.lookup? id = some ref
  leads : ∀ specifier ∈ done, engine.Leads id result.2 specifier

theorem triple_follow {id : ModuleId} {known : Engine → Prop} {done : List String}
    {specifier : String} {before : List ModuleId × List ModuleId}
    (hregister : Triple known (resolveAndRegister specifier (some id))
      (fun found engine => known engine ∧ allowed found.1.id) fails)
    (result : List ModuleId × List ModuleId) :
    Triple (fun engine => known engine ∧ Sights seen allowed id done before result engine)
      (follow id result specifier)
      (fun result' engine => known engine ∧
        Sights seen allowed id (done ++ [specifier]) before result' engine) fails := by
  intro engine hpre
  obtain ⟨hknown, hsights⟩ := hpre
  have hanswer := hregister engine hknown
  have hleads : ∀ named ∈ done,
      (engine.attempt (resolveAndRegister specifier (some id))).2.Leads id result.2 named :=
    fun named hnamed => (keeps_leads_register id result.2 named specifier (some id)).after
      (hsights.leads named hnamed)
  have hregistered : ∀ other ∈ result.1, ∃ ref,
      (engine.attempt (resolveAndRegister specifier (some id))).2.store.lookup? other = some ref :=
    fun other hother => (keeps_lookup_register other specifier (some id)).after
      (hsights.registered other hother)
  unfold follow
  rw [Engine.attempt_bind]
  cases hended : engine.attempt (resolveAndRegister specifier (some id)) with
  | mk answer engine' =>
      rw [hended] at hanswer hleads hregistered
      cases answer with
      | error error => exact ⟨nofun, fun _ _ => hanswer.2 error rfl⟩
      | ok found =>
          obtain ⟨resolved, ref⟩ := found
          obtain ⟨hremembered, hlookup⟩ := known_of_resolveAndRegister hended
          obtain ⟨hknown', hmay⟩ := hanswer.1 _ rfl
          dsimp only
          -- a module that has been seen is not found again
          split
          · rename_i hmem
            refine ⟨fun next hnext => ?_, nofun⟩
            obtain rfl := Except.ok.inj hnext
            refine ⟨hknown', hsights.spreads, hsights.seen, hsights.allowed, hregistered,
              fun named hnamed => ?_⟩
            rcases List.mem_append.mp hnamed with hnamed | hnamed
            · exact hleads named hnamed
            · rw [List.mem_singleton.mp hnamed]
              exact ⟨resolved, hremembered, hmem⟩
          · rename_i hnew
            refine ⟨fun next hnext => ?_, nofun⟩
            obtain rfl := Except.ok.inj hnext
            refine ⟨hknown', hsights.spreads.found hnew,
              fun _ hmem => List.mem_cons_of_mem _ (hsights.seen hmem),
              List.forall_mem_append.mpr ⟨hsights.allowed, ?_⟩,
              List.forall_mem_append.mpr ⟨hregistered, ?_⟩, fun named hnamed => ?_⟩
            · rwa [List.forall_mem_singleton]
            · rw [List.forall_mem_singleton]
              exact ⟨ref, hlookup⟩
            · rcases List.mem_append.mp hnamed with hnamed | hnamed
              · exact (hleads named hnamed).mono (fun _ _ _ hknown => hknown)
                  (List.subset_cons_self _ _)
              · rw [List.mem_singleton.mp hnamed]
                exact ⟨resolved, hremembered, List.mem_cons_self⟩

/-- A module that has been fetched is looked at. -/
theorem attempt_nextLevel {entry : RecordRef × Record} {engine : Engine} {source : ModuleSource}
    (hrecord : engine.store.record? entry.1 = some { entry.2 with source? := some source })
    (known : List ModuleId × List ModuleId) :
    engine.attempt (nextLevel entry.1 entry.2 known.1 known.2) =
      match entry.2.format with
      | .legacy => (.ok known, engine)
      | .modern => engine.attempt (source.specifiers.foldlM (follow entry.2.id) known) := by
  unfold nextLevel
  cases entry.2.format with
  | legacy => rfl
  | modern =>
      rw [if_neg (by decide), Engine.attempt_bind, Engine.attempt_get]
      dsimp only
      rw [hrecord]
      rfl

/-- What has been found and seen after some modules of a level. -/
structure Gathers (start : Engine) (seen : List ModuleId) (allowed : ModuleId → Prop)
    (fact : Engine → Prop) (records done : List (RecordRef × Record))
    (result : List ModuleId × List ModuleId) (engine : Engine) : Prop where
  fact : fact engine
  sourced : ∀ entry ∈ records, Sourced entry engine
  spreads : Spreads seen result
  allowed : ∀ id ∈ result.1, allowed id
  registered : ∀ id ∈ result.1, ∃ ref, engine.store.lookup? id = some ref
  followed : ∀ entry ∈ done, Followed result.2 entry engine

/-- What is known of the modules before does not change while the next one is looked at. -/
theorem triple_gathers_register (hfetchable : Fetchable start level fact fails allowed)
    {records done : List (RecordRef × Record)} {id : ModuleId} (hid : id ∈ level)
    (hregistered : start.store.Registered id ref record)
    (hunsettled : record.status.isSettled = false) (hmodern : record.format = .modern)
    {source : ModuleSource} {specifier : String} (hspecifier : specifier ∈ source.specifiers)
    (result : List ModuleId × List ModuleId) :
    Triple (fun engine => Gathers start seen allowed fact records done result engine ∧
        engine.store.record? ref = some { record with source? := some source })
      (resolveAndRegister specifier (some id))
      (fun found engine => (Gathers start seen allowed fact records done result engine ∧
        engine.store.record? ref = some { record with source? := some source }) ∧
        allowed found.1.id) fails := by
  have hone := hfetchable.register id hid ref record source hregistered hunsettled hmodern
    specifier hspecifier
  have hrecord := keeps_record_register ref { record with source? := some source } specifier (some id)
  have hsourced := Keeps.all records (fun other _ => keeps_sourced_register other specifier (some id))
  have hlookup := Keeps.all result.1
    (fun other _ => keeps_lookup_register other specifier (some id))
  have hfollowed := Keeps.all done
    (fun other _ => keeps_followed_register result.2 other specifier (some id))
  intro engine hpre
  obtain ⟨hgathers, hsource⟩ := hpre
  have hanswer := hone engine ⟨hgathers.fact, hsource⟩
  refine ⟨fun found hfound => ?_, hanswer.2⟩
  obtain ⟨hfact, hmay⟩ := hanswer.1 found hfound
  exact ⟨⟨⟨hfact, hsourced.after hgathers.sourced, hgathers.spreads, hgathers.allowed,
    hlookup.after hgathers.registered, hfollowed.after hgathers.followed⟩, hrecord.after hsource⟩,
    hmay⟩

theorem triple_nextLevel (hfetchable : Fetchable start level fact fails allowed)
    {records done : List (RecordRef × Record)} {entry : RecordRef × Record} (hentry : entry ∈ records)
    (hid : entry.2.id ∈ level) (hregistered : start.store.Registered entry.2.id entry.1 entry.2)
    (hunsettled : entry.2.status.isSettled = false) (result : List ModuleId × List ModuleId) :
    Triple (Gathers start seen allowed fact records done result)
      (nextLevel entry.1 entry.2 result.1 result.2)
      (Gathers start seen allowed fact records (done ++ [entry])) fails := by
  intro engine hgathers
  obtain ⟨source, hrecord⟩ := hgathers.sourced entry hentry
  rw [attempt_nextLevel hrecord]
  cases hformat : entry.2.format with
  | legacy =>
      refine ⟨fun next hnext => ?_, nofun⟩
      obtain rfl := Except.ok.inj hnext
      refine ⟨hgathers.fact, hgathers.sourced, hgathers.spreads, hgathers.allowed,
        hgathers.registered, List.forall_mem_append.mpr ⟨hgathers.followed, ?_⟩⟩
      rw [List.forall_mem_singleton]
      refine ⟨source, hrecord, fun hmodern => ?_⟩
      cases hformat.symm.trans hmodern
  | modern =>
      have hfold := Triple.foldlM
        (fun heard value engine => (Gathers start seen allowed fact records done result engine ∧
            engine.store.record? entry.1 = some { entry.2 with source? := some source }) ∧
          Sights seen allowed entry.2.id heard result value engine)
        source.specifiers result (fun heard specifier hearly value =>
          triple_follow (triple_gathers_register hfetchable hid hregistered hunsettled hformat
            (hearly.subset (by simp)) result) value)
      have hstart : Sights seen allowed entry.2.id [] result result engine :=
        ⟨hgathers.spreads, List.Subset.refl _, hgathers.allowed, hgathers.registered, nofun⟩
      obtain ⟨hok, hfails⟩ := hfold engine ⟨⟨hgathers, hrecord⟩, hstart⟩
      refine ⟨fun next hnext => ?_, hfails⟩
      obtain ⟨⟨hgathers', hrecord'⟩, hsights⟩ := hok next hnext
      refine ⟨hgathers'.fact, hgathers'.sourced, hsights.spreads, hsights.allowed,
        hsights.registered, List.forall_mem_append.mpr ⟨fun other hother =>
          (hgathers'.followed other hother).mono hsights.seen, ?_⟩⟩
      rw [List.forall_mem_singleton]
      exact ⟨source, hrecord', fun _ => hsights.leads⟩

/-- What a level gives: the modules of the next one, registered and allowed; those of the level itself
have been fetched. -/
structure LevelEnds (start : Engine) (level seen : List ModuleId) (fact : Engine → Prop)
    (allowed : ModuleId → Prop) (result : List ModuleId × List ModuleId) (engine : Engine) :
    Prop where
  fact : fact engine
  spreads : Spreads seen result
  allowed : ∀ id ∈ result.1, allowed id
  registered : ∀ id ∈ result.1, ∃ ref, engine.store.lookup? id = some ref
  gathered : ∀ id ∈ level, ∀ ref, start.store.lookup? id = some ref → engine.Gathered result.2 id

/-- **One level.**  Its modules are settled or have been fetched, and what they name has been seen. -/
theorem triple_fetchLevel (hfetchable : Fetchable start level fact fails allowed)
    (hfact : fact start) (hnamed : start.store.Named) (hlevel : level.Nodup) (hseen : seen.Nodup) :
    Triple (· = start) (fetchLevel level seen) (LevelEnds start level seen fact allowed) fails := by
  obtain ⟨records, hunsettled, hpicks⟩ := attempt_unsettled hnamed hlevel
  have hentry : ∀ entry ∈ records, entry.2.id ∈ level ∧
      start.store.Registered entry.2.id entry.1 entry.2 ∧ entry.2.status.isSettled = false := by
    intro entry hmem
    obtain ⟨id, hid, hregistered, hopen⟩ := hpicks.entry entry hmem
    obtain ⟨record, hrecord, hname⟩ := hnamed id entry.1 hregistered.lookup
    obtain rfl := Option.some.inj (hregistered.record.symm.trans hrecord)
    rw [hname]
    exact ⟨hid, hregistered, hopen⟩
  have hpicked : Triple (· = start) (unsettled level)
      (fun found engine => found = records ∧ fact engine ∧
        ∀ entry ∈ records, engine.store.record? entry.1 = some entry.2) fails := by
    rintro _ rfl
    rw [hunsettled]
    refine ⟨fun found hfound => ⟨(Except.ok.inj hfound).symm, hfact, ?_⟩, nofun⟩
    exact fun entry hmem => (hentry entry hmem).2.1.record
  unfold fetchLevel
  refine hpicked.bind (fun found => ?_)
  by_cases hfound : found = records
  swap
  · exact fun _ hpre => absurd hpre.1 hfound
  subst hfound
  refine ((triple_fetchRecords hfetchable hpicks).weaken (fun _ hpre => hpre.2)).bind (fun _ => ?_)
  have hfold := Triple.foldlM (Gathers start seen allowed fact found) found ([], seen)
    (f := fun (known, seen) (ref, record) => nextLevel ref record known seen)
    (fun done entry hearly value => by
      have hmem : entry ∈ found := hearly.subset (by simp)
      obtain ⟨hid, hregistered, hopen⟩ := hentry entry hmem
      exact triple_nextLevel hfetchable hmem hid hregistered hopen value)
  refine hfold.imp (fun engine hpre => ?_) (fun result engine hgathers => ?_) (fun _ hfails => hfails)
  · exact ⟨hpre.1, hpre.2, .start hseen, fun _ hmem => absurd hmem List.not_mem_nil,
      fun _ hmem => absurd hmem List.not_mem_nil, fun _ hmem => absurd hmem List.not_mem_nil⟩
  refine ⟨hgathers.fact, hgathers.spreads, hgathers.allowed, hgathers.registered,
    fun id hid ref hlookup => ?_⟩
  obtain ⟨record, hrecord, hname⟩ := hnamed id ref hlookup
  have henriched := hfetchable.enriched engine hgathers.fact
  have hlookup' := henriched.retains.lookup id ref hlookup
  cases hopen : record.status.isSettled with
  | true =>
      obtain ⟨record', hrecord', hinformed⟩ := henriched.store.enriches.record ref record hrecord
      exact ⟨ref, record', ⟨hlookup', hrecord'⟩, .inl (hinformed.status ▸ hopen)⟩
  | false =>
      have hmem := hpicks.complete id hid ref record ⟨hlookup, hrecord⟩ hopen
      obtain ⟨source, hrecord', hleads⟩ := hgathers.followed _ hmem
      exact ⟨ref, _, ⟨hlookup', hrecord'⟩, .inr ⟨source, rfl, hname ▸ hleads⟩⟩

end Level

/-! ## Fetching and registering -/

section Steps

variable {start : Engine} {level seen : List ModuleId} {fact fails : Engine → Prop}
  {allowed : ModuleId → Prop}

/-- A source that is fetched for a module as it is known is learnt. -/
theorem enriched_fetchSource {engine : Engine} {ref : RecordRef} {record : Record}
    (henriched : start.Enriched engine) (hrecord : engine.store.record? ref = some record) :
    start.Enriched (engine.attempt (fetchSource ref record)).2 := by
  rcases attempt_fetchSource_cases engine ref record with
    ⟨_, -, heq⟩ | ⟨hnew, ⟨_, -, heq⟩ | ⟨source, -, heq⟩⟩ <;> rw [heq]
  · exact henriched
  · exact henriched
  · exact henriched.modify _ (.source hrecord hnew source)

/-- A level is fetched by learning alone. -/
theorem Fetchable.of_steps
    (hfetch : ∀ id ∈ level, ∀ ref record, start.store.Registered id ref record →
      record.status.isSettled = false → Triple
        (fun engine => (fact engine ∧ start.Enriched engine) ∧
          engine.store.record? ref = some record)
        (fetchSource ref record) (fun _ => fact) fails)
    (hregister : ∀ id ∈ level, ∀ ref record source, start.store.Registered id ref record →
      record.status.isSettled = false → record.format = .modern →
      ∀ specifier ∈ source.specifiers, Triple
        (fun engine => (fact engine ∧ start.Enriched engine) ∧
          engine.store.record? ref = some { record with source? := some source })
        (resolveAndRegister specifier (some id))
        (fun found engine => fact engine ∧ allowed found.1.id) fails) :
    Fetchable start level (fun engine => fact engine ∧ start.Enriched engine) fails allowed where
  enriched _ hfact := hfact.2
  fetch id hid ref record hregistered hunsettled := by
    refine ((hfetch id hid ref record hregistered hunsettled).also
      (fun _ engine => start.Enriched engine) (fun engine hpre _ _ => ?_))
    exact enriched_fetchSource hpre.1.2 hpre.2
  register id hid ref record source hregistered hunsettled hmodern specifier hspecifier := by
    refine ((hregister id hid ref record source hregistered hunsettled hmodern specifier
      hspecifier).also (fun _ engine => start.Enriched engine) (fun engine hpre _ _ =>
        hpre.1.2.register specifier (some id))).imp (fun _ hpre => hpre) ?_ (fun _ hfails => hfails)
    exact fun _ _ hpost => ⟨⟨hpost.1.1, hpost.2⟩, hpost.1.2⟩

end Steps

end Attempt

namespace Engine

open Attempt

/-- A fact about engines that is upheld by fetching a source for a module as it is known. -/
structure TaughtApart (fact : Engine → Prop) : Prop extends Taught fact where
  named : ∀ engine, fact engine → engine.store.Named
  fetch : ∀ ref record, Triple (fun engine => fact engine ∧ engine.store.record? ref = some record)
    (fetchSource ref record) (fun _ => fact) fact

namespace TaughtApart

variable {fact : Engine → Prop} (htaught : TaughtApart fact)
include htaught

theorem fetchable (start : Engine) (level : List ModuleId) :
    Fetchable start level (fun engine => fact engine ∧ start.Enriched engine) fact
      (fun _ => True) := by
  refine .of_steps (fun id _ ref record _ _ => ?_)
    (fun id _ ref record source _ _ _ specifier _ => ?_)
  · exact (htaught.fetch ref record).weaken (fun _ hpre => ⟨hpre.1.1, hpre.2⟩)
  · exact (htaught.register specifier (some id)).imp (fun _ hpre => hpre.1.1)
      (fun _ _ hpost => ⟨hpost, trivial⟩) (fun _ hfails => hfails)

/-- No module stands twice on a level, so each is fetched as it is known then. -/
theorem keeps_prefetchLevels (fuel : Nat) {level seen : List ModuleId} (hlevel : level.Nodup)
    (hseen : seen.Nodup) : Keeps fact (prefetchLevels fuel level seen) := by
  -- on the number of levels
  induction fuel generalizing level seen with
  | zero => exact .pure (fun _ hfact => hfact)
  | succ fuel ih =>
      refine .of_after (fun engine hfact => ?_)
      by_cases hempty : level = []
      · rw [hempty, attempt_prefetchLevels_nil]
        exact hfact
      obtain ⟨hok, hfails⟩ := triple_fetchLevel (htaught.fetchable engine level)
        ⟨hfact, .refl engine⟩ (htaught.named engine hfact) hlevel hseen engine rfl
      rw [attempt_prefetchLevels_succ engine fuel seen hempty]
      generalize engine.attempt (fetchLevel level seen) = ended at hok hfails
      obtain ⟨error | ⟨next, seen'⟩, engine'⟩ := ended
      · exact hfails error rfl
      · have hends := hok _ rfl
        exact (ih hends.spreads.nodup_found hends.spreads.nodup).after hends.fact.1

theorem keeps_prefetch (root : ModuleId) : Keeps fact (prefetch root) := by
  unfold prefetch
  refine .get_bind (fun engine hfact => (htaught.keeps_prefetchLevels _
    (List.nodup_singleton root) (List.nodup_singleton root)).weaken ?_)
  rintro _ rfl
  exact hfact

end TaughtApart

end Engine

/-! ## Level after level -/

namespace Attempt

/-- The levels that are fetched from one on.  The modules that have been seen are given in the end. -/
inductive Fetches : List ModuleId → List ModuleId → Engine →
    Except ModuleError (List ModuleId) × Engine → Prop
  /-- Nothing new has been found. -/
  | done {seen engine} : Fetches [] seen engine (.ok seen, engine)
  /-- A level that cannot be fetched ends it all. -/
  | fault {level seen engine engine' error} (hlevel : level ≠ [])
      (hfetch : engine.attempt (fetchLevel level seen) = (.error error, engine')) :
      Fetches level seen engine (.error error, engine')
  /-- What a level names is the next level. -/
  | next {level next seen seen' engine engine' ended} (hlevel : level ≠ [])
      (hfetch : engine.attempt (fetchLevel level seen) = (.ok (next, seen'), engine'))
      (hrest : Fetches next seen' engine' ended) : Fetches level seen engine ended

/-- The fetching of all that a root leads to. -/
def Prefetches (root : ModuleId) (engine : Engine) (ended : Except ModuleError Unit × Engine) : Prop :=
  ∃ found, Fetches [root] [root] engine found ∧ ended = (found.1.map (fun _ => ()), found.2)

/-- What is known between two levels: all that has been seen is registered, and has been fetched unless
it is still to come. -/
structure Between (level seen : List ModuleId) (engine : Engine) : Prop where
  named : engine.store.Named
  distinct : level.Nodup
  once : seen.Nodup
  registered : ∀ id ∈ level, ∃ ref, engine.store.lookup? id = some ref
  gathered : ∀ id ∈ seen, id ∈ level ∨ engine.Gathered seen id

variable {level seen : List ModuleId} {engine : Engine} {fact fails : Engine → Prop}
  {allowed : ModuleId → Prop}

theorem between_root (hnamed : engine.store.Named) {root : ModuleId} {ref : RecordRef}
    (hlookup : engine.store.lookup? root = some ref) : Between [root] [root] engine where
  named := hnamed
  distinct := List.nodup_singleton root
  once := List.nodup_singleton root
  registered id hid := ⟨ref, by rwa [List.mem_singleton.mp hid]⟩
  gathered _ hid := .inl hid

/-- From one level to the next. -/
theorem LevelEnds.between {result : List ModuleId × List ModuleId} {engine' : Engine}
    (hends : LevelEnds engine level seen
      (fun engine' => fact engine' ∧ engine.Enriched engine') allowed result engine')
    (hbetween : Between level seen engine) : Between result.1 result.2 engine' where
  named := hends.fact.2.store.named hbetween.named
  distinct := hends.spreads.nodup_found
  once := hends.spreads.nodup
  registered := hends.registered
  gathered id hid := by
    rcases hends.spreads.mem_cases hid with hfound | hseen
    · exact .inl hfound
    rcases hbetween.gathered id hseen with hlevel | hgathered
    · obtain ⟨ref, hlookup⟩ := hbetween.registered id hlevel
      exact .inr (hends.gathered id hlevel ref hlookup)
    · exact .inr (hgathered.mono hends.fact.2 hends.spreads.subset)

section Levels

variable (hfetchable : ∀ (start : Engine) (level : List ModuleId), fact start →
  (∀ id ∈ level, allowed id) → Fetchable start level
    (fun engine => fact engine ∧ start.Enriched engine) fails allowed)
include hfetchable

/-- What every level upholds holds at the end.  Then all that has been seen has been fetched. -/
theorem Fetches.ends {ended : Except ModuleError (List ModuleId) × Engine}
    (hfetches : Fetches level seen engine ended) (hfact : fact engine)
    (hbetween : Between level seen engine) (hallowed : ∀ id ∈ level, allowed id) :
    (∀ all, ended.1 = .ok all → fact ended.2 ∧ engine.Enriched ended.2 ∧ seen ⊆ all ∧
      (∀ id ∈ all, id ∈ seen ∨ allowed id) ∧ ∀ id ∈ all, ended.2.Gathered all id) ∧
    ∀ error, ended.1 = .error error → fails ended.2 := by
  induction hfetches with
  | done =>
      refine ⟨fun all hall => ?_, nofun⟩
      obtain rfl := Except.ok.inj hall
      exact ⟨hfact, .refl _, List.Subset.refl _, fun _ hid => .inl hid,
        fun id hid => (hbetween.gathered id hid).resolve_left List.not_mem_nil⟩
  | fault hlevel hfetch =>
      refine ⟨nofun, fun error _ => ?_⟩
      have hends := triple_fetchLevel (hfetchable _ _ hfact hallowed) ⟨hfact, .refl _⟩
        hbetween.named hbetween.distinct hbetween.once _ rfl
      rw [hfetch] at hends
      exact hends.2 _ rfl
  | next hlevel hfetch hrest ih =>
      have hends := triple_fetchLevel (hfetchable _ _ hfact hallowed) ⟨hfact, .refl _⟩
        hbetween.named hbetween.distinct hbetween.once _ rfl
      rw [hfetch] at hends
      have hends := hends.1 _ rfl
      obtain ⟨hok, hfails⟩ := ih hends.fact.1 (hends.between hbetween) hends.allowed
      refine ⟨fun all hall => ?_, hfails⟩
      obtain ⟨hfact', henriched, hsub, hmem, hgathered⟩ := hok all hall
      refine ⟨hfact', hends.fact.2.trans henriched,
        fun _ hid => hsub (hends.spreads.subset hid), fun id hid => ?_, hgathered⟩
      rcases hmem id hid with hseen | hmay
      · exact (hends.spreads.mem_cases hseen).symm.imp (fun h => h) (hends.allowed id)
      · exact .inr hmay

end Levels

/-- Over a host with finitely many modules no others are found. -/
theorem fetchable_fenced (config : Config) (host : Host) (ids : List ModuleId) (start : Engine)
    (level : List ModuleId) : Fetchable start level
      (fun engine => engine.Fenced config host ids ∧ start.Enriched engine)
      (Engine.Fenced config host ids) (· ∈ ids) := by
  refine .of_steps (fun id _ ref record _ _ => ?_)
    (fun id _ ref record source _ _ _ specifier _ => ?_)
  · exact (Engine.keeps_fetchSource_of_same Engine.fenced_of_same ref record).weaken
      (fun _ hpre => hpre.1.1)
  · have hkept := Engine.keeps_fenced_register config host ids specifier (some id)
    intro engine hpre
    have hfenced := hpre.1.1
    refine ⟨fun found hfound => ⟨hkept.after hfenced, ?_⟩, fun _ _ => hkept.after hfenced⟩
    rcases engine.attempt_resolveAndRegister_cases specifier (some id) with
      ⟨error, -, -, heq⟩ | ⟨resolved, hanswers, heq⟩ <;> rw [heq] at hfound
    · cases hfound
    · obtain rfl := Except.ok.inj hfound
      rw [hfenced.settings, hfenced.place] at hanswers
      exact hfenced.answer hanswers

/-- **Fetching level after level ends** before the number it begins with is used up: each level that is
not empty has at least one module that has not been seen. -/
theorem fetches_prefetchLevels {config : Config} {host : Host} {ids : List ModuleId} (fuel : Nat)
    (hfenced : engine.Fenced config host ids) (hbetween : Between level seen engine)
    (hids : ∀ id ∈ seen, id ∈ ids) (hlevel : ∀ id ∈ level, id ∈ ids)
    (hfuel : level ≠ [] → ids.length < fuel + seen.length) :
    ∃ ended, Fetches level seen engine ended ∧
      engine.attempt (prefetchLevels fuel level seen) = (ended.1.map (fun _ => ()), ended.2) := by
  -- on the fuel, since with each level more modules have been seen
  induction fuel generalizing level seen engine with
  | zero =>
      have hlength := (List.subperm_of_subset hbetween.once hids).length_le
      have hempty : level = [] := by
        by_contra hne
        have := hfuel hne
        omega
      subst hempty
      exact ⟨_, .done, attempt_prefetchLevels_nil engine 0 seen⟩
  | succ fuel ih =>
      by_cases hempty : level = []
      · subst hempty
        exact ⟨_, .done, attempt_prefetchLevels_nil engine (fuel + 1) seen⟩
      have hends := triple_fetchLevel (fetchable_fenced config host ids engine level)
        ⟨hfenced, .refl _⟩ hbetween.named hbetween.distinct hbetween.once _ rfl
      rw [attempt_prefetchLevels_succ engine fuel seen hempty]
      cases hfetch : engine.attempt (fetchLevel level seen) with
      | mk result engine' =>
          cases result with
          | error error => exact ⟨_, .fault hempty hfetch, rfl⟩
          | ok found =>
              obtain ⟨next, seen'⟩ := found
              rw [hfetch] at hends
              have hends := hends.1 _ rfl
              have hspreads := hends.spreads
              have hmem : ∀ id ∈ seen', id ∈ ids := fun id hid =>
                (hspreads.mem_cases hid).elim (hends.allowed id) (hids id)
              have hless : next ≠ [] → ids.length < fuel + seen'.length := by
                intro hnext
                have hlength : seen'.length = next.length + seen.length := hspreads.length
                have hpositive := List.length_pos_iff.mpr hnext
                have := hfuel hempty
                omega
              obtain ⟨ended, hfetches, hended⟩ :=
                ih hends.fact.1 (hends.between hbetween) hmem hends.allowed hless
              exact ⟨ended, .next hempty hfetch hfetches, hended⟩

/-- **Fetching ahead ends**, over every host with finitely many modules. -/
theorem fetches_prefetch {ids : List ModuleId}
    (hconfines : engine.config.Confines engine.host ids) (hnamed : engine.store.Named)
    {root : ModuleId} {ref : RecordRef} (hlookup : engine.store.lookup? root = some ref) :
    Prefetches root engine (engine.attempt (prefetch root)) := by
  obtain ⟨all, hlength, hfenced⟩ := engine.exists_fenced hconfines
  have hroot : ∀ id ∈ [root], id ∈ all := by
    rw [List.forall_mem_singleton]
    exact hfenced.registered root ref hlookup
  unfold prefetch
  rw [Engine.attempt_bind, Engine.attempt_get]
  refine fetches_prefetchLevels _ hfenced (between_root hnamed hlookup) hroot hroot (fun _ => ?_)
  rw [List.length_singleton]
  omega

end Attempt

end Linkage
