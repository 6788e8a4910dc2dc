import Linkage.Proofs.Runs.Coherence

/-!
# Linked modules lead only to linked modules

A walk takes settled modules for leaves and linking takes only what is not linked, so both rely on
everything behind a linked module being linked already.

* `Store.Closed` : the invariant.
* `Change.closed` : one change.
* `Machine.linked_modules_are_closed` : every run, and what the engine relies on the invariant for.
-/

namespace Linkage

namespace Store

/-- A module is there for those that import it: analyzed, and linked unless it is a legacy one. -/
def Ready (store : Store) (id : ModuleId) : Prop :=
  ∃ ref record, store.Registered id ref record ∧ record.analysis?.isSome ∧
    (record.format = .modern → record.status.hasLinked = true)

/-- Every record is coherent, what is asked for is registered, and what a linked module asks for is
ready. -/
structure Closed (store : Store) : Prop where
  coherent : ∀ ref record, store.record? ref = some record → store.Coherent record
  found : store.RequestsFound
  ready : ∀ id ref record, store.Registered id ref record → record.format = .modern →
    record.status.hasLinked = true → ∀ dependency ∈ record.requested, store.Ready dependency

variable {store store' : Store}

theorem Ready.advances {id : ModuleId} (hready : store.Ready id) (hstore : store.Advances store')
    (hlookup : ∀ ref, store.lookup? id = some ref → store'.lookup? id = some ref) :
    store'.Ready id := by
  obtain ⟨ref, record, hregistered, hanalyzed, hlinked⟩ := hready
  obtain ⟨record', hrecord', hadvances⟩ := hstore.record ref record hregistered.record
  refine ⟨ref, record', ⟨hlookup ref hregistered.lookup, hrecord'⟩, ?_, ?_⟩
  · rwa [hadvances.analyzed hanalyzed]
  · rw [hadvances.format]
    exact fun hmodern => hadvances.linked (hlinked hmodern)

/-- A module that has been linked is ready. -/
theorem Closed.ready_of_hasLinked (hclosed : store.Closed) {id : ModuleId} {ref : RecordRef}
    {record : Record} (hregistered : store.Registered id ref record)
    (hlinked : record.status.hasLinked = true) : store.Ready id :=
  ⟨ref, record, hregistered,
    ((hclosed.coherent ref record hregistered.record).linked hlinked).analyzed, fun _ => hlinked⟩

/-- After all pending modules of an order are linked, every module of the order is ready. -/
theorem ready_of_linksAll {order : List ModuleId} (hspans : store.Spans order)
    (hpossible : ∀ ref record, store.record? ref = some record → record.Possible)
    (hcoherent : ∀ ref record, store.record? ref = some record → store.Coherent record)
    (hlinks : LinksAll (store.pendingLinks order) store store') {id : ModuleId} (hid : id ∈ order) :
    store'.Ready id := by
  obtain ⟨ref, record, hregistered, hleads⟩ := hspans.leads id hid
  have hlookup : store'.lookup? id = some ref := by
    rw [hlinks.rebinds.lookup, hregistered.lookup]
  have hanalyzed : record.analysis?.isSome := by
    rcases hleads with hsettled | ⟨hanalyzed, -⟩
    · refine ((hcoherent ref record hregistered.record).linked ?_).analyzed
      exact Status.hasLinked_of_isSettled hsettled
    · exact hanalyzed
  by_cases hpending : ref ∈ store.pendingLinks order
  · obtain ⟨environment, hrecord', -⟩ := hlinks.linked ref hpending record hregistered.record
    exact ⟨ref, _, ⟨hlookup, hrecord'⟩, hanalyzed, fun _ => rfl⟩
  · refine ⟨ref, record, ⟨hlookup, ?_⟩, hanalyzed, fun hmodern => ?_⟩
    · rw [hlinks.rebinds.other ref hpending, hregistered.record]
    · -- a listed modern module that is not taken is not unlinked, and none is being linked
      have hunlinked : record.status ≠ .unlinked := fun hunlinked =>
        hpending (mem_pendingLinks.mpr ⟨id, hid, record, hregistered, hmodern, hunlinked⟩)
      have hlinking := (hpossible ref record hregistered.record).1
      cases hstatus : record.status <;> simp_all [Status.hasLinked]

end Store

namespace Change

variable {stage stage' : Stage} {marks : List Mark}

/-- A record was there with its analysis, or is newly analyzed, or is fresh. -/
theorem record_back (hchange : Change stage marks stage') {ref : RecordRef} {record' : Record}
    (hrecord' : stage'.store.record? ref = some record') :
    (∃ record, stage.store.record? ref = some record ∧ record'.analysis? = record.analysis?) ∨
      (∀ id ∈ record'.requested, (stage.store.lookup? id).isSome) := by
  -- bodies that begin or end leave the analysis alone
  have hmodify : ∀ {changed : RecordRef} {f : Record → Record},
      (∀ record, (f record).analysis? = record.analysis?) →
      (stage.store.modify changed f).record? ref = some record' →
      ∃ record, stage.store.record? ref = some record ∧ record'.analysis? = record.analysis? := by
    intro changed f hsame hfound
    rw [Store.record?_modify] at hfound
    split at hfound
    · obtain ⟨record, hrecord, rfl⟩ := Option.map_eq_some_iff.mp hfound
      exact ⟨record, hrecord, hsame record⟩
    · exact ⟨record', hfound, rfl⟩
  cases hchange with
  | touch htouch =>
      cases hanalysis : record'.analysis? with
      | none => exact .inr (fun id hid => by simp [Record.requested, hanalysis] at hid)
      | some analysis =>
          rcases htouch.record_back hrecord' with ⟨record, hrecord, -⟩ | ⟨-, id, value?, rfl⟩
          · rcases htouch.analysis_back hrecord hrecord' hanalysis with hbefore | ⟨-, -, -, hknown⟩
            · exact .inl ⟨record, hrecord, hbefore.symm⟩
            · refine .inr (fun id hid => hknown id ?_)
              rwa [Record.requested, hanalysis] at hid
          · cases hanalysis
  | declare href hnew howner =>
      rw [Store.record?_declare] at hrecord'
      split at hrecord'
      · obtain ⟨record, hrecord, rfl⟩ := Option.map_eq_some_iff.mp hrecord'
        exact .inl ⟨record, hrecord, rfl⟩
      · exact .inl ⟨record', hrecord', rfl⟩
  | link hspans =>
      rename_i store order
      cases hrecord : store.record? ref with
      | none => simp [(Store.rebinds_link store order).none ref hrecord] at hrecord'
      | some record =>
          obtain ⟨status, environment, hfound⟩ :=
            (Store.rebinds_link store order).record ref record hrecord
          obtain rfl := Option.some.inj (hfound.symm.trans hrecord')
          exact .inl ⟨record, rfl, rfl⟩
  | beginModern | beginLegacy | finish | fail =>
      refine .inl (hmodify (fun _ => ?_) hrecord')
      rfl
  | await | resume | absent | abandon | reset => exact .inl ⟨record', hrecord', rfl⟩

/-- A modern module that was not linked and now is has been linked with all of an order. -/
theorem newly_linked (hchange : Change stage marks stage') (hliving : stage.Living)
    {ref : RecordRef} (hbefore : (stage.store.statuses ref).hasLinked = false)
    (hafter : (stage'.store.statuses ref).hasLinked = true) :
    (∃ order, stage.store.Spans order ∧ stage'.store = (stage.store.link order).2 ∧
      ref ∈ stage.store.pendingLinks order ∧ (stage.store.link order).1 = .ok () ∧
      Store.LinksAll (stage.store.pendingLinks order) stage.store stage'.store) ∨
      ∃ record, stage.store.record? ref = some record ∧ record.format = .legacy := by
  have hstatuses := hchange.statuses hliving
  -- a change that writes one status links no other module
  have hwrite : ∀ {written : RecordRef} {status : Status},
      stage'.store.statuses = stage.store.statuses.write written status → ref = written := by
    intro written status hwritten
    by_contra hne
    rw [hwritten, Statuses.write_ne _ hne, hbefore] at hafter
    cases hafter
  cases hchange with
  | touch | declare | await | resume | absent | abandon | reset =>
      rw [hstatuses] at hafter
      exact absurd (hbefore.symm.trans hafter) (by decide)
  | link hspans =>
      rename_i store order
      have hnodup := Store.nodup_pendingLinks hliving.named hspans.nodup
      by_cases hpending : ref ∈ store.pendingLinks order
      · refine .inl ⟨order, hspans, rfl, hpending, ?_⟩
        rcases Store.link_cases hnodup with ⟨_, -, hok, hlinks⟩ | ⟨_, -, -, hlinks⟩
        · exact ⟨hok, hlinks⟩
        · obtain ⟨_, -, record, hregistered, -⟩ := Store.mem_pendingLinks.mp hpending
          have hundone := hlinks.undone ref hpending record hregistered.record
          rw [Store.statuses_of_record hundone] at hafter
          cases hafter
      · have hsame : (store.link order).2.statuses ref = store.statuses ref := by
          rw [Store.statuses, (Store.rebinds_link store order).other ref hpending]
          rfl
        exact absurd (hbefore.symm.trans ((congrArg _ hsame).symm.trans hafter)) (by decide)
  | beginModern hrecord hmodern hlinked hsource =>
      obtain rfl := hwrite hstatuses
      rw [Store.statuses_of_record hrecord, hlinked] at hbefore
      cases hbefore
  | beginLegacy hrecord hlegacy hstatus hsettled hanalysis hsource =>
      obtain rfl := hwrite hstatuses
      exact .inr ⟨_, hrecord, hlegacy⟩
  | finish | fail =>
      obtain rfl := hwrite hstatuses
      rw [hliving.running _ List.mem_cons_self] at hbefore
      cases hbefore

/-- A module was registered with its record, or it is now with a fresh one. -/
theorem registered_back (hchange : Change stage marks stage') (hliving : stage.Living)
    {id : ModuleId} {ref : RecordRef} {record' : Record}
    (hregistered : stage'.store.Registered id ref record') :
    (∃ record, stage.store.Registered id ref record) ∨ record'.IsFresh := by
  have hback : stage.store.lookup? id = some ref → ∃ record, stage.store.Registered id ref record :=
    fun hlookup => (hliving.named id ref hlookup).imp (fun _ hfound => ⟨hlookup, hfound.1⟩)
  have hlookup := hregistered.lookup
  cases hchange with
  | touch htouch =>
      rcases htouch.lookup_back hlookup with hbefore | ⟨record, hrecord, -, hfresh⟩
      · exact .inl (hback hbefore)
      · exact .inr (Option.some.inj (hrecord.symm.trans hregistered.record) ▸ hfresh)
  | link hspans =>
      rw [(Store.rebinds_link _ _).lookup] at hlookup
      exact .inl (hback hlookup)
  | reset => cases hlookup
  | _ => exact .inl (hback hlookup)

/-- A linked modern module was linked before, and no module has been forgotten; or it has been
linked now, with all of an order. -/
theorem linked_back (hchange : Change stage marks stage') (hliving : stage.Living) {id : ModuleId}
    {ref : RecordRef} {record' : Record} (hregistered : stage'.store.Registered id ref record')
    (hmodern : record'.format = .modern) (hlinked : record'.status.hasLinked = true) :
    ∃ record, stage.store.Registered id ref record ∧ record.format = .modern ∧
      record.Advances record' ∧
      ((record.status.hasLinked = true ∧ ∀ id ref, stage.store.lookup? id = some ref →
          stage'.store.lookup? id = some ref) ∨
        ∃ order, stage.store.Spans order ∧ stage'.store = (stage.store.link order).2 ∧
          ref ∈ stage.store.pendingLinks order ∧ (stage.store.link order).1 = .ok () ∧
          Store.LinksAll (stage.store.pendingLinks order) stage.store stage'.store) := by
  rcases hchange.registered_back hliving hregistered with ⟨record, hbefore⟩ | ⟨_, _, rfl⟩
  · obtain ⟨found, hfound, hadvances⟩ := (hchange.advances hliving).record ref record hbefore.record
    obtain rfl := Option.some.inj (hfound.symm.trans hregistered.record)
    have hmodern' : record.format = .modern := hadvances.format ▸ hmodern
    refine ⟨record, hbefore, hmodern', hadvances, ?_⟩
    cases hstatus : record.status.hasLinked with
    | true =>
        refine .inl ⟨rfl, ?_⟩
        rcases hchange.lookup_or_reset with hkept | ⟨-, hnone⟩
        · exact hkept
        · have hlookup := hregistered.lookup
          rw [hnone id] at hlookup
          cases hlookup
    | false =>
        rcases hchange.newly_linked hliving
            (by rwa [Store.statuses_of_record hbefore.record])
            (by rwa [Store.statuses_of_record hfound]) with hnew | ⟨legacy, hlegacy, hformat⟩
        · exact .inr hnew
        · obtain rfl := Option.some.inj (hlegacy.symm.trans hbefore.record)
          rw [hmodern'] at hformat
          cases hformat
  · cases hlinked

/-- What an analyzed module asks for is registered. -/
theorem requestsFound (hchange : Change stage marks stage') (hliving : stage.Living)
    (hfound : stage.store.RequestsFound) : stage'.store.RequestsFound := by
  intro id ref record' hregistered dependency hdependency
  rcases hchange.lookup_or_reset with hkept | ⟨-, hnone⟩
  · have hbefore : ∃ ref, stage.store.lookup? dependency = some ref := by
      rcases hchange.record_back hregistered.record with ⟨record, hrecord, hsame⟩ | hknown
      · rcases hchange.registered_back hliving hregistered with ⟨found, hbefore⟩ | ⟨_, _, rfl⟩
        · obtain rfl := Option.some.inj (hbefore.record.symm.trans hrecord)
          rw [Record.requested, hsame] at hdependency
          obtain ⟨_, hdependency'⟩ := Option.isSome_iff_exists.mp
            (hfound id ref found hbefore dependency hdependency)
          obtain ⟨ref', hregistered'⟩ := Store.exists_registered_of_find hdependency'
          exact ⟨ref', hregistered'.lookup⟩
        · cases hdependency
      · exact Option.isSome_iff_exists.mp (hknown dependency hdependency)
    obtain ⟨ref', hlookup⟩ := hbefore
    have hlookup' := hkept dependency ref' hlookup
    obtain ⟨record, hrecord, -⟩ := hchange.named hliving.named dependency ref' hlookup'
    rw [Store.Registered.find ⟨hlookup', hrecord⟩]
    rfl
  · have hlookup := hregistered.lookup
    rw [hnone id] at hlookup
    cases hlookup

/-- What a linked module asks for is ready. -/
theorem ready (hchange : Change stage marks stage') (hliving : stage.Living)
    (hclosed : stage.store.Closed) {id : ModuleId} {ref : RecordRef} {record' : Record}
    (hregistered : stage'.store.Registered id ref record') (hmodern : record'.format = .modern)
    (hlinked : record'.status.hasLinked = true) {dependency : ModuleId}
    (hdependency : dependency ∈ record'.requested) : stage'.store.Ready dependency := by
  obtain ⟨record, hbefore, hmodern', hadvances, hcases⟩ :=
    hchange.linked_back hliving hregistered hmodern hlinked
  -- a module that was linked leads where it led; one that is now was linked with its order
  rcases hcases with ⟨hlinked', hkept⟩ | ⟨order, hspans, -, hpending, -, hlinks⟩
  · have hcoherent := hclosed.coherent ref record hbefore.record
    rw [Record.requested, hadvances.analyzed (hcoherent.linked hlinked').analyzed] at hdependency
    exact (hclosed.ready id ref record hbefore hmodern' hlinked' dependency hdependency).advances
      (hchange.advances hliving) (hkept dependency)
  · obtain ⟨id', hid, taken, htaken, -, hunlinked⟩ := Store.mem_pendingLinks.mp hpending
    obtain rfl := Option.some.inj (htaken.record.symm.trans hbefore.record)
    obtain rfl := hliving.named.unique hbefore.lookup htaken.lookup
    -- the module is not settled, so the order lists what it asks for
    have hsub : taken.dependencies ⊆ order := by
      obtain ⟨_, _, hlisted, hleads⟩ := hspans.leads id' hid
      obtain ⟨-, rfl⟩ := htaken.unique hlisted
      rcases hleads with hsettled | ⟨-, hsub⟩
      · rw [hunlinked] at hsettled
        cases hsettled
      · rwa [List.append_nil] at hsub
    have hrequested : record'.requested = taken.dependencies := by
      obtain ⟨_, hended, -⟩ := hlinks.linked ref hpending taken hbefore.record
      obtain rfl := Option.some.inj (hended.symm.trans hregistered.record)
      rw [Record.dependencies, hmodern']
      rfl
    exact Store.ready_of_linksAll hspans hliving.possible hclosed.coherent hlinks
      (hsub (hrequested ▸ hdependency))

theorem closed (hchange : Change stage marks stage') (hliving : stage.Living)
    (hclosed : stage.store.Closed) : stage'.store.Closed where
  coherent := hchange.coherent hliving hclosed.coherent
  found := hchange.requestsFound hliving hclosed.found
  ready _ _ _ hregistered hmodern hlinked _ hdependency :=
    hchange.ready hliving hclosed hregistered hmodern hlinked hdependency

end Change

theorem Chain.closed {stage stage' : Stage} {marks : List Mark} (hchain : Chain stage marks stage')
    (hliving : stage.Living) (hclosed : stage.store.Closed) : stage'.store.Closed := by
  induction hchain with
  | refl => exact hclosed
  | tail hbefore hchange ih => exact hchange.closed (hbefore.living hliving) ih

namespace Machine

theorem closed_perform (place : Place) (config : Config) (acts : List Act) :
    ((new place config).perform acts).session.store.Closed := by
  have hnew : (new place config).stage.store.Closed := by
    refine ⟨?_, ?_, ?_⟩
    · intro ref record hrecord
      cases hrecord
    · intro id ref record hregistered
      cases hregistered.record
    · intro id ref record hregistered
      cases hregistered.record
  exact (chain_perform _ acts).closed (living_new place config) hnew

/-- The graph of a root that is not registered is not built. -/
theorem buildGraph_of_not_registered {engine : Engine} {root : ModuleId}
    (hnone : engine.store.lookup? root = none) :
    engine.attempt (Attempt.buildGraph root) = (.error (.detached root), engine) := by
  have hregistered : engine.attempt (Attempt.registered root) =
      (.error (.detached root), engine) := by
    unfold Attempt.registered
    rw [Engine.attempt_bind, Engine.attempt_get]
    dsimp only
    rw [hnone]
    rfl
  unfold Attempt.buildGraph
  rw [Engine.attempt_bind, hregistered]

/-- However the store of a stage is touched, the graph of a registered root fails for want of a
record only if the host says so. -/
theorem buildGraph_spares {stage : Stage} (hliving : stage.Living) (hclosed : stage.store.Closed)
    {engine : Engine} (htouches : stage.store.Touches engine.store) {root : ModuleId}
    {ref : RecordRef} (hroot : engine.store.lookup? root = some ref) {error : ModuleError}
    (herror : (engine.attempt (Attempt.buildGraph root)).1 = .error error) :
    Attempt.Spares engine.host error := by
  have hended := Attempt.meets_buildGraph root engine rfl trivial
  -- the failed attempt has only touched the store, so what is asked for is still registered
  have hchain : Chain stage []
      ⟨_, _, (engine.attempt (Attempt.buildGraph root)).2.store⟩ :=
    .of_touches (htouches.trans hended.touches)
  rcases hended.error error herror with (hhost | hunfound) | hnone
  · exact hhost
  · exact absurd (hchain.closed hliving hclosed).found hunfound
  · -- a root that is registered still is, with its record
    have hbuilt : Chain ⟨[], [], engine.store⟩ []
        ⟨[], [], (engine.attempt (Attempt.buildGraph root)).2.store⟩ :=
      .of_touches hended.touches
    have hlookup := hbuilt.lookup List.not_mem_nil hroot
    obtain ⟨record, hrecord, -⟩ := (hchain.living hliving).named root ref hlookup
    rw [Store.Registered.find ⟨hlookup, hrecord⟩] at hnone
    cases hnone

/-- The body of a linked module with a source begins when it is its turn. -/
theorem enterModule_of_linked {session : Session} {id : ModuleId} {ref : RecordRef}
    {record : Record} (hregistered : session.store.Registered id ref record)
    (hmodern : record.format = .modern) (hlinked : record.status = .linked) {source : ModuleSource}
    (hsource : record.source? = some source) (stack : List Frame) :
    enterModule session stack id =
      ⟨session.withStore (session.store.setStatus ref .evaluating),
        .body ref source.body :: stack, .go⟩ := by
  unfold enterModule
  rw [hregistered.lookup, hregistered.find]
  simp only [hmodern, hlinked, hsource]

/-- **In every state of every run, whatever a linked module leads to is linked, and the record keeps
all that its status promises.**  So no graph is left unbuilt for want of the record of a dependency,
whatever is done to the store before, and no linked module is without a body to run. -/
theorem linked_modules_are_closed (place : Place) (config : Config) (acts : List Act)
    (hspares : ((new place config).perform acts).session.store.SparesDefault) :
    let session := ((new place config).perform acts).session
    (∀ id ref record, session.store.Registered id ref record → record.format = .modern →
      record.status.hasLinked = true →
      record.source?.isSome ∧ record.analysis?.isSome ∧
        (∀ dependency ∈ record.requested, ∃ ref' record',
          session.store.Registered dependency ref' record' ∧
            (record'.format = .modern → record'.status.hasLinked = true)) ∧
        (∀ name, Store.OwnName record.exportEntries name → session.store.Owns record name) ∧
        ∀ entry ∈ record.imports, (record.environment.find? entry.as_).isSome) ∧
    (∀ ref record, session.store.record? ref = some record →
      (record.format = .modern → record.status = .unlinked → record.environment = {}) ∧
        (record.format = .legacy → record.status ≠ .linking ∧ record.status ≠ .linked) ∧
        ∀ exports, record.exports? = some exports →
          (exports.started = true ↔ record.status ≠ .unlinked)) ∧
    (∀ (engine : Engine) (root : ModuleId), session.store.Touches engine.store →
      ∀ error id, (engine.attempt (Attempt.buildGraph root)).1 = .error error →
        error = .detached id → (∃ other, engine.host.load other = .error error) ∨
          id = root ∧ engine.store.lookup? root = none) ∧
    ∀ id ref record stack, session.store.Registered id ref record → record.format = .modern →
      record.status = .linked → ∃ source, record.source? = some source ∧
        enterModule session stack id =
          ⟨session.withStore (session.store.setStatus ref .evaluating),
            .body ref source.body :: stack, .go⟩ := by
  intro session
  have hliving : ((new place config).perform acts).stage.Living := living_perform place config acts
  have hclosed : session.store.Closed := closed_perform place config acts
  have hsource : ∀ ref record, session.store.record? ref = some record →
      record.status.hasLinked = true → record.source?.isSome := by
    intro ref record hrecord hlinked
    have hcoherent := hclosed.coherent ref record hrecord
    exact hcoherent.sourced (hcoherent.linked hlinked).analyzed
  refine ⟨?_, ?_, ?_, ?_⟩
  · intro id ref record hregistered hmodern hlinked
    have hcoherent := hclosed.coherent ref record hregistered.record
    have hbound := hcoherent.linked hlinked
    refine ⟨hsource ref record hregistered.record hlinked, hbound.analyzed, ?_, ?_,
      hbound.imports hmodern⟩
    · intro dependency hdependency
      obtain ⟨ref', record', hregistered', -, hready⟩ :=
        hclosed.ready id ref record hregistered hmodern hlinked dependency hdependency
      exact ⟨ref', record', hregistered', hready⟩
    · intro name hname
      exact hcoherent.owns (hspares.record hregistered.record) hmodern hlinked hname
  · intro ref record hrecord
    have hcoherent := hclosed.coherent ref record hrecord
    have hpossible := hliving.possible ref record hrecord
    exact ⟨hcoherent.empty, fun hlegacy => ⟨hpossible.1, hpossible.2 hlegacy⟩, hcoherent.started⟩
  · intro engine root htouches error id herror hdetached
    cases hroot : engine.store.lookup? root with
    | some ref => exact .inl (buildGraph_spares hliving hclosed htouches hroot herror id hdetached)
    | none =>
        rw [buildGraph_of_not_registered hroot] at herror
        obtain rfl := Except.error.inj herror
        exact .inr ⟨(ModuleError.detached.inj hdetached).symm, rfl⟩
  · intro id ref record stack hregistered hmodern hlinked
    obtain ⟨source, hfound⟩ := Option.isSome_iff_exists.mp
      (hsource ref record hregistered.record (by rw [hlinked]; rfl))
    exact ⟨source, hfound, enterModule_of_linked hregistered hmodern hlinked hfound stack⟩

/-- Two modules that import each other, and a legacy module. -/
def circle : Shelf :=
  let left := (Source.ofBody [.statement (.copy "y" "x")]).importNamed "/right.mjs" "y" "y"
  let right := (Source.ofBody [.statement (.set "y" .null)]).importNamed "/left.mjs" "x" "x"
  ((Shelf.empty.insert "/left.mjs" ((left.importDefault "/old.cjs" "old").exportLocal "x")).insert
    "/right.mjs" (right.exportLocal "y")).insert "/old.cjs" (Source.ofBody [])

/-- The circle is linked, and the body of the module that comes first runs. -/
def circleBegun : List Act := [.call (.evaluate "/left.mjs" none) none, .step]

theorem linked_modules_are_closed_circle :
    let store := ((new (.shelf circle) .standard).perform circleBegun).session.store
    store.SparesDefault ∧ ∃ ref record, store.Registered (.ofPath "/left.mjs") ref record ∧
      record.status = .linked ∧ store.Owns record "x" ∧
      (record.environment.find? "y").isSome ∧ record.source?.isSome := by
  intro store
  have hspares : store.SparesDefault := by
    unfold Store.SparesDefault
    decide +kernel
  refine ⟨hspares, ?_⟩
  have hfacts : (store.find? (.ofPath "/left.mjs")).map (fun record =>
      (record.format, record.status, record.imports, record.exportEntries)) =
      some (.modern, .linked, [⟨.ofPath "/right.mjs", .name "y", "y"⟩,
        ⟨.ofPath "/old.cjs", .name "default", "old"⟩], [.own "x" "x"]) := by decide +kernel
  obtain ⟨record, hfind, hfields⟩ := Option.map_eq_some_iff.mp hfacts
  obtain ⟨hmodern, hlinked, himports, hexports⟩ := by simpa using hfields
  obtain ⟨ref, hregistered⟩ := Store.exists_registered_of_find hfind
  obtain ⟨hmodules, -⟩ := linked_modules_are_closed (.shelf circle) .standard circleBegun hspares
  obtain ⟨hsource, -, -, howns, hbound⟩ :=
    hmodules _ ref record hregistered hmodern (by rw [hlinked]; rfl)
  have hown : Store.OwnName record.exportEntries "x" := ⟨"x", by rw [hexports]; decide⟩
  have himport : ⟨.ofPath "/right.mjs", .name "y", "y"⟩ ∈ record.imports := by
    rw [himports]
    exact List.mem_cons_self
  exact ⟨ref, record, hregistered, hlinked, howns "x" hown, hbound _ himport, hsource⟩

end Machine

end Linkage
