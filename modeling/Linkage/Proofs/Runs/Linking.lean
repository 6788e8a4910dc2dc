import Linkage.Proofs.Linking.Failing
import Linkage.Proofs.Runs.Closure

/-!
# Linking all or nothing

In every state of every run, linking the modules of a graph fails exactly for a name that one of
them asks for and that leads nowhere or is ambiguous.  If it fails, every record is as it was; if it
does not, every modern module of the graph is linked.

* `Store.spans_leads` : where the modules of a graph lead to.
* `Store.spans_offering` : what they offer after the first pass.
* `Machine.linking_fails_for_names` : how linking ends.
-/

namespace Linkage

namespace Store

variable {store : Store} {order : List ModuleId} {id source : ModuleId} {ref : RecordRef}
  {record : Record}

/-- A module that imports may lead to: one of the order, or one that is ready without it. -/
def Within (store : Store) (order : List ModuleId) (id : ModuleId) : Prop :=
  id ∈ order ∨ store.Ready id

/-- A modern module of a graph asks only for modules of the graph or for modules that are ready. -/
theorem spans_leads (hclosed : store.Closed) (hspans : store.Spans order)
    (hwithin : store.Within order id) (hregistered : store.Registered id ref record)
    (hmodern : record.format = .modern) (hsource : source ∈ record.requested) :
    store.Within order source := by
  rcases hwithin with hid | ⟨_, _, hfound, -, hlinked⟩
  · obtain ⟨_, _, hfound, hleads⟩ := hspans.leads id hid
    obtain ⟨rfl, rfl⟩ := hfound.unique hregistered
    rcases hleads with hsettled | ⟨-, hsub⟩
    · -- a settled module is a leaf of the graph, but it is linked
      exact .inr (hclosed.ready id ref record hregistered hmodern
        (Status.hasLinked_of_isSettled hsettled) source hsource)
    · have hmem : source ∈ record.dependencies := by
        rwa [Record.dependencies, hmodern]
      exact .inl (by simpa using hsub hmem)
  · obtain ⟨rfl, rfl⟩ := hfound.unique hregistered
    exact .inr (hclosed.ready id ref record hregistered hmodern (hlinked hmodern) source hsource)

/-- A modern module of a graph is to be linked or has been. -/
theorem pending_or_hasLinked (hpossible : ∀ ref record, store.record? ref = some record →
    record.Possible) (hwithin : store.Within order id)
    (hregistered : store.Registered id ref record) (hmodern : record.format = .modern) :
    ref ∈ store.pendingLinks order ∨ record.status.hasLinked = true := by
  rcases hwithin with hid | ⟨_, _, hfound, -, hlinked⟩
  · have hlinking := (hpossible ref record hregistered.record).1
    cases hstatus : record.status with
    | unlinked => exact .inl (mem_pendingLinks.mpr ⟨id, hid, record, hregistered, hmodern, hstatus⟩)
    | linking => exact absurd hstatus hlinking
    | _ => exact .inr rfl
  · obtain ⟨rfl, rfl⟩ := hfound.unique hregistered
    exact .inr (hlinked hmodern)

/-- After the first pass the modules of a graph, and those that are ready, offer what they
export. -/
theorem spans_offering (hnamed : store.Named) (hpossible : ∀ ref record,
    store.record? ref = some record → record.Possible) (hclosed : store.Closed)
    (hspares : store.SparesDefault) (hspans : store.Spans order) :
    Offering (store.Within order) ((store.pendingLinks order).foldl beginLink store) := by
  have hnodup := nodup_pendingLinks hnamed hspans.nodup
  have hbegun : Rebinds (store.pendingLinks order) store
      ((store.pendingLinks order).foldl beginLink store) := .of_foldl rebinds_beginLink _ store
  -- a module is registered with the record it had, up to what the first pass writes
  have hbefore : ∀ id, store.Within order id → ∃ ref record status environment,
      store.Registered id ref record ∧
      ((store.pendingLinks order).foldl beginLink store).Registered id ref
        { record with status, environment } := by
    intro id hwithin
    have hfound : ∃ ref record, store.Registered id ref record := by
      rcases hwithin with hid | ⟨ref, record, hregistered, -⟩
      · obtain ⟨ref, record, hregistered, -⟩ := hspans.leads id hid
        exact ⟨ref, record, hregistered⟩
      · exact ⟨ref, record, hregistered⟩
    obtain ⟨ref, record, hregistered⟩ := hfound
    obtain ⟨status, environment, hrecord'⟩ := hbegun.record ref record hregistered.record
    exact ⟨ref, record, status, environment, hregistered,
      ⟨(hbegun.lookup id).trans hregistered.lookup, hrecord'⟩⟩
  refine ⟨fun id hwithin => ?_, ?_, ?_⟩
  · obtain ⟨ref, record, _, _, -, hregistered⟩ := hbefore id hwithin
    exact ⟨ref, _, hregistered⟩
  · intro id ref begun hwithin hregistered' hmodern entry hentry source hsource
    obtain ⟨_, record, _, _, hregistered, hfound⟩ := hbefore id hwithin
    obtain ⟨rfl, rfl⟩ := hfound.unique hregistered'
    have hcoherent := hclosed.coherent _ record hregistered.record
    exact spans_leads hclosed hspans hwithin hregistered hmodern
      (hcoherent.source_of_export hentry hsource)
  · intro id ref begun hwithin hregistered' hmodern name hname
    obtain ⟨_, record, status, environment, hregistered, hfound⟩ := hbefore id hwithin
    obtain ⟨rfl, rfl⟩ := hfound.unique hregistered'
    have hcoherent := hclosed.coherent ref record hregistered.record
    have hspares' := hspares.record hregistered.record
    refine ⟨?_, hcoherent.apart hspares' hname⟩
    by_cases hpending : ref ∈ store.pendingLinks order
    · obtain ⟨begun, hbegun', hbegins⟩ := begun_record hnodup hpending hregistered.record
      obtain rfl := Option.some.inj (hbegun'.symm.trans hregistered'.record)
      exact hbegins.owns name hname
    · -- the module was linked before, and the first pass leaves it alone
      have hlinked := (pending_or_hasLinked hpossible hwithin hregistered
        hmodern).resolve_left hpending
      have hsame := (hbegun.other ref hpending).symm.trans hregistered'.record
      rw [hregistered.record] at hsame
      rw [← Option.some.inj hsame]
      exact (hcoherent.owns hspares' hmodern hlinked hname).rebinds hbegun

end Store

namespace Machine

/-- **In every state of every run, linking the modules of a graph succeeds for all or for none.**
It fails exactly for a name that a module to be linked imports or exports anew and that leads
nowhere or is ambiguous once every module to be linked has its cells.  Then every record is as it
was; otherwise every modern module of the graph is linked, and the records of other modules are as
they were. -/
theorem linking_fails_for_names (place : Place) (config : Config) (acts : List Act)
    (engine engine' : Engine) (root : ModuleId) (graph : Graph)
    (htouches : ((new place config).perform acts).session.store.Touches engine.store)
    (hbuilt : engine.attempt (Attempt.buildGraph root) = (.ok graph, engine'))
    (hspares : engine'.store.SparesDefault) :
    let store := engine'.store
    let begun := (store.pendingLinks graph.order).foldl Store.beginLink store
    let result := (store.link graph.order).1
    let store' := (store.link graph.order).2
    ((∃ error, result = .error error) ↔ ∃ id ∈ graph.order, ∃ ref record,
      store.Registered id ref record ∧ record.format = .modern ∧ record.status = .unlinked ∧
        ∃ source name, record.AsksFor source name ∧
          (begun.resolveExport source name = .missing ∨
            begun.resolveExport source name = .ambiguous)) ∧
    ((∃ error, result = .error error) → store' = { store with cells := store'.cells } ∧
      (∀ ref, store'.record? ref = store.record? ref) ∧
      ∀ ref cell, store.cell? ref = some cell → store'.cell? ref = some cell) ∧
    (result = .ok () →
      (∀ id ∈ graph.order, ∃ ref record, store'.Registered id ref record ∧
        (record.format = .modern → record.status.hasLinked = true)) ∧
      ∀ ref, (∀ id ∈ graph.order, store.lookup? id ≠ some ref) →
        store'.record? ref = store.record? ref) := by
  intro store begun result store'
  have hended := Attempt.meets_buildGraph root engine rfl trivial
  rw [hbuilt] at hended
  have hspans : store.Spans graph.order := (hended.ok graph rfl).1
  have hchain : Chain ((new place config).perform acts).stage [] ⟨_, _, store⟩ :=
    .of_touches (htouches.trans hended.touches)
  have hliving := hchain.living (living_perform place config acts)
  have hclosed : store.Closed :=
    hchain.closed (living_perform place config acts) (closed_perform place config acts)
  have hnodup : (store.pendingLinks graph.order).Nodup :=
    Store.nodup_pendingLinks hliving.named hspans.nodup
  have hrebinds : Store.Rebinds (store.pendingLinks graph.order) store store' :=
    store.rebinds_link graph.order
  refine ⟨?_, ?_, ?_⟩
  · have hoffering := Store.spans_offering hliving.named hliving.possible hclosed hspares hspans
    -- what a module to be linked asks for is asked of modules it leads to
    have hsources : ∀ ref ∈ store.pendingLinks graph.order, ∀ record,
        store.record? ref = some record → ∀ source name, record.AsksFor source name →
          store.Within graph.order source := by
      intro ref hpending record hrecord source name hasks
      obtain ⟨id, hid, found, hregistered, hmodern, -⟩ := Store.mem_pendingLinks.mp hpending
      obtain rfl := Option.some.inj (hregistered.record.symm.trans hrecord)
      have hcoherent := hclosed.coherent ref found hrecord
      refine Store.spans_leads hclosed hspans (.inl hid) hregistered hmodern ?_
      rcases hasks with ⟨as_, hentry⟩ | ⟨as_, hentry⟩
      · exact hcoherent.source_of_import hentry
      · exact hcoherent.source_of_export hentry rfl
    refine (Store.link_fails_iff hoffering hsources).trans ⟨?_, ?_⟩
    · rintro ⟨ref, hpending, record, hrecord, hnames⟩
      obtain ⟨id, hid, found, hregistered, hmodern, hunlinked⟩ :=
        Store.mem_pendingLinks.mp hpending
      obtain rfl := Option.some.inj (hregistered.record.symm.trans hrecord)
      exact ⟨id, hid, ref, found, hregistered, hmodern, hunlinked, hnames⟩
    · rintro ⟨id, hid, ref, record, hregistered, hmodern, hunlinked, hnames⟩
      exact ⟨ref, Store.mem_pendingLinks.mpr ⟨id, hid, record, hregistered, hmodern, hunlinked⟩,
        record, hregistered.record, hnames⟩
  · rintro ⟨error, herror⟩
    rcases Store.link_cases hnodup with ⟨_, -, hok, -⟩ | ⟨_, -, -, hlinks⟩
    · cases herror.symm.trans hok
    · have hsame : store' = { store with cells := store'.cells } := hlinks.eq (by
        intro ref hpending
        obtain ⟨id, -, record, hregistered, hmodern, hunlinked⟩ :=
          Store.mem_pendingLinks.mp hpending
        exact ⟨record, hregistered.record, hunlinked,
          (hclosed.coherent ref record hregistered.record).empty hmodern hunlinked⟩)
      refine ⟨hsame, fun ref => ?_, hrebinds.cell⟩
      unfold Store.record?
      rw [hsame]
  · intro hok
    refine ⟨fun id hid => ?_, fun ref hother => hrebinds.other ref ?_⟩
    · rcases Store.link_cases hnodup with ⟨_, -, -, hlinks⟩ | ⟨_, -, herror, -⟩
      · obtain ⟨ref, record, hregistered, -, hlinked⟩ :=
          Store.ready_of_linksAll hspans hliving.possible hclosed.coherent hlinks hid
        exact ⟨ref, record, hregistered, hlinked⟩
      · cases hok.symm.trans herror
    · intro hpending
      obtain ⟨id, hid, record, hregistered, -⟩ := Store.mem_pendingLinks.mp hpending
      exact hother id hid hregistered.lookup

/-- A module that imports a name that is not there. -/
def torn : Shelf :=
  let left := (Source.ofBody []).importNamed "/right.mjs" "z" "z"
  (Shelf.empty.insert "/left.mjs" left).insert "/right.mjs" ((Source.ofBody []).exportLocal "y")

/-- Both modules are registered. -/
def tornSeen : List Act := [.call (.graph "/left.mjs" []) none]

theorem linking_fails_for_names_torn :
    let engine := ((new (.shelf torn) .standard).perform tornSeen).session.engine
    ∃ graph engine', engine.attempt (Attempt.buildGraph (.ofPath "/left.mjs")) =
        (.ok graph, engine') ∧
      (∃ id ∈ graph.order, ∃ ref record, engine'.store.Registered id ref record ∧
        ∃ source name, record.AsksFor source name) ∧
      ∀ ref, (engine'.store.link graph.order).2.record? ref = engine'.store.record? ref := by
  intro engine
  have hfacts : (engine.attempt (Attempt.buildGraph (.ofPath "/left.mjs"))).1.toOption.map
      (fun graph => ((engine.attempt (Attempt.buildGraph (.ofPath "/left.mjs"))).2.store.link
        graph.order).1.toBool) = some false := by decide +kernel
  have hspares :
      (engine.attempt (Attempt.buildGraph (.ofPath "/left.mjs"))).2.store.SparesDefault := by
    unfold Store.SparesDefault
    decide +kernel
  obtain ⟨graph, hgraph, hlinked⟩ := Option.map_eq_some_iff.mp hfacts
  have hbuilt := Engine.attempt_eq_ok_of_toOption hgraph
  generalize (engine.attempt (Attempt.buildGraph (.ofPath "/left.mjs"))).2 = engine'
    at hbuilt hspares hlinked
  have hfailed : ∃ error, (engine'.store.link graph.order).1 = .error error := by
    cases hended : (engine'.store.link graph.order).1 with
    | ok _ =>
        rw [hended] at hlinked
        cases hlinked
    | error error => exact ⟨error, rfl⟩
  obtain ⟨hnames, hkept, -⟩ := linking_fails_for_names (.shelf torn) .standard tornSeen
    engine engine' (.ofPath "/left.mjs") graph .refl hbuilt hspares
  obtain ⟨id, hid, ref, record, hregistered, -, -, source, name, hasks, -⟩ := hnames.mp hfailed
  exact ⟨graph, engine', hbuilt, ⟨id, hid, ref, record, hregistered, source, name, hasks⟩,
    (hkept hfailed).2.1⟩

end Machine

end Linkage
