import Linkage.Proofs.Runs.UnderWay

/-!
# The turns of a pass

A pass comes to its modules in the order of its graph, so what a module depends on has begun when it
is its turn, unless that closes a cycle.  While an outermost pass is the topmost frame no body runs,
so what has begun is settled.

* `Machine.UnderWay.turn`, `Machine.UnderWay.reached` : what has begun when it is the turn of a
  module.
* `Machine.dependencies_begin_first` : the same of the body that begins then.
-/

namespace Linkage

open Relation (TransGen)

namespace Machine

variable {machine : Machine} {graph : Graph} {below : List Frame}

namespace UnderWay

variable {act : Act} {after : List Act} {final : Machine} {id dependency : ModuleId}
  {rest : List ModuleId}

/-- What had begun when a run began has begun. -/
theorem begun (hfinal : (machine.act act).perform after = final) (hliving : machine.stage.Living)
    (hreset : .reset ∉ (machine.act act).log after)
    (hbegun : (machine.act act).session.store.HasBegun id) : final.session.store.HasBegun id := by
  have hchain := (machine.act act).chain_perform after
  rw [← hfinal]
  exact hchain.hasBegun ((machine.chain_act act).living hliving)
    (fun _ _ => hchain.lookup hreset) hbegun

/-- What a module of the graph, or one that had begun, depends on was known when the run began. -/
theorem earlier (hunderWay : machine.UnderWay act after graph below)
    (hfinal : (machine.act act).perform after = final) (hliving : machine.stage.Living)
    (hclosed : machine.session.store.Closed) (hreset : .reset ∉ (machine.act act).log after)
    (hknown : id ∈ graph.order ∨ (machine.act act).session.store.HasBegun id)
    (hrequests : final.session.store.Requests id dependency) :
    (machine.act act).session.store.Requests id dependency := by
  have hbegins := machine.chain_act act
  have hchain := (machine.act act).chain_perform after
  rw [hfinal] at hchain
  have harranged := hunderWay.starts.launches.arranged hliving hclosed
  exact hrequests.earlier hchain (hbegins.living hliving) (hbegins.closed hliving hclosed) hreset
    (hknown.imp_left (harranged.ready id))

/-- Of an outermost run nothing but the pass is on the stack if the stack is that high. -/
theorem stack_eq (hunderWay : machine.UnderWay act after graph below)
    (hfinal : (machine.act act).perform after = final) (hidle : Idle below)
    (hlength : final.stack.length = below.length + 2) (hdue : final.due = id :: rest) :
    final.stack = .pass (id :: rest) :: .settle graph.root :: below := by
  obtain ⟨above, hstack⟩ := hunderWay.stays after (List.prefix_refl _)
  rw [hfinal] at hstack
  rw [due, ← hstack, List.flatMap_append, List.flatMap_cons, hidle.due] at hdue
  rw [← hstack, List.length_append, List.length_cons] at hlength
  obtain ⟨frame, rfl⟩ : ∃ frame, above = [frame] := List.length_eq_one_iff.mp (by omega)
  have hframe : frame.due = id :: rest := by simpa [Frame.due] using hdue
  rw [← hstack, Frame.eq_pass hframe]
  rfl

/-- When it is the turn of a module that has not begun, all it depends on has begun, back edges
apart. -/
theorem turn (hunderWay : machine.UnderWay act after graph below)
    (hfinal : (machine.act act).perform after = final) (hliving : machine.stage.Living)
    (hclosed : machine.session.store.Closed) (hreset : .reset ∉ (machine.act act).log after)
    (hstack : final.stack = .pass (id :: rest) :: .settle graph.root :: below)
    (hnot : ¬ final.session.store.HasBegun id) :
    ∃ visited, graph.order = visited ++ id :: rest ∧
      (∀ id ∈ visited, final.session.store.HasBegun id) ∧
      ∀ dependency, final.session.store.Requests id dependency →
        dependency ∈ visited ∨ (id, dependency) ∈ graph.backEdges := by
  have harranged := hunderWay.starts.launches.arranged hliving hclosed
  have hcourse := hunderWay.course hliving hclosed hreset
  rw [hfinal] at hcourse
  obtain ⟨visited, horder, hvisited⟩ := hcourse.visited hstack
  refine ⟨visited, horder, hvisited, fun dependency hrequests => ?_⟩
  have hid : id ∈ graph.order := by simp [horder]
  exact harranged.visited horder (fun hbegun => hnot (begun hfinal hliving hreset hbegun))
    (hunderWay.earlier hfinal hliving hclosed hreset (.inl hid) hrequests)

/-- In an outermost pass without back edges all that the module leads to has begun. -/
theorem reached (hunderWay : machine.UnderWay act after graph below)
    (hfinal : (machine.act act).perform after = final) (hliving : machine.stage.Living)
    (hclosed : machine.session.store.Closed) (hattends : machine.Attends)
    (hreset : .reset ∉ (machine.act act).log after) (hidle : Idle below)
    (hacyclic : graph.backEdges = [])
    (hstack : final.stack = .pass (id :: rest) :: .settle graph.root :: below)
    (hnot : ¬ final.session.store.HasBegun id)
    (hpath : TransGen final.session.store.Requests id dependency) :
    final.session.store.HasBegun dependency := by
  have harranged := hunderWay.starts.launches.arranged hliving hclosed
  obtain ⟨visited, horder, hvisited, hturn⟩ :=
    hunderWay.turn hfinal hliving hclosed hreset hstack hnot
  -- what had begun and what the pass has visited depends on nothing else
  have hreached : (machine.act act).session.store.HasBegun dependency ∨ dependency ∈ visited := by
    induction hpath with
    | single hfirst =>
        refine .inr ((hturn _ hfirst).resolve_right ?_)
        rw [hacyclic]
        exact List.not_mem_nil
    | @tail middle dependency _ hnext ih =>
        have hknown : middle ∈ graph.order ∨ (machine.act act).session.store.HasBegun middle := by
          rw [horder, List.mem_append]
          exact ih.symm.imp_left .inl
        have hasked := hunderWay.earlier hfinal hliving hclosed hreset hknown hnext
        exact harranged.complete hacyclic (hunderWay.starts.complete hliving hclosed hattends hidle
          hasked) horder hasked ih
  exact hreached.elim (begun hfinal hliving hreset) (hvisited dependency)

end UnderWay

/-- **When it is the turn of a module in a pass and its body begins, all it asks for has begun, back
edges apart.**  In an outermost pass over a graph without back edges all that it leads to is
settled. -/
theorem dependencies_begin_first (place : Place) (config : Config) (acts : List Act)
    {id : ModuleId} {rest : List ModuleId} {base : List Frame} {ref : RecordRef} {record : Record}
    (hstack : ((new place config).perform acts).stack = .pass (id :: rest) :: base)
    (hregistered : ((new place config).perform acts).session.store.Registered id ref record)
    (hmodern : record.format = .modern) (hlinked : record.status = .linked) :
    let start := new place config
    let machine := start.perform acts
    (∃ source, record.source? = some source ∧ machine.step =
      ⟨machine.session.withStore (machine.session.store.setStatus ref .evaluating),
        .body ref source.body :: .pass rest :: base, .go⟩) ∧
    (∃ before act after graph below, acts = before ++ act :: after ∧
      base = .settle graph.root :: below ∧
      (start.perform before).UnderWay act after graph below) ∧
    ∀ before act after graph below, acts = before ++ act :: after →
      base = .settle graph.root :: below → (start.perform before).UnderWay act after graph below →
      .reset ∉ ((start.perform before).act act).log after →
      (∀ dependency ∈ record.requested, (id, dependency) ∈ graph.backEdges ∨
        ∃ ref' record', machine.session.store.Registered dependency ref' record' ∧
          record'.status.hasBegun = true) ∧
      (Idle below → .abandon ∉ acts → graph.backEdges = [] →
        ∀ dependency, TransGen machine.session.store.Requests id dependency →
          ∃ ref' record', machine.session.store.Registered dependency ref' record' ∧
            record'.status.isSettled = true) := by
  intro start machine
  have hnot : ¬ machine.session.store.HasBegun id := by
    rintro ⟨_, _, hfound, hstatus⟩
    obtain ⟨-, rfl⟩ := hregistered.unique hfound
    rw [hlinked] at hstatus
    cases hstatus
  refine ⟨?_, ?_, ?_⟩
  · have hclosed : machine.session.store.Closed := closed_perform place config acts
    have hcoherent := hclosed.coherent ref record hregistered.record
    have hanalyzed := (hcoherent.linked (by rw [hlinked]; rfl)).analyzed
    obtain ⟨source, hsource⟩ := Option.isSome_iff_exists.mp (hcoherent.sourced hanalyzed)
    refine ⟨source, hsource, ?_⟩
    have hstep : machine.step = enterModule machine.session (.pass rest :: base) id := by
      unfold step
      rw [hstack]
    rw [hstep, enterModule_of_linked hregistered hmodern hlinked hsource]
  · have hpass : .pass (id :: rest) :: base <:+ machine.stack := by
      rw [hstack]
    exact exists_underWay place config hpass
  · intro before act after graph below hacts hbase hunderWay hreset
    have hliving := living_perform place config before
    have hclosed := closed_perform place config before
    have hmachine : ((start.perform before).act act).perform after = machine := by
      rw [← perform_cons, ← perform_append, ← hacts]
    rw [hbase] at hstack
    obtain ⟨visited, horder, hvisited, hdepends⟩ :=
      hunderWay.turn hmachine hliving hclosed hreset hstack hnot
    refine ⟨fun dependency hdependency => ?_, ?_⟩
    · have hrequests : machine.session.store.Requests id dependency :=
        ⟨ref, record, hregistered, by rwa [Record.dependencies, hmodern]⟩
      exact (hdepends dependency hrequests).symm.imp_right (hvisited dependency)
    · intro hidle habandon hacyclic dependency hpath
      have hattends : (start.perform before).Attends :=
        attends_perform place config (fun hmem => habandon (by simp [hacts, hmem]))
      have hrunning : machine.running = [] := by
        show machine.stack.filterMap Frame.running? = []
        rw [hstack]
        exact hidle.running
      exact (attends_perform place config habandon).settled hrunning (hunderWay.reached hmachine
        hliving hclosed hattends hreset hidle hacyclic hstack hnot hpath)

/-- A module above another, whose body fails. -/
def stairs : Shelf :=
  let lower := (Source.ofBody [.statement (.throw "slippery")]).exportLocal "x"
  let upper := (Source.ofBody []).importNamed "/lower.mjs" "x" "x"
  (Shelf.empty.insert "/upper.mjs" upper).insert "/lower.mjs" lower

/-- The run of the upper module begins. -/
def stairsBegun : Act := .call (.evaluate "/upper.mjs" none) none

theorem stairs_starts : ∃ graph, graph.root = .ofPath "/upper.mjs" ∧
    graph.order = [.ofPath "/lower.mjs", .ofPath "/upper.mjs"] ∧ graph.backEdges = [] ∧
    (new (.shelf stairs) .standard).Starts graph [.present (.ofPath "/upper.mjs") none]
      ((new (.shelf stairs) .standard).act stairsBegun) := by
  have hresolved : ((Session.new (.shelf stairs) .standard).attempt
      (Attempt.resolveAndRegister "/upper.mjs" none)).1.toOption.map (·.1.id) =
      some (.ofPath "/upper.mjs") := by decide +kernel
  have hbuilt : let engine := ((Session.new (.shelf stairs) .standard).attempt
        (Attempt.resolveAndRegister "/upper.mjs" none)).2.engine
      (engine.attempt (Attempt.buildGraph (.ofPath "/upper.mjs"))).1.toOption.map (fun graph =>
        (graph.order, graph.backEdges, ((engine.attempt (Attempt.buildGraph
          (.ofPath "/upper.mjs"))).2.store.link graph.order).1.toOption)) =
      some ([.ofPath "/lower.mjs", .ofPath "/upper.mjs"], [], some ()) := by decide +kernel
  obtain ⟨graph, hgraph, hfields⟩ := Option.map_eq_some_iff.mp hbuilt
  obtain ⟨horder, hfields'⟩ := Prod.mk.inj hfields
  obtain ⟨hback, hlinked⟩ := Prod.mk.inj hfields'
  obtain ⟨hroot, hstarts⟩ := Starts.of_evaluate none hresolved hgraph hlinked
  exact ⟨graph, hroot, horder, hback, hstarts⟩

/-- The lower module has failed, and the body of the upper one begins. -/
theorem dependencies_begin_first_stairs :
    let machine := (new (.shelf stairs) .standard).perform (stairsBegun :: List.replicate 3 .step)
    ∃ ref record, machine.session.store.Registered (.ofPath "/upper.mjs") ref record ∧
      record.status = .linked ∧ .ofPath "/lower.mjs" ∈ record.requested ∧
      ∃ ref' record', machine.session.store.Registered (.ofPath "/lower.mjs") ref' record' ∧
        record'.status.isSettled = true := by
  intro machine
  obtain ⟨graph, hroot, horder, hback, hstarts⟩ := stairs_starts
  have hfacts : (machine.session.store.find? (.ofPath "/upper.mjs")).map (fun record =>
      (record.format, record.status, record.requested)) =
      some (.modern, .linked, [.ofPath "/lower.mjs"]) := by decide +kernel
  have hreset : .reset ∉ ((new (.shelf stairs) .standard).act stairsBegun).log
      (List.replicate 3 .step) := by decide +kernel
  have hlength : machine.stack.length = 3 := by decide +kernel
  have hdue : machine.due = [.ofPath "/upper.mjs"] := by decide +kernel
  have hidle : Idle [.present (.ofPath "/upper.mjs") none] := by simp [Idle, Frame.evaluates]
  have hunderWay := hstarts.underWay (by decide +kernel : ∀ taken ≤ 3, 1 <
    (((new (.shelf stairs) .standard).act stairsBegun).perform
      (List.replicate taken .step)).stack.length)
  have hstack := hunderWay.stack_eq (perform_cons _ _ _).symm hidle hlength hdue
  obtain ⟨record, hfind, hfields⟩ := Option.map_eq_some_iff.mp hfacts
  obtain ⟨hmodern, hlinked, hrequested⟩ := by simpa using hfields
  obtain ⟨ref, hregistered⟩ := Store.exists_registered_of_find hfind
  have hlower : .ofPath "/lower.mjs" ∈ record.requested := by simp [hrequested]
  have hasked : machine.session.store.Requests (.ofPath "/upper.mjs") (.ofPath "/lower.mjs") :=
    ⟨ref, record, hregistered, by rwa [Record.dependencies, hmodern]⟩
  obtain ⟨-, -, hgraph⟩ := dependencies_begin_first (.shelf stairs) .standard
    (stairsBegun :: List.replicate 3 .step) hstack hregistered hmodern hlinked
  obtain ⟨-, hsettled⟩ := hgraph [] stairsBegun (List.replicate 3 .step) graph
    [.present (.ofPath "/upper.mjs") none] rfl rfl hunderWay hreset
  exact ⟨ref, record, hregistered, hlinked, hlower,
    hsettled hidle (by simp [stairsBegun]) hback _ (.single hasked)⟩

end Machine

end Linkage
