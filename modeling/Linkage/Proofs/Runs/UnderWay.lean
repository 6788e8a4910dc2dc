import Linkage.Proofs.Runs.Arranging
import Mathlib.Data.List.Induction
import Mathlib.Data.List.Infix

/-!
# Runs under way

The bodies that a pass begins may do anything, other passes included, but what lies on the stack
below them stays.  So from the act that begins a run to the one that ends it, its pass goes through
the order of its graph.

* `Machine.UnderWay` : a run that began with an act and has not ended since.
* `Machine.exists_underWay` : every pass on the stack is that of such a run.
* `Machine.Course`, `Machine.UnderWay.course` : how far its pass has come.
-/

namespace Linkage

/-- A frame that evaluates is not among frames that wait. -/
theorem Idle.suffix {above base tail : List Frame} {frame : Frame} (hidle : Idle above)
    (hevaluates : frame.evaluates = true) (hsuffix : frame :: tail <:+ above ++ base) :
    frame :: tail <:+ base := by
  induction above with
  | nil => exact hsuffix
  | cons first rest ih =>
      obtain ⟨hwaits, hrest⟩ := List.forall_mem_cons.mp hidle
      rcases List.suffix_cons_iff.mp hsuffix with heq | htail
      · obtain ⟨rfl, -⟩ := List.cons.inj heq
        cases hevaluates.symm.trans hwaits
      · exact ih hrest htail

namespace Session

variable {session : Session} {base below : List Frame} {marks : List Mark} {machine : Machine}
  {rest : List ModuleId} {graph : Graph}

/-- A pass on the stack after work has begun was there before, or it is that of a run that
begins. -/
theorem Enters.pass_suffix (henters : session.Enters base marks machine)
    (hpass : .pass rest :: below <:+ machine.stack) : .pass rest :: below <:+ base ∨
      ∃ graph above, below = .settle graph.root :: (above ++ base) ∧
        session.Launches graph (above ++ base) machine := by
  cases henters with
  | waits above hidle hstack =>
      rw [hstack] at hpass
      exact .inl (hidle.suffix rfl hpass)
  | body above ref program hidle hstack =>
      rw [hstack] at hpass
      rcases List.suffix_cons_iff.mp hpass with heq | hpass
      · cases heq
      · exact .inl (hidle.suffix rfl hpass)
  | run above graph hidle hbegun hlaunches =>
      obtain ⟨_, -, -, -, -, -, hstack⟩ := hlaunches.begins
      rw [hstack] at hpass
      rcases List.suffix_cons_iff.mp hpass with heq | hpass
      · exact .inr ⟨graph, above, (List.cons.inj heq).2, hlaunches⟩
      · have hframes : Idle (.settle graph.root :: above) := List.forall_mem_cons.mpr ⟨rfl, hidle⟩
        exact .inl (hframes.suffix rfl hpass)

end Session

namespace Machine

variable {machine : Machine} {graph : Graph} {below : List Frame}

/-- A run begins: its frames are new on the stack. -/
structure Starts (machine : Machine) (graph : Graph) (below : List Frame) (machine' : Machine) :
    Prop where
  launches : machine.session.Launches graph below machine'
  fresh : ¬ .settle graph.root :: below <:+ machine.stack

/-- A run began with an act and has not ended since. -/
structure UnderWay (machine : Machine) (act : Act) (after : List Act) (graph : Graph)
    (below : List Frame) : Prop where
  starts : machine.Starts graph below (machine.act act)
  stays : ∀ first, first <+: after →
    .settle graph.root :: below <:+ ((machine.act act).perform first).stack

/-- Evaluating a module from outside begins a run if its graph is built and linked. -/
theorem Starts.of_evaluate {session : Session} {specifier : String} {root : ModuleId}
    (save? : Option String)
    (hresolved : (session.attempt (Attempt.resolveAndRegister specifier none)).1.toOption.map
      (·.1.id) = some root)
    (hbuilt : ((session.attempt (Attempt.resolveAndRegister specifier none)).2.engine.attempt
      (Attempt.buildGraph root)).1.toOption = some graph)
    (hlinked : (((session.attempt (Attempt.resolveAndRegister specifier none)).2.engine.attempt
      (Attempt.buildGraph root)).2.store.link graph.order).1.toOption = some ()) :
    graph.root = root ∧ (idle session).Starts graph [.present root none]
      ((idle session).act (.call (.evaluate specifier none) save?)) := by
  obtain ⟨⟨resolved, ref⟩, hfound, rfl⟩ := Option.map_eq_some_iff.mp hresolved
  cases hattempt : session.attempt (Attempt.resolveAndRegister specifier none) with
  | mk result session' =>
      rw [hattempt] at hfound hbuilt hlinked
      cases result with
      | error error => cases hfound
      | ok found =>
          cases hfound
          have hgraph := Engine.attempt_eq_ok_of_toOption hbuilt
          obtain ⟨-, hroot, -⟩ := Engine.explored_of_buildGraph hgraph
          refine ⟨hroot, .of_evaluate [] hattempt hgraph ?_, fun hfresh => ?_⟩
          · generalize (Store.link _ graph.order).1 = ended at hlinked
            cases ended with
            | ok _ => rfl
            | error _ => cases hlinked
          · cases List.suffix_nil.mp hfresh

/-- The frames of a run that begins; if it is an outermost one, nothing was due. -/
def Begins (machine : Machine) (base : List Frame) (machine' : Machine) : Prop :=
  ∃ graph below, base = .settle graph.root :: below ∧ machine.Starts graph below machine' ∧
    (Idle below → machine.due = [])

/-- A run that begins above a frame that evaluates. -/
theorem begins_of_evaluates {machine' : Machine} {above tail : List Frame} {frame frame' : Frame}
    (hstack : machine.stack = frame :: tail) (hevaluates : frame'.evaluates = true)
    (hlaunches : machine.session.Launches graph (above ++ frame' :: tail) machine') :
    machine.Begins (.settle graph.root :: (above ++ frame' :: tail)) machine' := by
  refine ⟨graph, _, rfl, ⟨hlaunches, fun hbefore => ?_⟩, fun hidle => ?_⟩
  · have hlength := hbefore.length_le
    rw [hstack] at hlength
    simp only [List.length_cons, List.length_append] at hlength
    omega
  · have hwaits := hidle frame' (List.mem_append_right _ List.mem_cons_self)
    cases hevaluates.symm.trans hwaits

/-- A run that begins in place of a frame that waits. -/
theorem begins_of_waits {machine' : Machine} {above tail : List Frame} {frame : Frame}
    (hstack : machine.stack = frame :: tail) (hwaits : frame.evaluates = false)
    (hsettle : ∀ root, frame ≠ .settle root)
    (hlaunches : machine.session.Launches graph (above ++ tail) machine') :
    machine.Begins (.settle graph.root :: (above ++ tail)) machine' := by
  refine ⟨graph, _, rfl, ⟨hlaunches, fun hbefore => ?_⟩, fun hidle => ?_⟩
  · rw [hstack] at hbefore
    rcases List.suffix_cons_iff.mp hbefore with heq | htail
    · exact hsettle graph.root (List.cons.inj heq).1.symm
    · have hlength := htail.length_le
      simp only [List.length_cons, List.length_append] at hlength
      omega
  · rw [due, hstack, List.flatMap_cons, Frame.due_eq_nil hwaits, List.nil_append]
    exact Idle.due (fun frame hframe => hidle frame (List.mem_append_right _ hframe))

/-- What a step does to a pass on the stack: it was there before, perhaps with more to do, or its
run begins. -/
theorem pass_suffix_step {rest : List ModuleId} {base : List Frame}
    (hpass : .pass rest :: base <:+ machine.step.stack) :
    (∃ earlier, .pass earlier :: base <:+ machine.stack) ∨ machine.Begins base machine.step := by
  have hgoes := machine.goes
  obtain ⟨session, stack, signal⟩ := machine
  generalize stepMarks ⟨session, stack, signal⟩ = marks at hgoes
  generalize step ⟨session, stack, signal⟩ = machine' at hgoes hpass ⊢
  have hbelow : ∀ {frame : Frame} {tail : List Frame}, .pass rest :: base <:+ tail →
      ∃ earlier, .pass earlier :: base <:+ frame :: tail :=
    fun htail => ⟨rest, htail.trans (List.suffix_cons _ _)⟩
  dsimp only at hgoes
  cases hgoes with
  | rest => cases List.suffix_nil.mp hpass
  | ended | leave | absent | settle => exact .inl (hbelow hpass)
  | turn id others tail =>
      rcases (enters_module session (.pass others :: tail) id).pass_suffix hpass with
        hbase | ⟨graph, above, rfl, hlaunches⟩
      · rcases List.suffix_cons_iff.mp hbase with heq | htail
        · obtain ⟨-, rfl⟩ := List.cons.inj heq
          exact .inl ⟨id :: others, List.suffix_refl _⟩
        · exact .inl (hbelow htail)
      · exact .inr (begins_of_evaluates rfl rfl hlaunches)
  | body ref instruction others tail henters =>
      rcases henters.pass_suffix hpass with hbase | ⟨graph, above, rfl, hlaunches⟩
      · rcases List.suffix_cons_iff.mp hbase with heq | htail
        · cases heq
        · exact .inl (hbelow htail)
      · exact .inr (begins_of_evaluates rfl rfl hlaunches)
  | waits frame tail hwaits hsettle henters =>
      rcases henters.pass_suffix hpass with htail | ⟨graph, above, rfl, hlaunches⟩
      · exact .inl (hbelow htail)
      · exact .inr (begins_of_waits rfl hwaits hsettle hlaunches)

theorem pass_suffix_act {act : Act} {rest : List ModuleId} {base : List Frame}
    (hpass : .pass rest :: base <:+ (machine.act act).stack) :
    (∃ earlier, .pass earlier :: base <:+ machine.stack) ∨
      machine.Begins base (machine.act act) := by
  cases act with
  | step => exact pass_suffix_step hpass
  | abandon => cases List.suffix_nil.mp hpass
  | rehost host => exact .inl ⟨rest, hpass⟩
  | conclude command save? reply =>
      by_cases hdone : machine.isDone = true
      · rw [act, if_pos hdone] at hpass
        cases List.suffix_nil.mp hpass
      · rw [act, if_neg hdone] at hpass
        exact .inl ⟨rest, hpass⟩
  | call command save? =>
      by_cases hdone : machine.isDone = true
      · have hstack : machine.stack = [] := by simpa [isDone] using hdone
        rw [act, if_pos hdone] at hpass ⊢
        rcases (machine.session.enters_opening command save?).pass_suffix hpass with
          hnone | ⟨graph, above, rfl, hlaunches⟩
        · cases List.suffix_nil.mp hnone
        · refine .inr ⟨graph, _, rfl, ⟨hlaunches, ?_⟩, fun _ => ?_⟩
          · rw [hstack, List.suffix_nil]
            exact List.cons_ne_nil _ _
          · rw [due, hstack]
            rfl
      · rw [act, if_neg hdone] at hpass
        exact .inl ⟨rest, hpass⟩

/-- An outermost run begins while nothing is due. -/
theorem Starts.due {act : Act} (hstarts : machine.Starts graph below (machine.act act))
    (hidle : Idle below) : machine.due = [] := by
  obtain ⟨_, -, -, -, -, -, hstack⟩ := hstarts.launches.begins
  have hpass : .pass graph.order :: .settle graph.root :: below <:+ (machine.act act).stack := by
    rw [hstack]
  rcases pass_suffix_act hpass with ⟨earlier, hbefore⟩ | ⟨graph', below', heq, -, hdue⟩
  · exact absurd ((List.suffix_cons _ _).trans hbefore) hstarts.fresh
  · obtain ⟨-, rfl⟩ := List.cons.inj heq
    exact hdue hidle

/-- When an outermost run begins, what a module depends on has begun if the module has. -/
theorem Starts.complete {act : Act} (hstarts : machine.Starts graph below (machine.act act))
    (hliving : machine.stage.Living) (hclosed : machine.session.store.Closed)
    (hattends : machine.Attends) (hidle : Idle below) {id dependency : ModuleId}
    (hrequests : (machine.act act).session.store.Requests id dependency)
    (hbegun : (machine.act act).session.store.HasBegun id) :
    (machine.act act).session.store.HasBegun dependency := by
  have hserved := hattends.served
  rw [hstarts.due hidle] at hserved
  exact hstarts.launches.complete hliving hclosed hserved hbegun hrequests

/-- Every pass on the stack is that of a run under way. -/
theorem exists_underWay (place : Place) (config : Config) {acts : List Act}
    {rest : List ModuleId} {base : List Frame}
    (hpass : .pass rest :: base <:+ ((new place config).perform acts).stack) :
    ∃ before act after graph below, acts = before ++ act :: after ∧
      base = .settle graph.root :: below ∧
      ((new place config).perform before).UnderWay act after graph below := by
  induction acts using List.reverseRecOn generalizing rest with
  | nil => cases List.suffix_nil.mp hpass
  | append_singleton acts last ih =>
      rw [perform_append, perform_cons, perform_nil] at hpass
      rcases pass_suffix_act hpass with ⟨earlier, hbefore⟩ | ⟨graph, below, rfl, hstarts, -⟩
      · obtain ⟨before, act, after, graph, below, rfl, rfl, hunderWay⟩ := ih hbefore
        refine ⟨before, act, after ++ [last], graph, below, by simp, rfl, hunderWay.starts, ?_⟩
        intro first hfirst
        rcases List.prefix_concat_iff.mp hfirst with rfl | hfirst
        · rw [← perform_cons, ← perform_append, ← List.cons_append, ← List.append_assoc,
            perform_append, perform_cons, perform_nil]
          exact (List.suffix_cons _ _).trans hpass
        · exact hunderWay.stays first hfirst
      · refine ⟨acts, last, [], graph, below, rfl, rfl, hstarts, fun first hfirst => ?_⟩
        rw [List.prefix_nil.mp hfirst]
        exact (List.suffix_cons _ _).trans hpass

/-- Where a pass stands that has not been given up: among the modules of its graph, or at their
end. -/
inductive Course (graph : Graph) (below : List Frame) (machine : Machine) : Prop
  | among (above : List Frame) (visited rest : List ModuleId)
      (hstack : machine.stack = above ++ .pass rest :: .settle graph.root :: below)
      (horder : graph.order = visited ++ rest)
      (hbegun : ∀ id ∈ visited, machine.session.store.HasBegun id)
  | ended (hstack : machine.stack = .settle graph.root :: below)
      (hsignal : machine.signal = .reply .done)
      (hbegun : ∀ id ∈ graph.order, machine.session.store.HasBegun id)

theorem Course.suffix (hcourse : Course graph below machine) :
    .settle graph.root :: below <:+ machine.stack := by
  cases hcourse with
  | among above visited rest hstack =>
      rw [hstack]
      exact (List.suffix_cons _ _).trans (List.suffix_append _ _)
  | ended hstack => rw [hstack]

/-- What lies below the topmost frame stays there for a step. -/
theorem suffix_step {frame : Frame} {tail : List Frame} (hstack : machine.stack = frame :: tail) :
    tail <:+ machine.step.stack := by
  have hgoes := machine.goes
  obtain ⟨session, stack, signal⟩ := machine
  generalize stepMarks ⟨session, stack, signal⟩ = marks at hgoes
  generalize step ⟨session, stack, signal⟩ = machine' at hgoes ⊢
  dsimp only at hgoes hstack
  subst hstack
  cases hgoes with
  | ended | leave | absent | settle => exact List.suffix_refl _
  | turn id rest => exact (List.suffix_cons _ _).trans (enters_module session _ id).suffix
  | body ref instruction rest tail henters => exact (List.suffix_cons _ _).trans henters.suffix
  | waits frame tail hwaits hsettle henters => exact henters.suffix

/-- The step that ends a run takes its frame from the stack. -/
theorem stack_step_settle {root : ModuleId} {tail : List Frame}
    (hstack : machine.stack = .settle root :: tail) : machine.step.stack = tail := by
  have hgoes := machine.goes
  obtain ⟨session, stack, signal⟩ := machine
  generalize stepMarks ⟨session, stack, signal⟩ = marks at hgoes
  generalize step ⟨session, stack, signal⟩ = machine' at hgoes ⊢
  dsimp only at hgoes hstack
  subst hstack
  cases hgoes with
  | settle => rfl
  | waits _ _ _ hsettle => exact absurd rfl (hsettle root)

/-- A run is under way for as many steps as the stack is higher than what lies below it. -/
theorem Starts.underWay {act : Act} {count : Nat}
    (hstarts : machine.Starts graph below (machine.act act))
    (hhigher : ∀ taken ≤ count, below.length <
      ((machine.act act).perform (List.replicate taken .step)).stack.length) :
    machine.UnderWay act (List.replicate count .step) graph below := by
  refine ⟨hstarts, fun first hfirst => ?_⟩
  obtain ⟨hcount, hsame⟩ := List.prefix_replicate_iff.mp hfirst
  rw [hsame]
  generalize first.length = taken at hcount
  induction taken with
  | zero =>
      obtain ⟨_, -, -, -, -, -, hstack⟩ := hstarts.launches.begins
      show .settle graph.root :: below <:+ (machine.act act).stack
      rw [hstack]
      exact List.suffix_cons _ _
  | succ taken ih =>
      have hlonger := hhigher (taken + 1) hcount
      rw [List.replicate_succ', perform_append, perform_cons, perform_nil] at hlonger ⊢
      obtain ⟨above, hstack⟩ := ih (Nat.le_of_succ_le hcount)
      cases above with
      | nil =>
          rw [Machine.act, stack_step_settle hstack.symm] at hlonger
          exact absurd hlonger (Nat.lt_irrefl _)
      | cons frame above => exact (List.suffix_append _ _).trans (suffix_step hstack.symm)

/-- While there is work, only a step does some of it. -/
theorem act_eq_of_work {act : Act} (hwork : machine.isDone ≠ true) (hstep : act ≠ .step)
    (habandon : act ≠ .abandon) :
    (machine.act act).stack = machine.stack ∧ (machine.act act).signal = machine.signal := by
  cases act with
  | step => exact absurd rfl hstep
  | abandon => exact absurd rfl habandon
  | rehost host => exact ⟨rfl, rfl⟩
  | call | conclude => simp [Machine.act, hwork]

/-- A pass stands where it stood while nothing happens to the stack. -/
theorem Course.mono {machine' : Machine} (hcourse : Course graph below machine)
    (hkept : ∀ id, machine.session.store.HasBegun id → machine'.session.store.HasBegun id)
    (hstack' : machine'.stack = machine.stack) (hsignal' : machine'.signal = machine.signal) :
    Course graph below machine' := by
  cases hcourse with
  | among above visited rest hstack horder hbegun =>
      exact .among above visited rest (hstack'.trans hstack) horder
        (fun id hid => hkept id (hbegun id hid))
  | ended hstack hsignal hbegun =>
      exact .ended (hstack'.trans hstack) (hsignal'.trans hsignal)
        (fun id hid => hkept id (hbegun id hid))

/-- The topmost pass goes on: it is over, or it is the turn of its next module. -/
theorem Course.next {visited rest : List ModuleId} (hliving : machine.stage.Living)
    (hclosed : machine.session.store.Closed)
    (hready : ∀ id ∈ graph.order, machine.session.store.Ready id)
    (hkept : ∀ id, machine.session.store.HasBegun id → machine.step.session.store.HasBegun id)
    (hstack : machine.stack = .pass rest :: .settle graph.root :: below)
    (horder : graph.order = visited ++ rest)
    (hbegun : ∀ id ∈ visited, machine.session.store.HasBegun id) :
    Course graph below machine.step := by
  obtain ⟨session, stack, signal⟩ := machine
  dsimp only at hstack
  subst hstack
  cases rest with
  | nil =>
      refine .ended rfl rfl (fun id hid => hbegun id ?_)
      rwa [horder, List.append_nil] at hid
  | cons id rest =>
      obtain ⟨above, habove⟩ :=
        (enters_module session (.pass rest :: .settle graph.root :: below) id).suffix
      refine .among above (visited ++ [id]) rest habove.symm (by simp [horder]) ?_
      intro other hother
      rcases List.mem_append.mp hother with hbefore | hself
      · exact hkept other (hbegun other hbefore)
      · rw [List.mem_singleton.mp hself]
        have hid : id ∈ graph.order := by simp [horder]
        exact enterModule_begins hliving hclosed (hready id hid) _

/-- A pass goes on from act to act, up to the step that ends its run. -/
theorem Course.act {act : Act} (hcourse : Course graph below machine)
    (hliving : machine.stage.Living) (hclosed : machine.session.store.Closed)
    (hready : ∀ id ∈ graph.order, machine.session.store.Ready id)
    (hreset : .reset ∉ machine.marks act) (habandon : act ≠ .abandon) :
    Course graph below (machine.act act) ∨
      machine.stack = .settle graph.root :: below ∧ machine.signal = .reply .done ∧ act = .step ∧
        ∀ id ∈ graph.order, machine.session.store.HasBegun id := by
  have hchain := machine.chain_act act
  have hkept : ∀ id, machine.session.store.HasBegun id →
      (machine.act act).session.store.HasBegun id := fun id =>
    hchain.hasBegun hliving (fun _ _ => hchain.lookup hreset)
  by_cases hstep : act = .step
  · subst hstep
    cases hcourse with
    | ended hstack hsignal hbegun => exact .inr ⟨hstack, hsignal, rfl, hbegun⟩
    | among above visited rest hstack horder hbegun =>
        refine .inl ?_
        cases above with
        | nil => exact Course.next hliving hclosed hready hkept hstack horder hbegun
        | cons frame above =>
            obtain ⟨above', hstack'⟩ := suffix_step hstack
            refine .among (above' ++ above) visited rest ?_ horder
              (fun id hid => hkept id (hbegun id hid))
            rw [List.append_assoc]
            exact hstack'.symm
  · have hwork : machine.isDone ≠ true := by
      obtain ⟨above, hstack⟩ := hcourse.suffix
      simp [isDone, ← hstack]
    obtain ⟨hstack, hsignal⟩ := act_eq_of_work hwork hstep habandon
    exact .inl (hcourse.mono hkept hstack hsignal)

/-- While its frames stay on the stack, a pass goes on. -/
theorem Course.perform {acts : List Act} (hcourse : Course graph below machine)
    (hliving : machine.stage.Living) (hclosed : machine.session.store.Closed)
    (hready : ∀ id ∈ graph.order, machine.session.store.Ready id)
    (hreset : .reset ∉ machine.log acts)
    (hstays : ∀ first, first <+: acts →
      .settle graph.root :: below <:+ (machine.perform first).stack) :
    Course graph below (machine.perform acts) := by
  induction acts generalizing machine with
  | nil => exact hcourse
  | cons first rest ih =>
      rw [log, List.mem_append, not_or] at hreset
      have hchain := machine.chain_act first
      have hfirst : .settle graph.root :: below <:+ (machine.act first).stack :=
        hstays [first] (by simp)
      have habandon : first ≠ .abandon := by
        rintro rfl
        cases List.suffix_nil.mp hfirst
      refine ih ?_ (hchain.living hliving) (hchain.closed hliving hclosed) ?_ hreset.2 ?_
      · refine (hcourse.act hliving hclosed hready hreset.1 habandon).resolve_right ?_
        rintro ⟨hstack, -, rfl, -⟩
        -- the step that ends the run takes its frame from the stack
        have hlength := hfirst.length_le
        rw [Machine.act, stack_step_settle hstack] at hlength
        exact absurd hlength (by simp)
      · exact fun id hid => (hready id hid).advances (hchain.advances hliving)
          (fun ref => hchain.lookup hreset.1)
      · exact fun front hfront => hstays (first :: front) (by simpa using hfront)

/-- As long as all modules of its graph have their records, the course of a run under way is
known. -/
theorem UnderWay.course {act : Act} {after : List Act}
    (hunderWay : machine.UnderWay act after graph below) (hliving : machine.stage.Living)
    (hclosed : machine.session.store.Closed)
    (hreset : .reset ∉ (machine.act act).log after) :
    Course graph below ((machine.act act).perform after) := by
  have hchain := machine.chain_act act
  have harranged := hunderWay.starts.launches.arranged hliving hclosed
  obtain ⟨_, -, -, -, -, -, hstack⟩ := hunderWay.starts.launches.begins
  have hcourse : Course graph below (machine.act act) :=
    .among [] [] graph.order hstack rfl (fun id hid => absurd hid List.not_mem_nil)
  exact hcourse.perform (hchain.living hliving) (hchain.closed hliving hclosed) harranged.ready
    hreset hunderWay.stays

/-- Which modules a pass has visited when it is the topmost. -/
theorem Course.visited {rest : List ModuleId} (hcourse : Course graph below machine)
    (hstack : machine.stack = .pass rest :: .settle graph.root :: below) :
    ∃ visited, graph.order = visited ++ rest ∧
      ∀ id ∈ visited, machine.session.store.HasBegun id := by
  cases hcourse with
  | ended hended => cases hended.symm.trans hstack
  | among above visited others habove horder hbegun =>
      have hframes := habove.symm.trans hstack
      cases above with
      | nil =>
          cases hframes
          exact ⟨visited, horder, hbegun⟩
      | cons frame above =>
          have htail : above ++ .pass others :: .settle graph.root :: below =
              .settle graph.root :: below := (List.cons.inj hframes).2
          have hlength := congrArg List.length htail
          simp only [List.length_append, List.length_cons] at hlength
          omega

end Machine

end Linkage
