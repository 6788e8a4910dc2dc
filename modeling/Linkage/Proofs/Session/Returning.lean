import Linkage.Proofs.Renaming.Machines

/-!
# Work that comes back

Frames that have nothing to do with pipelines leave the dynamic imports, and those who wait for
them, as they are, and when such a frame goes the one below it is given a reply.

Work is put on the stack, takes its steps, and gives its reply to what lies below.  Where it comes
back, after how many steps and with which bodies begun does not depend on what lies below, so two
pieces of work can be compared with nothing below them.

* `Machine.answers_step` : a frame that goes gives a reply.
* `Machine.Minds`, `Machine.Minds.step`, `Machine.Minds.after` : what inner work leaves alone.
* `Machine.Returns` : work that comes back with a reply.
* `Machine.startedAbove` : the bodies it has begun.
* `Machine.returns_onto_iff`, `Machine.startedAbove_onto` : what lies below does not matter.
-/

namespace Linkage

namespace Machine

/-- There is work above these frames, or they are given a reply. -/
def Answers (base : List Frame) (machine : Machine) : Prop :=
  base.length < machine.stack.length ∨ ∃ reply, machine.signal = .reply reply

variable {base : List Frame} {machine : Machine}

theorem answers_giving (session : Session) (stack : List Frame) (reply : Reply) :
    Answers base (giving session stack reply) := .inr ⟨reply, rfl⟩

theorem Answers.of_cons {frame : Frame} (hanswers : Answers (frame :: base) machine) :
    Answers base machine :=
  hanswers.imp_left (fun hhigher => Nat.lt_trans (Nat.lt_succ_self _) hhigher)

theorem answers_enterRun (session : Session) (base : List Frame) (root : ModuleId) :
    Answers base (enterRun session base root) := by
  unfold enterRun
  split
  · exact .inl (by simp only [List.length_cons]; omega)
  · exact answers_giving _ _ _

theorem answers_enterLegacy (session : Session) (base : List Frame) (ref : RecordRef) :
    Answers base (enterLegacy session base ref) := by
  unfold enterLegacy
  split
  · exact .inl (Nat.lt_succ_self _)
  · exact answers_giving _ _ _

theorem answers_enterEvaluate (session : Session) (base : List Frame) (specifier : String)
    (referrer? : Option ModuleId) :
    Answers base (enterEvaluate session base specifier referrer?) := by
  unfold enterEvaluate
  split
  · exact answers_giving _ _ _
  · exact (answers_enterRun _ (_ :: base) _).of_cons

theorem answers_enterRequire (session : Session) (base : List Frame) (specifier : String)
    (referrer? : Option ModuleId) :
    Answers base (enterRequire session base specifier referrer?) := by
  unfold enterRequire
  split
  · exact answers_giving _ _ _
  · split
    · exact answers_giving _ _ _
    · split
      · exact (answers_enterRun _ (_ :: base) _).of_cons
      · exact answers_giving _ _ _
      · exact answers_giving _ _ _
      · exact answers_giving _ _ _
      · exact (answers_enterLegacy _ (_ :: base) _).of_cons

theorem answers_enterCommand (session : Session) (base : List Frame) (command : Command)
    (save? : Option String) : Answers base (enterCommand session base command save?) := by
  cases command with
  | evaluate specifier referrer? =>
      exact (answers_enterEvaluate session (_ :: base) specifier referrer?).of_cons
  | require specifier referrer? =>
      exact (answers_enterRequire session (_ :: base) specifier referrer?).of_cons
  | _ => exact answers_giving _ _ _

theorem answers_enterAccess {α : Type} (session : Session) (base : List Frame) (action : Access α)
    (andThen : Session → α → Session) :
    Answers base (enterAccess session base action andThen) := by
  unfold enterAccess
  split <;> exact answers_giving _ _ _

theorem answers_enterInstruction (session : Session) (base : List Frame) (ref : RecordRef)
    (record : Record) (instruction : Instruction) :
    Answers base (enterInstruction session base ref record instruction) := by
  fun_induction enterInstruction session base ref record instruction with
  | case1 base specifier => exact answers_enterRequire session base specifier (some record.id)
  | case2 base specifier target =>
      exact (answers_enterRequire session (_ :: base) specifier (some record.id)).of_cons
  | case5 base instruction ih => exact ih.of_cons
  | case7 base name literal value session' hvalue => exact answers_enterAccess _ _ _ _
  | case3 base | case6 base | case8 base | case10 base | case11 base =>
      exact answers_enterAccess _ _ _ _
  | case4 | case9 | case12 => exact answers_giving _ _ _
  | case13 base command save? => exact answers_enterCommand session base command save?

/-- When an inner frame goes, what lies below it is given a reply. -/
theorem answers_step {frame : Frame} (hinner : frame.isInner = true)
    (hstack : machine.stack = frame :: base) : Answers base machine.step := by
  obtain ⟨session, stack, signal⟩ := machine
  subst hstack
  cases frame with
  | batch | finish | drain => cases hinner
  | pass rest =>
      cases rest with
      | nil => exact answers_giving _ _ _
      | cons id rest =>
          refine .inl ?_
          have hsuffix := (enters_module session (.pass rest :: base) id).suffix.length_le
          exact Nat.lt_of_lt_of_le (Nat.lt_succ_self _) hsuffix
  | settle root =>
      rcases signal with _ | ⟨error | value⟩
      · exact answers_giving _ _ _
      · exact answers_giving _ _ _
      · unfold step
        dsimp only
        split <;> exact answers_giving _ _ _
  | exported ref =>
      rcases signal with _ | ⟨error | value⟩
      · exact answers_giving _ _ _
      · exact answers_giving _ _ _
      · unfold step
        dsimp only
        split
        · exact answers_giving _ _ _
        · split <;> exact answers_giving _ _ _
  | body ref rest =>
      have hnext (instruction : Instruction) (rest : Program) :
          Answers base (step ⟨session, .body ref (instruction :: rest) :: base, .go⟩) := by
        unfold step
        dsimp only
        split
        · exact answers_giving _ _ _
        · exact (answers_enterInstruction session (_ :: base) ref _ instruction).of_cons
      rcases signal with _ | ⟨error | value⟩
      · cases rest with
        | nil => exact answers_giving _ _ _
        | cons instruction rest => exact hnext instruction rest
      · cases rest <;> exact answers_giving _ _ _
      · cases rest with
        | nil => exact answers_giving _ _ _
        | cons instruction rest => exact hnext instruction rest
  | assign ref name =>
      rcases signal with _ | ⟨error | value⟩
      · exact answers_giving _ _ _
      · exact answers_giving _ _ _
      · exact answers_enterAccess session base _ _
  | present id requester? =>
      rcases signal with _ | ⟨error | value⟩ <;> exact answers_giving _ _ _
  | «attempt» => rcases signal with _ | reply <;> exact answers_giving _ _ _
  | report command save? => rcases signal with _ | reply <;> exact answers_giving _ _ _

/-! ## What inner work leaves alone -/

/-- There is only inner work above these frames, or they are given a reply; the dynamic imports and
those who wait for them are these. -/
structure Minds (machine : Machine) (base : List Frame) (imports : Imports)
    (waiters : List Waiter) : Prop where
  imports : machine.session.engine.imports = imports
  waiters : machine.session.waiters = waiters
  stack : ∃ above, Inner above ∧ machine.stack = above ++ base ∧
    (above = [] → ∃ reply, machine.signal = .reply reply)

variable {imports : Imports} {waiters : List Waiter}

/-- Work that mirrors itself minds what lies below. -/
theorem Mirrors.minds {base' : List Frame}
    (hmirrors : Mirrors .same imports imports waiters waiters base base' machine machine)
    (hanswers : Answers base machine) : machine.Minds base imports waiters := by
  obtain ⟨hsession, ⟨above, habove, hstack, -⟩, -⟩ := hmirrors
  refine ⟨hsession.engine.imports_left, hsession.waiters_left, above, habove, hstack, ?_⟩
  rintro rfl
  exact hanswers.resolve_left (by simp [hstack])

theorem minds_enterRun (session : Session) (base : List Frame) (root : ModuleId) :
    (enterRun session base root).Minds base session.engine.imports session.waiters :=
  (mirrors_enterRun (.refl session) (nofun : Inner []) root).minds
    (answers_enterRun session base root)

theorem minds_enterEvaluate (session : Session) (base : List Frame) (specifier : String)
    (referrer? : Option ModuleId) :
    (enterEvaluate session base specifier referrer?).Minds base session.engine.imports
      session.waiters :=
  (mirrors_enterEvaluate (.refl session) (nofun : Inner []) specifier referrer?).minds
    (answers_enterEvaluate session base specifier referrer?)

theorem minds_enterRequire (session : Session) (base : List Frame) (specifier : String)
    (referrer? : Option ModuleId) :
    (enterRequire session base specifier referrer?).Minds base session.engine.imports
      session.waiters :=
  (mirrors_enterRequire (.refl session) (nofun : Inner []) specifier referrer?).minds
    (answers_enterRequire session base specifier referrer?)

theorem Minds.step (hminds : machine.Minds base imports waiters)
    (hhigher : base.length < machine.stack.length) : machine.step.Minds base imports waiters := by
  obtain ⟨himports, hwaiters, above, habove, hstack, -⟩ := hminds
  have hself : Mirrors .same imports imports waiters waiters base base machine machine := by
    refine ⟨?_, ⟨above, habove, hstack, ?_⟩, ?_⟩
    · rw [← himports, ← hwaiters]
      exact .refl machine.session
    · rw [hstack, Frame.rename_same, List.map_id']
    · cases hsignal : machine.signal with
      | go => rfl
      | reply reply => cases reply <;> simp [Signal.rename, Except.map]
  refine (hself.step hhigher).minds ?_
  cases above with
  | nil => exact absurd hhigher (by simp [hstack])
  | cons frame above =>
      obtain ⟨hinner, -⟩ : frame.isInner = true ∧ Inner above := List.forall_mem_cons.mp habove
      rcases answers_step hinner hstack with hlonger | hreply
      · refine .inl (Nat.lt_of_le_of_lt ?_ hlonger)
        simp
      · exact .inr hreply

theorem Minds.after {count : Nat} (hminds : machine.Minds base imports waiters)
    (hhigher : ∀ taken < count, base.length < (machine.after taken).stack.length) :
    (machine.after count).Minds base imports waiters := by
  induction count with
  | zero => exact hminds
  | succ count ih =>
      rw [after_succ']
      exact (ih (fun taken htaken => hhigher taken (Nat.lt_succ_of_lt htaken))).step
        (hhigher count (Nat.lt_succ_self count))

/-- Inner work that has gone has given a reply. -/
theorem Minds.given {count : Nat} (hminds : machine.Minds base imports waiters)
    (hback : machine.ComesBack base count) :
    ∃ session reply, machine.after count = giving session base reply ∧
      session.engine.imports = imports ∧ session.waiters = waiters := by
  obtain ⟨himports, hwaiters, above, -, hstack, hreply⟩ := hminds.after hback.higher
  have hlower := hback.lower
  rw [hstack, List.length_append] at hlower
  obtain rfl : above = [] := List.length_eq_zero_iff.mp (by omega)
  obtain ⟨reply, hsignal⟩ := hreply rfl
  refine ⟨(machine.after count).session, reply, ?_, himports, hwaiters⟩
  generalize machine.after count = ended at hstack hsignal
  obtain ⟨session, stack, signal⟩ := ended
  dsimp only at hstack hsignal
  subst hstack hsignal
  rfl

end Machine

/-! ## Work that comes back -/

namespace Machine

/-- After so many steps, and not earlier, the machine gives this reply to the frames below, and no
module has been forgotten on the way. -/
structure Returns (machine : Machine) (base : List Frame) (count : Nat) (session : Session)
    (reply : Reply) : Prop where
  back : machine.ComesBack base count
  remembers : machine.Remembers count
  gives : machine.after count = giving session base reply

/-- The bodies that have begun above these frames after so many steps, in order: those that were
put on the stack at first and those that the steps have begun. -/
def startedAbove (machine : Machine) (base : List Frame) (count : Nat) : List RecordRef :=
  beyond (base.filterMap Frame.running?).reverse machine.running.reverse ++
    machine.bodies (List.replicate count .step)

variable {machine : Machine} {upper base : List Frame} {count more : Nat}
  {session session' : Session} {reply reply' : Reply}

theorem ComesBack.unique {count' : Nat} (hback : machine.ComesBack base count)
    (hback' : machine.ComesBack base count') : count' = count := by
  rcases Nat.lt_trichotomy count count' with hless | heq | hgreater
  · exact absurd hback.lower (Nat.not_le_of_lt (hback'.higher count hless))
  · exact heq.symm
  · exact absurd hback'.lower (Nat.not_le_of_lt (hback.higher count' hgreater))

theorem comesBack_zero (hlower : machine.stack.length ≤ base.length) : machine.ComesBack base 0 :=
  ⟨hlower, fun _ hnone => absurd hnone (Nat.not_lt_zero _)⟩

/-- Work comes back once. -/
theorem Returns.unique {count' : Nat} (hreturns : machine.Returns base count session reply)
    (hreturns' : machine.Returns base count' session' reply') :
    count' = count ∧ session' = session ∧ reply' = reply := by
  obtain rfl := hreturns.back.unique hreturns'.back
  have hsame := hreturns'.gives.symm.trans hreturns.gives
  unfold giving at hsame
  simp only [Machine.mk.injEq, Signal.reply.injEq] at hsame
  exact ⟨rfl, hsame.1, hsame.2.2⟩

theorem returns_giving (session : Session) (base : List Frame) (reply : Reply) :
    (giving session base reply).Returns base 0 session reply :=
  ⟨comesBack_zero (Nat.le_refl _), List.not_mem_nil, rfl⟩

/-- Work that comes back after a step comes back. -/
theorem Returns.head {machine' : Machine} (hhigher : base.length < machine.stack.length)
    (hreset : .reset ∉ machine.stepMarks) (hstep : machine.step = machine')
    (hreturns : machine'.Returns base count session reply) :
    machine.Returns base (count + 1) session reply := by
  subst hstep
  refine ⟨⟨hreturns.back.lower, fun taken htaken => ?_⟩, remembers_succ.mpr ⟨hreset,
    hreturns.remembers⟩, hreturns.gives⟩
  cases taken with
  | zero => exact hhigher
  | succ taken => exact hreturns.back.higher taken (Nat.lt_of_succ_lt_succ htaken)

/-- Unless it has come back already, work that comes back does so after a step. -/
theorem Returns.tail (hreturns : machine.Returns base count session reply)
    (hhigher : base.length < machine.stack.length) :
    ∃ rest, count = rest + 1 ∧ .reset ∉ machine.stepMarks ∧
      machine.step.Returns base rest session reply := by
  cases count with
  | zero => exact absurd hreturns.back.lower (Nat.not_le_of_lt hhigher)
  | succ rest =>
      obtain ⟨hreset, hremembers⟩ := remembers_succ.mp hreturns.remembers
      exact ⟨rest, rfl, hreset, hreturns.back.step, hremembers, hreturns.gives⟩

/-- What lies below does not matter to work that comes back. -/
theorem returns_onto_iff :
    (machine.onto base).Returns base count session reply ↔
      machine.Returns [] count session reply := by
  have hsame (hback : machine.ComesBack [] count) :
      ∀ taken < count, (machine.after taken).stack ≠ [] :=
    fun taken htaken => List.length_pos_iff.mp (hback.higher taken htaken)
  constructor
  · rintro ⟨hback, hremembers, hgives⟩
    have hback' := comesBack_onto_iff.mp hback
    refine ⟨hback', (remembers_onto (hsame hback') base).mp hremembers, ?_⟩
    rw [after_onto (hsame hback') base] at hgives
    have hstack : (machine.after count).stack = [] :=
      List.length_eq_zero_iff.mp (Nat.le_zero.mp hback'.lower)
    generalize machine.after count = ended at hgives hstack
    obtain ⟨session', stack, signal⟩ := ended
    dsimp only at hstack
    subst hstack
    obtain ⟨rfl, -, rfl⟩ := Machine.mk.inj hgives
    rfl
  · rintro ⟨hback, hremembers, hgives⟩
    refine ⟨comesBack_onto_iff.mpr hback, (remembers_onto (hsame hback) base).mpr hremembers, ?_⟩
    rw [after_onto (hsame hback) base, hgives]
    rfl

/-- Work that comes back to some frames, which then come back further down. -/
theorem Returns.trans (hlength : base.length ≤ upper.length)
    (hreturns : machine.Returns upper count session reply)
    (hreturns' : (giving session upper reply).Returns base more session' reply') :
    machine.Returns base (count + more) session' reply' := by
  refine ⟨⟨?_, fun taken htaken => ?_⟩, remembers_add.mpr ⟨hreturns.remembers, ?_⟩, ?_⟩
  · rw [after_add, hreturns.gives]
    exact hreturns'.back.lower
  · rcases Nat.lt_or_ge taken count with hless | hgreater
    · exact Nat.lt_of_le_of_lt hlength (hreturns.back.higher taken hless)
    · obtain ⟨later, rfl⟩ := Nat.exists_eq_add_of_le hgreater
      rw [after_add, hreturns.gives]
      exact hreturns'.back.higher later (Nat.lt_of_add_lt_add_left htaken)
  · rw [hreturns.gives]
    exact hreturns'.remembers
  · rw [after_add, hreturns.gives]
    exact hreturns'.gives

/-- Work that comes back further down has come back to the frames above before. -/
theorem Returns.through (hreturns : machine.Returns base count session reply)
    (hlength : base.length ≤ upper.length) :
    ∃ first more, machine.ComesBack upper first ∧ machine.Remembers first ∧
      ∀ session' reply', machine.after first = giving session' upper reply' →
        (giving session' upper reply').Returns base more session reply := by
  have hlow : (machine.after count).stack.length ≤ upper.length :=
    Nat.le_trans hreturns.back.lower hlength
  obtain ⟨first, hfirst, hback⟩ := exists_comesBack hlow
  obtain ⟨more, rfl⟩ := Nat.exists_eq_add_of_le hfirst
  obtain ⟨hremembers, hlater⟩ := remembers_add.mp hreturns.remembers
  refine ⟨first, more, hback, hremembers, fun session' reply' hgives => ?_⟩
  rw [hgives] at hlater
  have hgives' := hreturns.gives
  rw [after_add, hgives] at hgives'
  refine ⟨⟨?_, fun taken htaken => ?_⟩, hlater, hgives'⟩
  · rw [hgives']
    exact Nat.le_refl _
  · have hhigher := hreturns.back.higher (first + taken) (Nat.add_lt_add_left htaken first)
    rwa [after_add, hgives] at hhigher

/-! ## The bodies that begin -/

theorem bodies_append (machine : Machine) (acts others : List Act) :
    machine.bodies (acts ++ others) = machine.bodies acts ++ (machine.perform acts).bodies others := by
  induction acts generalizing machine with
  | nil => rfl
  | cons first rest ih =>
      rw [List.cons_append, bodies, ih, bodies, List.append_assoc]
      rfl

theorem bodies_replicate_add (machine : Machine) (count more : Nat) :
    machine.bodies (List.replicate (count + more) .step) =
      machine.bodies (List.replicate count .step) ++
        (machine.after count).bodies (List.replicate more .step) := by
  rw [List.replicate_add, bodies_append]
  rfl

theorem bodies_replicate_succ (machine : Machine) (count : Nat) :
    machine.bodies (List.replicate (count + 1) .step) =
      machine.begins .step ++ machine.step.bodies (List.replicate count .step) := rfl

theorem running_onto (machine : Machine) (base : List Frame) :
    (machine.onto base).running.reverse =
      (base.filterMap Frame.running?).reverse ++ machine.running.reverse := by
  show ((machine.stack ++ base).filterMap Frame.running?).reverse = _
  rw [List.filterMap_append, List.reverse_append]
  rfl

theorem begins_onto (hwork : machine.stack ≠ []) (base : List Frame) :
    (machine.onto base).begins .step = machine.begins .step := by
  show beyond (machine.onto base).running.reverse (machine.onto base).step.running.reverse = _
  rw [step_onto hwork, running_onto, running_onto, beyond_append]
  rfl

/-- The bodies that begin are the same whatever lies below. -/
theorem bodies_onto (hhigher : ∀ taken < count, (machine.after taken).stack ≠ [])
    (base : List Frame) :
    (machine.onto base).bodies (List.replicate count .step) =
      machine.bodies (List.replicate count .step) := by
  induction count generalizing machine with
  | zero => rfl
  | succ count ih =>
      have hwork : machine.stack ≠ [] := hhigher 0 (Nat.zero_lt_succ count)
      have hrest : (machine.step.onto base).bodies (List.replicate count .step) = _ :=
        ih (fun taken htaken => hhigher (taken + 1) (Nat.succ_lt_succ htaken))
      rw [bodies_replicate_succ, bodies_replicate_succ, begins_onto hwork, step_onto hwork, hrest]

theorem startedAbove_onto (hback : machine.ComesBack [] count) (base : List Frame) :
    (machine.onto base).startedAbove base count = machine.startedAbove [] count := by
  unfold startedAbove
  rw [running_onto, bodies_onto (fun taken htaken => List.length_pos_iff.mp
    (hback.higher taken htaken))]
  have hbeyond := beyond_append (base.filterMap Frame.running?).reverse [] machine.running.reverse
  rw [List.append_nil] at hbeyond
  rw [hbeyond]
  rfl

theorem beyond_self (running : List RecordRef) : beyond running running = [] := by
  have hnone := beyond_append running [] []
  rwa [List.append_nil] at hnone

/-- A step is taken before any body has begun. -/
theorem startedAbove_head {machine' : Machine}
    (hrunning : machine.running = base.filterMap Frame.running?)
    (hstep : machine.step = machine') (count : Nat) :
    machine.startedAbove base (count + 1) = machine'.startedAbove base count := by
  subst hstep
  unfold startedAbove
  rw [bodies_replicate_succ, hrunning, beyond_self, ← hrunning]
  rfl

/-- Work comes back to frames above which no body runs, and then further down. -/
theorem startedAbove_trans (hgives : machine.after count = giving session upper reply)
    (hrunning : upper.filterMap Frame.running? = base.filterMap Frame.running?) (more : Nat) :
    machine.startedAbove base (count + more) = machine.startedAbove upper count ++
      (giving session upper reply).startedAbove base more := by
  have hnone : beyond (base.filterMap Frame.running?).reverse
      (giving session upper reply).running.reverse = [] := by
    show beyond _ (upper.filterMap Frame.running?).reverse = []
    rw [hrunning, beyond_self]
  unfold startedAbove
  rw [hrunning, hnone, bodies_replicate_add, hgives, List.append_assoc]
  rfl

end Machine

end Linkage
