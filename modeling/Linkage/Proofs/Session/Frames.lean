import Linkage.Proofs.Runs.Launches
import Mathlib.Data.Nat.Find

/-!
# What lies below does not matter

A step works on the topmost frame and on what it puts above the rest, so it is the same whatever
frames lie below.  A run can therefore be followed by itself, as if it were all the work there is,
until it gives its reply to what lies below.

* `Machine.onto` : a machine with frames put below its own.
* `Machine.step_onto`, `Machine.stepMarks_onto` : one step.
* `Machine.after`, `Machine.after_onto` : any number of steps.
* `Machine.Yields` : the reply that a machine gives if it comes back to what lies below.
-/

namespace Linkage.Machine

/-- The machine with these frames below its own. -/
def onto (machine : Machine) (base : List Frame) : Machine :=
  { machine with stack := machine.stack ++ base }

variable (session : Session) (stack base : List Frame)

theorem enterRun_onto (root : ModuleId) :
    enterRun session (stack ++ base) root = (enterRun session stack root).onto base := by
  unfold enterRun
  cases session.attempt (Attempt.prepare root) with
  | mk result session' => cases result <;> rfl

theorem enterLegacy_onto (ref : RecordRef) :
    enterLegacy session (stack ++ base) ref = (enterLegacy session stack ref).onto base := by
  unfold enterLegacy
  cases session.attempt (Attempt.startLegacy ref) with
  | mk result session' => cases result <;> rfl

theorem enterEvaluate_onto (specifier : String) (referrer? : Option ModuleId) :
    enterEvaluate session (stack ++ base) specifier referrer? =
      (enterEvaluate session stack specifier referrer?).onto base := by
  unfold enterEvaluate
  cases session.attempt (Attempt.resolveAndRegister specifier referrer?) with
  | mk result session' =>
      cases result with
      | error error => rfl
      | ok found => exact enterRun_onto session' (.present found.1.id referrer? :: stack) base _

theorem enterRequire_onto (specifier : String) (referrer? : Option ModuleId) :
    enterRequire session (stack ++ base) specifier referrer? =
      (enterRequire session stack specifier referrer?).onto base := by
  unfold enterRequire
  cases session.attempt (Attempt.resolveAndRegister specifier referrer?) with
  | mk result session' =>
      cases result with
      | error error => rfl
      | ok found =>
          obtain ⟨resolved, ref⟩ := found
          dsimp only
          cases session'.store.record? ref with
          | none => rfl
          | some record =>
              dsimp only
              cases record.exports? with
              | none =>
                  exact enterRun_onto session' (.present record.id referrer? :: stack) base _
              | some exports =>
                  cases record.status with
                  | evaluating | evaluated | errored => rfl
                  | unlinked | linking | linked =>
                      exact enterLegacy_onto session' (.exported ref :: stack) base ref

theorem enterCommand_onto (command : Command) (save? : Option String) :
    enterCommand session (stack ++ base) command save? =
      (enterCommand session stack command save?).onto base := by
  cases command with
  | evaluate specifier referrer? =>
      exact enterEvaluate_onto session (.report _ save? :: stack) base specifier referrer?
  | require specifier referrer? =>
      exact enterRequire_onto session (.report _ save? :: stack) base specifier referrer?
  | _ => rfl

theorem enterAccess_onto {α : Type} (action : Access α) (andThen : Session → α → Session) :
    enterAccess session (stack ++ base) action andThen =
      (enterAccess session stack action andThen).onto base := by
  unfold enterAccess
  cases session.access action with
  | mk result session' => cases result <;> rfl

theorem enterInstruction_onto (ref : RecordRef) (record : Record) (instruction : Instruction) :
    enterInstruction session (stack ++ base) ref record instruction =
      (enterInstruction session stack ref record instruction).onto base := by
  fun_induction enterInstruction session stack ref record instruction with
  | case1 stack specifier => exact enterRequire_onto session stack base specifier (some record.id)
  | case2 stack specifier target =>
      exact enterRequire_onto session (.assign ref target :: stack) base specifier
        (some record.id)
  | case3 stack statement hnone hsome =>
      rw [enterInstruction]
      · exact enterAccess_onto session stack base _ _
      · exact hnone
      · exact hsome
  | case4 => rfl
  | case5 stack instruction ih =>
      rw [enterInstruction]
      exact ih
  | case7 stack name literal value session' hvalue =>
      rw [enterInstruction, hvalue]
      exact enterAccess_onto session' stack base _ _
  | case6 stack | case8 stack | case10 stack | case11 stack =>
      rw [enterInstruction]
      exact enterAccess_onto session stack base _ _
  | case9 | case12 => rfl
  | case13 stack command save? =>
      rw [enterInstruction]
      exact enterCommand_onto session stack base command save?

theorem enterModule_onto (id : ModuleId) :
    enterModule session (stack ++ base) id = (enterModule session stack id).onto base := by
  unfold enterModule
  cases session.store.lookup? id with
  | none => rfl
  | some ref =>
      cases session.store.find? id with
      | none => rfl
      | some record =>
          dsimp only
          cases record.format with
          | modern =>
              cases record.status with
              | linked =>
                  dsimp only
                  cases record.source? <;> rfl
              | _ => rfl
          | legacy =>
              cases record.status with
              | unlinked =>
                  dsimp only
                  cases session.attempt (Attempt.startLegacy ref) with
                  | mk result session' => cases result <;> rfl
              | _ => rfl

theorem enterDrain_onto :
    enterDrain session (stack ++ base) = (enterDrain session stack).onto base := by
  unfold enterDrain
  dsimp only
  split <;> rfl

/-- A step is the same whatever lies below. -/
theorem step_onto {machine : Machine} (hwork : machine.stack ≠ []) (base : List Frame) :
    (machine.onto base).step = machine.step.onto base := by
  obtain ⟨session, stack, signal⟩ := machine
  cases stack with
  | nil => exact absurd rfl hwork
  | cons frame tail =>
      unfold onto step
      cases frame with
      | pass rest =>
          cases rest with
          | nil => rfl
          | cons id rest => exact enterModule_onto session (.pass rest :: tail) base id
      | settle root =>
          rcases signal with _ | ⟨error | value⟩
          · rfl
          · rfl
          · dsimp only [List.cons_append]
            cases (session.store.find? root).bind (·.error?) <;> rfl
      | exported ref =>
          rcases signal with _ | ⟨error | value⟩
          · rfl
          · rfl
          · dsimp only [List.cons_append]
            cases session.store.record? ref with
            | none => rfl
            | some record =>
                dsimp only
                cases record.error? <;> rfl
      | body ref rest =>
          have hnext (instruction : Instruction) (rest : Program) :
              step ⟨session, .body ref (instruction :: rest) :: tail ++ base, .go⟩ =
                (step ⟨session, .body ref (instruction :: rest) :: tail, .go⟩).onto base := by
            unfold step
            dsimp only [List.cons_append]
            cases session.store.record? ref with
            | none => rfl
            | some record =>
                exact enterInstruction_onto session (.body ref rest :: tail) base ref record
                  instruction
          rcases signal with _ | ⟨error | value⟩
          · cases rest with
            | nil => rfl
            | cons instruction rest => exact hnext instruction rest
          · cases rest <;> rfl
          · cases rest with
            | nil => rfl
            | cons instruction rest => exact hnext instruction rest
      | assign ref name =>
          rcases signal with _ | ⟨error | value⟩
          · rfl
          · rfl
          · exact enterAccess_onto session tail base _ _
      | batch rest =>
          cases rest with
          | nil => rfl
          | cons pipeline rest =>
              exact enterRun_onto session (.finish pipeline :: .batch rest :: tail) base _
      | drain => exact enterDrain_onto session tail base
      | present id requester? => rcases signal with _ | ⟨error | value⟩ <;> rfl
      | «attempt» => rcases signal with _ | ⟨error | value⟩ <;> rfl
      | report command save? => rcases signal with _ | reply <;> rfl
      | finish pipeline => rcases signal with _ | ⟨error | value⟩ <;> rfl

/-- What a step notes is the same whatever lies below. -/
theorem stepMarks_onto {machine : Machine} (hwork : machine.stack ≠ []) (base : List Frame) :
    (machine.onto base).stepMarks = machine.stepMarks := by
  obtain ⟨session, stack, signal⟩ := machine
  cases stack with
  | nil => exact absurd rfl hwork
  | cons frame tail =>
      cases frame with
      | pass rest => cases rest <;> rfl
      | batch rest => cases rest <;> rfl
      | body ref rest => cases rest <;> rcases signal with _ | ⟨error | value⟩ <;> rfl
      | _ => rfl

/-! ## Taking steps -/

/-- The machine after so many steps. -/
def after (machine : Machine) (count : Nat) : Machine :=
  machine.perform (List.replicate count .step)

@[simp] theorem after_zero (machine : Machine) : machine.after 0 = machine := rfl

theorem after_succ (machine : Machine) (count : Nat) :
    machine.after (count + 1) = machine.step.after count := rfl

theorem after_succ' (machine : Machine) (count : Nat) :
    machine.after (count + 1) = (machine.after count).step := by
  unfold after
  rw [List.replicate_succ', perform_append]
  rfl

theorem after_add (machine : Machine) (count more : Nat) :
    machine.after (count + more) = (machine.after count).after more := by
  unfold after
  rw [List.replicate_add, perform_append]

/-- No module is forgotten in so many steps. -/
def Remembers (machine : Machine) (count : Nat) : Prop :=
  .reset ∉ machine.log (List.replicate count .step)

theorem remembers_succ {machine : Machine} {count : Nat} :
    machine.Remembers (count + 1) ↔
      .reset ∉ machine.stepMarks ∧ machine.step.Remembers count := by
  unfold Remembers
  rw [List.replicate_succ, log, List.mem_append, not_or]
  rfl

theorem remembers_add {machine : Machine} {count more : Nat} :
    machine.Remembers (count + more) ↔
      machine.Remembers count ∧ (machine.after count).Remembers more := by
  unfold Remembers after
  rw [List.replicate_add, log_append, List.mem_append, not_or]

/-- After so many steps the machine comes back to the frames below, and not earlier. -/
structure ComesBack (machine : Machine) (base : List Frame) (count : Nat) : Prop where
  lower : (machine.after count).stack.length ≤ base.length
  higher : ∀ taken < count, base.length < (machine.after taken).stack.length

/-- Unless modules are forgotten on the way, the machine gives this reply when it comes back to the
frames below. -/
def Yields (machine : Machine) (base : List Frame) (reply : Reply) : Prop :=
  ∀ count, machine.ComesBack base count → machine.Remembers count →
    ∃ session, machine.after count = giving session base reply

variable {machine : Machine} {base : List Frame} {reply : Reply} {count : Nat}

theorem ComesBack.step (hback : machine.ComesBack base (count + 1)) :
    machine.step.ComesBack base count :=
  ⟨hback.lower, fun taken htaken => hback.higher (taken + 1) (Nat.succ_lt_succ htaken)⟩

/-- A machine whose stack has become low enough has come back. -/
theorem exists_comesBack (hlow : (machine.after count).stack.length ≤ base.length) :
    ∃ first ≤ count, machine.ComesBack base first := by
  have hexists : ∃ taken, (machine.after taken).stack.length ≤ base.length := ⟨count, hlow⟩
  exact ⟨Nat.find hexists, Nat.find_min' hexists hlow, Nat.find_spec hexists,
    fun taken htaken => Nat.lt_of_not_le (Nat.find_min hexists htaken)⟩

/-- A machine does not come back earlier than it comes back further down. -/
theorem ComesBack.earlier (hback : machine.ComesBack base count) (frame : Frame) :
    ∃ first ≤ count, machine.ComesBack (frame :: base) first :=
  exists_comesBack (Nat.le_succ_of_le hback.lower)

/-- What lies below does not matter to how a machine comes back to it. -/
theorem after_onto (hhigher : ∀ taken < count, (machine.after taken).stack ≠ [])
    (base : List Frame) : (machine.onto base).after count = (machine.after count).onto base := by
  induction count with
  | zero => rfl
  | succ count ih =>
      rw [after_succ', ih (fun taken htaken => hhigher taken (Nat.lt_succ_of_lt htaken)),
        step_onto (hhigher count (Nat.lt_succ_self count)), ← after_succ']

theorem remembers_onto (hhigher : ∀ taken < count, (machine.after taken).stack ≠ [])
    (base : List Frame) : (machine.onto base).Remembers count ↔ machine.Remembers count := by
  induction count generalizing machine with
  | zero => exact Iff.rfl
  | succ count ih =>
      have hwork : machine.stack ≠ [] := hhigher 0 (Nat.zero_lt_succ count)
      have hrest : ∀ taken < count, (machine.step.after taken).stack ≠ [] :=
        fun taken htaken => hhigher (taken + 1) (Nat.succ_lt_succ htaken)
      rw [remembers_succ, remembers_succ, stepMarks_onto hwork, step_onto hwork, ih hrest]

theorem comesBack_onto_iff :
    (machine.onto base).ComesBack base count ↔ machine.ComesBack [] count := by
  have hwork : ∀ {machine : Machine}, base.length < (machine.onto base).stack.length →
      machine.stack ≠ [] := by
    rintro machine hlength hnil
    simp [onto, hnil] at hlength
  have hhigh : ∀ {machine : Machine}, machine.stack ≠ [] →
      base.length < (machine.onto base).stack.length := by
    intro machine hne
    have hpos := List.length_pos_iff.mpr hne
    simp only [onto, List.length_append]
    omega
  constructor
  · rintro ⟨hlower, hhigher⟩
    -- as long as the machine has work above the base it has work by itself
    have hall : ∀ taken ≤ count, ∀ earlier < taken, (machine.after earlier).stack ≠ [] := by
      intro taken htaken
      induction taken with
      | zero => exact fun _ hnone => absurd hnone (Nat.not_lt_zero _)
      | succ taken ih =>
          have hbefore := ih (Nat.le_of_succ_le htaken)
          intro earlier hearlier
          rcases Nat.lt_succ_iff_lt_or_eq.mp hearlier with hless | rfl
          · exact hbefore earlier hless
          · refine hwork ?_
            rw [← after_onto hbefore base]
            exact hhigher earlier htaken
    have hwhole := hall count (Nat.le_refl count)
    rw [after_onto hwhole base] at hlower
    refine ⟨?_, fun taken htaken => List.length_pos_iff.mpr (hwhole taken htaken)⟩
    simp only [onto, List.length_append] at hlower
    exact Nat.le_of_add_le_add_right (Nat.le_trans hlower (by simp))
  · rintro ⟨hlower, hhigher⟩
    have hwhole : ∀ taken < count, (machine.after taken).stack ≠ [] :=
      fun taken htaken => List.length_pos_iff.mp (hhigher taken htaken)
    refine ⟨?_, fun taken htaken => ?_⟩
    · rw [after_onto hwhole base]
      have hnil : (machine.after count).stack = [] :=
        List.length_eq_zero_iff.mp (Nat.le_zero.mp hlower)
      simp [onto, hnil]
    · rw [after_onto (fun earlier hearlier => hwhole earlier (Nat.lt_trans hearlier htaken)) base]
      exact hhigh (hwhole taken htaken)

/-- A machine that yields a reply by itself yields it to whatever lies below. -/
theorem Yields.onto (hyields : machine.Yields [] reply) (base : List Frame) :
    (machine.onto base).Yields base reply := by
  intro count hback hremembers
  have hback' := comesBack_onto_iff.mp hback
  have hwhole : ∀ taken < count, (machine.after taken).stack ≠ [] :=
    fun taken htaken => List.length_pos_iff.mp (hback'.higher taken htaken)
  obtain ⟨session, hended⟩ := hyields count hback' ((remembers_onto hwhole base).mp hremembers)
  refine ⟨session, ?_⟩
  rw [after_onto hwhole base, hended]
  rfl

/-- A frame that passes a reply on. -/
theorem Yields.passed {frame : Frame} {reply' : Reply}
    (hyields : machine.Yields (frame :: base) reply)
    (hpassed : ∀ session, ∃ session',
      (giving session (frame :: base) reply).step = giving session' base reply') :
    machine.Yields base reply' := by
  intro count hback hremembers
  obtain ⟨first, hfirst, hearlier⟩ := hback.earlier frame
  obtain ⟨more, rfl⟩ := Nat.exists_eq_add_of_le hfirst
  rw [remembers_add] at hremembers
  obtain ⟨session, hended⟩ := hyields first hearlier hremembers.1
  obtain ⟨session', hstep⟩ := hpassed session
  have hnext : machine.after (first + 1) = giving session' base reply' := by
    rw [after_succ', hended, hstep]
  -- the frame is still there at first, and gone one step later
  cases more with
  | zero =>
      have hlower := hback.lower
      rw [Nat.add_zero, hended] at hlower
      exact absurd hlower (Nat.not_succ_le_self _)
  | succ more =>
      cases more with
      | zero => exact ⟨session', hnext⟩
      | succ more =>
          have hhigher := hback.higher (first + 1) (by omega)
          rw [hnext] at hhigher
          exact absurd hhigher (Nat.lt_irrefl _)

/-- A machine that has given its reply. -/
theorem yields_giving (session : Session) (base : List Frame) (reply : Reply) :
    (giving session base reply).Yields base reply := by
  intro count hback _
  cases count with
  | zero => exact ⟨session, rfl⟩
  | succ count => exact absurd (hback.higher 0 (Nat.zero_lt_succ count)) (Nat.lt_irrefl _)

end Linkage.Machine
