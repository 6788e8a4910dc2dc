import Linkage.Proofs.Runs.Turns

/-!
# Nothing is left half way

When no work is left, every module is unlinked or settled, and at the end of an outermost run every
module of its graph is settled, whichever bodies have failed.  The run fails exactly if the body of
its root has failed, with the error that the record shows.

* `Record.ErrorsFrom`, `Change.error_back` : where the errors of a record come from.
* `Record.Tells`, `Chain.tells` : what errors say of statuses.
* `Machine.Completes` : a run that began with an act ends with another.
* `Machine.outermost_work_settles` : what is left when no work is.
-/

namespace Linkage

/-- A record shows an error exactly if its body has failed. -/
def Record.Tells (record : Record) : Prop :=
  record.error?.isSome = true ↔ record.status = .errored

/-- Where the errors of a record come from: a fresh record has none, a body that fails brings one, and
any other record has those it had, and has failed if it had. -/
inductive Record.ErrorsFrom (store : Store) (ref : RecordRef) (record' : Record) : Prop
  | fresh (hnone : store.record? ref = none) (hfresh : record'.IsFresh)
  | kept {record : Record} (hrecord : store.record? ref = some record)
      (herror : record'.error? = record.error?) (hpoison : record'.poison? = record.poison?)
      (hstatus : record'.status = .errored ↔ record.status = .errored)
  | failed {record : Record} (hrecord : store.record? ref = some record)
      (hevaluating : record.status = .evaluating) (error : ModuleError)
      (heq : record' = record.fail error)

/-- A body that begins or ends changes only the record it belongs to. -/
theorem Record.ErrorsFrom.of_modify {store : Store} {changed ref : RecordRef}
    {f : Record → Record} {record' : Record}
    (hchanged : ∀ record, store.record? changed = some record →
      Record.ErrorsFrom store changed (f record))
    (hrecord' : (store.modify changed f).record? ref = some record') :
    Record.ErrorsFrom store ref record' := by
  rw [Store.record?_modify] at hrecord'
  split at hrecord'
  · rename_i heq
    subst heq
    obtain ⟨record, hrecord, rfl⟩ := Option.map_eq_some_iff.mp hrecord'
    exact hchanged record hrecord
  · exact .kept hrecord' rfl rfl Iff.rfl

namespace Change

variable {stage stage' : Stage} {marks : List Mark}

/-- Where the errors of a record come from after a change. -/
theorem error_back (hchange : Change stage marks stage') (hliving : stage.Living)
    {ref : RecordRef} {record' : Record} (hrecord' : stage'.store.record? ref = some record') :
    Record.ErrorsFrom stage.store ref record' := by
  cases hchange with
  | touch htouch =>
      rcases htouch.record_back hrecord' with ⟨record, hrecord, htouched⟩ | ⟨hnone, hfresh⟩
      · exact .kept hrecord htouched.error htouched.poison (by rw [htouched.status])
      · exact .fresh hnone hfresh
  | declare href hnew howner =>
      rw [Store.record?_declare] at hrecord'
      split at hrecord'
      · obtain ⟨record, hrecord, rfl⟩ := Option.map_eq_some_iff.mp hrecord'
        exact .kept hrecord rfl rfl Iff.rfl
      · exact .kept hrecord' rfl rfl Iff.rfl
  | link hspans =>
      have hnodup := Store.nodup_pendingLinks hliving.named hspans.nodup
      rename_i store order
      cases hrecord : store.record? ref with
      | none => simp [(Store.rebinds_link store order).none ref hrecord] at hrecord'
      | some record =>
          rcases Store.link_record hnodup hrecord with ⟨-, hkept⟩ | ⟨hpending, _, hended⟩
          · obtain rfl := Option.some.inj (hkept.symm.trans hrecord')
            exact .kept hrecord rfl rfl Iff.rfl
          · obtain ⟨_, -, found, hregistered, -, hunlinked⟩ :=
              Store.mem_pendingLinks.mp hpending
            obtain rfl := Option.some.inj (hregistered.record.symm.trans hrecord)
            obtain rfl := Option.some.inj (hended.symm.trans hrecord')
            refine .kept hrecord rfl rfl (iff_of_false ?_ (by simp [hunlinked]))
            cases (store.link order).1 <;> exact nofun
  | beginModern hrecord hmodern hlinked hsource =>
      refine .of_modify (fun record hfound => ?_) hrecord'
      obtain rfl := Option.some.inj (hfound.symm.trans hrecord)
      exact .kept hrecord rfl rfl (iff_of_false nofun (by simp [hlinked]))
  | beginLegacy hrecord hlegacy hstatus hsettled hanalysis hsource =>
      refine .of_modify (fun record hfound => ?_) hrecord'
      obtain rfl := Option.some.inj (hfound.symm.trans hrecord)
      refine .kept hrecord rfl rfl (iff_of_false nofun (fun herrored => ?_))
      rw [herrored] at hsettled
      cases hsettled
  | finish =>
      refine .of_modify (fun record hfound => ?_) hrecord'
      have hevaluating := (Store.statuses_of_record hfound).symm.trans
        (hliving.running _ List.mem_cons_self)
      exact .kept hfound rfl rfl (iff_of_false nofun (by simp [hevaluating]))
  | fail error =>
      refine .of_modify (fun record hfound => ?_) hrecord'
      have hevaluating := (Store.statuses_of_record hfound).symm.trans
        (hliving.running _ List.mem_cons_self)
      exact .failed hfound hevaluating _ rfl
  | await | resume | absent | abandon | reset => exact .kept hrecord' rfl rfl Iff.rfl

theorem tells (hchange : Change stage marks stage') (hliving : stage.Living)
    (htells : ∀ ref record, stage.store.record? ref = some record → record.Tells)
    {ref : RecordRef} {record' : Record} (hrecord' : stage'.store.record? ref = some record') :
    record'.Tells := by
  cases hchange.error_back hliving hrecord' with
  | fresh _ hfresh =>
      obtain ⟨id, value?, rfl⟩ := hfresh
      exact iff_of_false nofun nofun
  | kept hrecord herror _ hstatus =>
      rw [Record.Tells, herror, hstatus]
      exact htells ref _ hrecord
  | failed _ _ _ heq =>
      subst heq
      exact iff_of_true rfl rfl

end Change

theorem Chain.tells {stage stage' : Stage} {marks : List Mark} (hchain : Chain stage marks stage')
    (hliving : stage.Living)
    (htells : ∀ ref record, stage.store.record? ref = some record → record.Tells) :
    ∀ ref record, stage'.store.record? ref = some record → record.Tells := by
  induction hchain with
  | refl => exact htells
  | tail hbefore hchange ih =>
      exact fun _ _ hrecord => hchange.tells (hbefore.living hliving) ih hrecord

namespace Machine

variable {machine : Machine} {graph : Graph} {below : List Frame}

theorem tells_perform (place : Place) (config : Config) (acts : List Act) :
    ∀ ref record, ((new place config).perform acts).session.store.record? ref = some record →
      record.Tells := by
  refine ((new place config).chain_perform acts).tells (living_new place config)
    (fun ref record hrecord => ?_)
  cases hrecord

/-- Once no work is left, no module is half way. -/
theorem Attends.ended (hattends : machine.Attends) (hliving : machine.stage.Living)
    (hstack : machine.stack = []) {id : ModuleId} {ref : RecordRef} {record : Record}
    (hregistered : machine.session.store.Registered id ref record) :
    record.status = .unlinked ∨ record.status.isSettled = true := by
  obtain ⟨hlinking, hlegacy⟩ := hliving.possible ref record hregistered.record
  have hrunning : machine.running = [] := by
    show machine.stack.filterMap Frame.running? = []
    rw [hstack]
    rfl
  by_cases hbegun : record.status.hasBegun = true
  · obtain ⟨_, _, hfound, hsettled⟩ := hattends.settled hrunning ⟨ref, record, hregistered, hbegun⟩
    obtain ⟨-, rfl⟩ := hregistered.unique hfound
    exact .inr hsettled
  · refine .inl ?_
    -- a linked module is a modern one and would be due
    have hlinked : record.status ≠ .linked := by
      intro hlinked
      have hmodern : record.format = .modern := by
        cases hformat : record.format with
        | modern => rfl
        | legacy => exact absurd hlinked (hlegacy hformat)
      obtain ⟨hserved, -⟩ := hattends.served id ref record hregistered hmodern
        (by rw [hlinked]; rfl)
      rw [due, hstack] at hserved
      obtain ⟨_, _, hfound, hstatus⟩ := hserved.resolve_right List.not_mem_nil
      obtain ⟨-, rfl⟩ := hregistered.unique hfound
      exact hbegun hstatus
    cases hstatus : record.status <;> simp_all [Status.hasBegun]

/-- A run that began with one act ends with another. -/
structure Completes (machine : Machine) (act : Act) (after : List Act) (last : Act)
    (graph : Graph) (below : List Frame) : Prop where
  underWay : machine.UnderWay act after graph below
  ends : ¬ .settle graph.root :: below <:+ (((machine.act act).perform after).act last).stack

/-- A run completes with the step after which the stack is no higher than what lies below it. -/
theorem Starts.completes {act : Act} {count : Nat}
    (hstarts : machine.Starts graph below (machine.act act))
    (hhigher : ∀ taken ≤ count, below.length <
      ((machine.act act).perform (List.replicate taken .step)).stack.length)
    (hlower : (((machine.act act).perform (List.replicate count .step)).act .step).stack.length ≤
      below.length) :
    machine.Completes act (List.replicate count .step) .step graph below := by
  refine ⟨hstarts.underWay hhigher, fun hsuffix => ?_⟩
  have hlength := hsuffix.length_le.trans hlower
  exact absurd hlength (by simp)

/-- What a run gives when its pass is over. -/
theorem step_settle {root : ModuleId} (hstack : machine.stack = .settle root :: below)
    (hsignal : machine.signal = .reply .done) : ∃ reply,
      machine.step = giving machine.session below reply ∧
      ∀ error, reply = .error error ↔
        (machine.session.store.find? root).bind (·.error?) = some error := by
  obtain ⟨session, stack, signal⟩ := machine
  dsimp only at hstack hsignal
  subst hstack hsignal
  unfold step Reply.done
  dsimp only
  cases (session.store.find? root).bind (·.error?) with
  | none => exact ⟨_, rfl, fun error => iff_of_false nofun nofun⟩
  | some found => exact ⟨_, rfl, fun error => by simp⟩

/-- The act that ends a run is the step that takes its frame from the stack. -/
theorem Completes.ended {act last : Act} {after : List Act}
    (hcompletes : machine.Completes act after last graph below) (hliving : machine.stage.Living)
    (hclosed : machine.session.store.Closed)
    (hreset : .reset ∉ (machine.act act).log (after ++ [last])) (hlast : last ≠ .abandon) :
    ((machine.act act).perform after).stack = .settle graph.root :: below ∧
      ((machine.act act).perform after).signal = .reply .done ∧ last = .step ∧
      ∀ id ∈ graph.order, ((machine.act act).perform after).session.store.HasBegun id := by
  rw [Machine.log_append, List.mem_append, not_or] at hreset
  obtain ⟨hbefore, hafter⟩ := hreset
  have hbegins := machine.chain_act act
  have hchain := (machine.act act).chain_perform after
  have hliving' := hbegins.living hliving
  have hclosed' := hbegins.closed hliving hclosed
  have hready : ∀ id ∈ graph.order,
      ((machine.act act).perform after).session.store.Ready id := fun id hid =>
    ((hcompletes.underWay.starts.launches.arranged hliving hclosed).ready id hid).advances
      (hchain.advances hliving') (fun _ => hchain.lookup hbefore)
  have hmarks : .reset ∉ ((machine.act act).perform after).marks last := by
    simpa [log] using hafter
  rcases (hcompletes.underWay.course hliving hclosed hbefore).act (hchain.living hliving')
      (hchain.closed hliving' hclosed') hready hmarks hlast with
    hcourse | ⟨hstack, hsignal, hstep, hbegun⟩
  · exact absurd hcourse.suffix hcompletes.ends
  · exact ⟨hstack, hsignal, hstep, hbegun⟩

/-- **Whatever is asked of an engine from outside, once no work is left every module is unlinked,
evaluated or errored.**  When an outermost run that began with its graph linked ends, all modules of
the graph are settled, and it fails exactly if the body of its root has failed, with the error that
the record shows.  No work may have been given up, and the run may not forget all modules. -/
theorem outermost_work_settles (place : Place) (config : Config) :
    let start := new place config
    (∀ acts, .abandon ∉ acts → (start.perform acts).isDone = true →
      ∀ id ref record, (start.perform acts).session.store.Registered id ref record →
        record.status = .unlinked ∨ record.status = .evaluated ∨ record.status = .errored) ∧
    ∀ before act after last graph below, .abandon ∉ before ++ act :: after ++ [last] →
      Idle below → (start.perform before).Completes act after last graph below →
      .reset ∉ ((start.perform before).act act).log (after ++ [last]) →
      let final := (((start.perform before).act act).perform after).act last
      (∀ id ∈ graph.order, ∃ ref record, final.session.store.Registered id ref record ∧
        (record.status = .evaluated ∨ record.status = .errored)) ∧
      ∃ reply, final.stack = below ∧ final.signal = .reply reply ∧
        ∀ error, reply = .error error ↔ ∃ ref record,
          final.session.store.Registered graph.root ref record ∧ record.status = .errored ∧
            record.error? = some error := by
  intro start
  have hsettled : ∀ {status : Status}, status.isSettled = true →
      status = .evaluated ∨ status = .errored := by
    intro status hstatus
    cases status <;> simp_all [Status.isSettled]
  refine ⟨?_, ?_⟩
  · intro acts habandon hdone id ref record hregistered
    have hstack : (start.perform acts).stack = [] := by simpa [isDone] using hdone
    exact ((attends_perform place config habandon).ended (living_perform place config acts) hstack
      hregistered).imp_right hsettled
  · intro before act after last graph below habandon hidle hcompletes hreset final
    have hliving := living_perform place config before
    have hclosed := closed_perform place config before
    have hlast : last ≠ .abandon := by
      rintro rfl
      exact habandon (by simp)
    obtain ⟨hstack, hsignal, rfl, hbegun⟩ := hcompletes.ended hliving hclosed hreset hlast
    have hbody : (start.perform (before ++ act :: after)) =
        ((start.perform before).act act).perform after := perform_append start before (act :: after)
    have hattends : (((start.perform before).act act).perform after).Attends := by
      rw [← hbody]
      exact attends_perform place config (fun hmem => habandon (by simp_all))
    have htells := tells_perform place config (before ++ act :: after)
    rw [show (new place config).perform (before ++ act :: after) = _ from hbody] at htells
    obtain ⟨reply, hended, hreply⟩ := step_settle hstack hsignal
    have hfinal : final = giving (((start.perform before).act act).perform after).session below
        reply := hended
    rw [hfinal]
    refine ⟨fun id hid => ?_, reply, rfl, rfl, fun error => (hreply error).trans ?_⟩
    · have hrunning : (((start.perform before).act act).perform after).running = [] := by
        show List.filterMap Frame.running? (Machine.stack _) = []
        rw [hstack]
        exact hidle.running
      obtain ⟨ref, record, hregistered, hstatus⟩ := hattends.settled hrunning (hbegun id hid)
      exact ⟨ref, record, hregistered, hsettled hstatus⟩
    · constructor
      · intro hfound
        obtain ⟨record, hfind, herror⟩ := Option.bind_eq_some_iff.mp hfound
        obtain ⟨ref, hregistered⟩ := Store.exists_registered_of_find hfind
        exact ⟨ref, record, hregistered,
          (htells ref record hregistered.record).mp (by rw [herror]; rfl), herror⟩
      · rintro ⟨ref, record, hregistered, -, herror⟩
        exact Option.bind_eq_some_iff.mpr ⟨record, hregistered.find, herror⟩

/-- The run of the upper module succeeds although the body of the lower one fails. -/
theorem outermost_work_settles_stairs :
    let begun := (new (.shelf stairs) .standard).act stairsBegun
    let final := (begun.perform (List.replicate 6 .step)).act .step
    (∃ ref record, final.session.store.Registered (.ofPath "/lower.mjs") ref record ∧
      (record.status = .evaluated ∨ record.status = .errored)) ∧
    (∃ reply, final.signal = .reply reply ∧ ∀ error, reply ≠ .error error) ∧
    ∀ id ref record, ((new (.shelf stairs) .standard).perform
      (stairsBegun :: List.replicate 8 .step)).session.store.Registered id ref record →
      record.status = .unlinked ∨ record.status = .evaluated ∨ record.status = .errored := by
  intro begun final
  obtain ⟨graph, hroot, horder, -, hstarts⟩ := stairs_starts
  have hhigher : ∀ taken ≤ 6, 1 < (begun.perform (List.replicate taken .step)).stack.length := by
    decide +kernel
  have hlower : final.stack.length ≤ 1 := by decide +kernel
  have hreset : .reset ∉ begun.log (List.replicate 6 .step ++ [.step]) := by decide +kernel
  have hdone : ((new (.shelf stairs) .standard).perform
      (stairsBegun :: List.replicate 8 .step)).isDone = true := by decide +kernel
  have hupper : (final.session.store.find? (.ofPath "/upper.mjs")).map (·.status) =
      some .evaluated := by decide +kernel
  have hidle : Idle [.present (.ofPath "/upper.mjs") none] := by simp [Idle, Frame.evaluates]
  obtain ⟨hleft, hruns⟩ := outermost_work_settles (.shelf stairs) .standard
  obtain ⟨hsettled, reply, -, hreply, herror⟩ := hruns [] stairsBegun (List.replicate 6 .step) .step
    graph [.present (.ofPath "/upper.mjs") none] (by simp [stairsBegun]) hidle
    (hstarts.completes hhigher hlower) hreset
  refine ⟨hsettled _ (by simp [horder]), ⟨reply, hreply, fun error hfailed => ?_⟩,
    hleft (stairsBegun :: List.replicate 8 .step) (by simp [stairsBegun]) hdone⟩
  -- the upper module would have failed, but it has been evaluated
  obtain ⟨_, record, hregistered, herrored, -⟩ := (herror error).mp hfailed
  rw [hroot] at hregistered
  have hfound : final.session.store.find? (.ofPath "/upper.mjs") = some record := hregistered.find
  rw [hfound, Option.map_some, herrored] at hupper
  cases hupper

end Machine

end Linkage
