import Linkage.Proofs.Runs.Changes
import Linkage.Proofs.Runs.Simulation

/-!
# The life of a module

`Stage.Living` is what holds of statuses between any two changes: no module is being linked, no
legacy module is linked, and exactly the bodies that run are of modules that are evaluating.  Every
change keeps it and writes statuses in the order a module lives.

* `Change.living`, `Change.orderly`, `Change.statuses` : one change.
* `Machine.statuses_follow_life` : every run of an engine.
-/

namespace Linkage

/-- No module is being linked, and no legacy module is linked. -/
def Record.Possible (record : Record) : Prop :=
  record.status ≠ .linking ∧ (record.format = .legacy → record.status ≠ .linked)

/-- What holds of statuses between any two changes. -/
structure Stage.Living (stage : Stage) : Prop where
  named : stage.store.Named
  possible : ∀ ref record, stage.store.record? ref = some record → record.Possible
  nodup : stage.running.Nodup
  running : ∀ ref ∈ stage.running, stage.store.statuses ref = .evaluating
  awaiting : ∀ ref ∈ stage.awaiting, (stage.store.statuses ref).hasBegun = true

namespace Store

variable {store store' : Store}

/-- Writing a status to a record that is there. -/
theorem statuses_modify {ref : RecordRef} {record : Record} {f : Record → Record} {status : Status}
    (hrecord : store.record? ref = some record) (hstatus : (f record).status = status) :
    (store.modify ref f).statuses = store.statuses.write ref status := by
  funext other
  unfold statuses Statuses.write
  by_cases href : other = ref
  · subst href
    rw [record?_modify_self f hrecord, if_pos rfl, ← hstatus]
    rfl
  · rw [record?_modify_ne href, if_neg href]

theorem Touch.statuses (htouch : store.Touch store') : store'.statuses = store.statuses := by
  funext ref
  cases hrecord : store.record? ref with
  | some record =>
      obtain ⟨record', hrecord', htouched⟩ := htouch.record hrecord
      rw [statuses_of_record hrecord', statuses_of_record hrecord, htouched.status]
  | none =>
      cases hrecord' : store'.record? ref with
      | none => simp [Store.statuses, hrecord, hrecord']
      | some record' =>
          rcases htouch.record_back hrecord' with ⟨record, hfound, -⟩ | ⟨-, id, value?, rfl⟩
          · simp [hrecord] at hfound
          · rw [statuses_of_record hrecord', Store.statuses, hrecord]
            rfl

theorem record?_declare_of_record {ref other : RecordRef} {record : Record} (owner : ModuleId)
    (name : String) (hrecord : store.record? other = some record) :
    ∃ environment, (store.declare ref owner name).2.record? other =
      some { record with environment } := by
  rw [record?_declare, hrecord]
  split
  · exact ⟨_, rfl⟩
  · exact ⟨record.environment, rfl⟩

theorem statuses_declare (ref : RecordRef) (owner : ModuleId) (name : String) :
    (store.declare ref owner name).2.statuses = store.statuses := by
  funext other
  unfold statuses
  rw [record?_declare]
  split
  · cases store.record? other <;> rfl
  · rfl

/-- A change of one record that leaves its module and its format alone. -/
theorem keepsRecords_modify {f : Record → Record} (ref : RecordRef)
    (hkeeps : ∀ record, (f record).id = record.id ∧ (f record).format = record.format) :
    store.KeepsRecords (store.modify ref f) := by
  intro other record hrecord
  by_cases href : other = ref
  · subst href
    exact ⟨f record, record?_modify_self f hrecord, (hkeeps record).1, (hkeeps record).2⟩
  · exact ⟨record, by rw [record?_modify_ne href, hrecord], rfl, rfl⟩

/-- A record that is not unlinked is there. -/
theorem exists_record_of_statuses {ref : RecordRef} (hstatus : store.statuses ref ≠ .unlinked) :
    ∃ record, store.record? ref = some record ∧ record.status = store.statuses ref := by
  cases hrecord : store.record? ref with
  | none => simp [statuses, hrecord] at hstatus
  | some record => exact ⟨record, rfl, (statuses_of_record hrecord).symm⟩

/-- After the first pass of linking, the statuses are those that are noted up to there. -/
theorem statuses_begun {order : List ModuleId} (hnodup : (store.pendingLinks order).Nodup) :
    ((store.pendingLinks order).foldl beginLink store).statuses =
      replay store.statuses ((store.pendingLinks order).map (Mark.status · .linking)) := by
  funext ref
  rw [replay_map]
  by_cases hpending : ref ∈ store.pendingLinks order
  · obtain ⟨_, -, record, hregistered, -⟩ := mem_pendingLinks.mp hpending
    obtain ⟨begun, hbegun, ⟨_, rfl⟩, -, -⟩ := begun_record hnodup hpending hregistered.record
    rw [if_pos hpending, statuses_of_record hbegun]
  · have hkept := (Rebinds.of_foldl rebinds_beginLink _ store).other ref hpending
    rw [if_neg hpending, statuses, statuses, hkept]

/-- After linking, the statuses are those that are noted. -/
theorem statuses_link {order : List ModuleId} (hnodup : (store.pendingLinks order).Nodup) :
    (store.link order).2.statuses = replay store.statuses (store.linkMarks order) := by
  funext ref
  unfold linkMarks
  dsimp only
  rw [replay_append]
  cases hrecord : store.record? ref with
  | none =>
      have hpending : ref ∉ store.pendingLinks order := by
        intro hmem
        obtain ⟨id, -, record, hregistered, -⟩ := mem_pendingLinks.mp hmem
        simp [hregistered.record] at hrecord
      have hnone := (rebinds_link store order).none ref hrecord
      cases (store.link order).1 <;>
        simp [replay_map, hpending, statuses, hrecord, hnone]
  | some record =>
      -- a record that is not taken is in no mark, and of one that is taken the last mark counts
      rcases link_record hnodup hrecord with ⟨hpending, hrecord'⟩ | ⟨hpending, _, hrecord'⟩
      · rw [statuses_of_record hrecord']
        cases (store.link order).1 <;>
          simp [replay_map, hpending, statuses_of_record hrecord]
      · rw [statuses_of_record hrecord']
        cases (store.link order).1 <;> simp [replay_map, hpending]

/-- Linking writes no status but that of an unlinked module. -/
theorem replay_linkMarks {order : List ModuleId} {ref : RecordRef}
    (hother : store.statuses ref ≠ .unlinked) :
    replay store.statuses (store.linkMarks order) ref = store.statuses ref := by
  have hpending : ref ∉ store.pendingLinks order := by
    intro hmem
    obtain ⟨id, -, record, hregistered, -, hunlinked⟩ := mem_pendingLinks.mp hmem
    exact hother ((statuses_of_record hregistered.record).trans hunlinked)
  unfold linkMarks
  dsimp only
  rw [replay_append]
  cases (store.link order).1 <;> simp [replay_map, hpending]

/-- What linking notes is orderly: the modules taken were unlinked, and then are being linked. -/
theorem orderly_linkMarks {order : List ModuleId} (hnodup : (store.pendingLinks order).Nodup)
    (hkeeps : store.KeepsRecords store') :
    Orderly store' store.statuses (store.linkMarks order) := by
  have hpending : ∀ ref ∈ store.pendingLinks order, ∃ record, store.record? ref = some record ∧
      store.statuses ref = .unlinked := by
    intro ref href
    obtain ⟨id, -, record, hregistered, -, hunlinked⟩ := mem_pendingLinks.mp href
    exact ⟨record, hregistered.record,
      (statuses_of_record hregistered.record).trans hunlinked⟩
  have hlinking : ∀ ref ∈ store.pendingLinks order,
      replay store.statuses ((store.pendingLinks order).map (Mark.status · .linking)) ref =
        .linking := by
    intro ref href
    rw [replay_map, if_pos href]
  suffices hmarks : Orderly store store.statuses (store.linkMarks order) from hmarks.mono hkeeps
  unfold linkMarks
  refine Orderly.append (.of_map hnodup ?_) ?_
  · intro ref href
    obtain ⟨record, hrecord, hunlinked⟩ := hpending ref href
    exact ⟨record, hrecord, hunlinked ▸ .link⟩
  · cases (store.link order).1 with
    | ok _ =>
        refine .of_map hnodup (fun ref href => ?_)
        obtain ⟨record, hrecord, -⟩ := hpending ref href
        exact ⟨record, hrecord, (hlinking ref href).symm ▸ .linked⟩
    | error error =>
        refine .of_map hnodup (fun ref href => ?_)
        obtain ⟨record, hrecord, -⟩ := hpending ref href
        exact ⟨record, hrecord, (hlinking ref href).symm ▸ .undo⟩

end Store

theorem Record.format_begin (record : Record) : record.begin.format = record.format := by
  unfold Record.begin Record.format
  cases record.exports? <;> rfl

namespace Stage.Living

variable {stage : Stage}

theorem record_of_running (hliving : stage.Living) {ref : RecordRef} (href : ref ∈ stage.running) :
    ∃ record, stage.store.record? ref = some record ∧ record.status = .evaluating := by
  have hevaluating := hliving.running ref href
  obtain ⟨record, hrecord, hstatus⟩ :=
    Store.exists_record_of_statuses (by rw [hevaluating]; decide)
  exact ⟨record, hrecord, hstatus.trans hevaluating⟩

/-- A legacy module that neither runs nor has run is unlinked. -/
theorem unlinked_of_legacy (hliving : stage.Living) {ref : RecordRef} {record : Record}
    (hrecord : stage.store.record? ref = some record) (hlegacy : record.format = .legacy)
    (hstatus : record.status ≠ .evaluating) (hsettled : record.status.isSettled = false) :
    record.status = .unlinked := by
  obtain ⟨hlinking, hlinked⟩ := hliving.possible ref record hrecord
  have hlinked := hlinked hlegacy
  cases hfound : record.status <;> simp_all [Status.isSettled]

variable {running awaiting : List RecordRef} {store store' : Store} {ref : RecordRef}

/-- What is awaited has begun also after a body begins or ends. -/
theorem awaiting_write (hliving : Living ⟨running, awaiting, store⟩) {status : Status}
    (hbegun : status.hasBegun = true)
    (hstatuses : store'.statuses = store.statuses.write ref status) :
    ∀ other ∈ awaiting, (store'.statuses other).hasBegun = true := by
  intro other hother
  rw [hstatuses, Statuses.write]
  split
  · exact hbegun
  · exact hliving.awaiting other hother

/-- A body begins that does not run. -/
theorem begin (hliving : Living ⟨running, awaiting, store⟩) (hnamed : store'.Named)
    (hpossible : ∀ ref record, store'.record? ref = some record → record.Possible)
    (hstatus : store.statuses ref ≠ .evaluating)
    (hstatuses : store'.statuses = store.statuses.write ref .evaluating) :
    Living ⟨ref :: running, awaiting, store'⟩ := by
  have hnew : ref ∉ running := fun href => hstatus (hliving.running ref href)
  refine ⟨hnamed, hpossible, List.nodup_cons.mpr ⟨hnew, hliving.nodup⟩, ?_,
    hliving.awaiting_write rfl hstatuses⟩
  refine List.forall_mem_cons.mpr ⟨by rw [hstatuses, Statuses.write_self], ?_⟩
  intro other hother
  have hne : other ≠ ref := fun hsame => hnew (hsame ▸ hother)
  rw [hstatuses, Statuses.write_ne _ hne]
  exact hliving.running other hother

/-- The innermost body ends. -/
theorem finish (hliving : Living ⟨ref :: running, awaiting, store⟩) (hnamed : store'.Named)
    (hpossible : ∀ ref record, store'.record? ref = some record → record.Possible)
    {status : Status} (hbegun : status.hasBegun = true)
    (hstatuses : store'.statuses = store.statuses.write ref status) :
    Living ⟨running, awaiting, store'⟩ := by
  obtain ⟨hother, hnodup⟩ := List.nodup_cons.mp hliving.nodup
  refine ⟨hnamed, hpossible, hnodup, ?_, ?_⟩
  · intro other hmem
    have hne : other ≠ ref := fun hsame => hother (hsame ▸ hmem)
    rw [hstatuses, Statuses.write_ne _ hne]
    exact hliving.running other (List.mem_cons_of_mem _ hmem)
  · exact awaiting_write hliving hbegun hstatuses

end Stage.Living

namespace Change

variable {stage stage' : Stage} {marks : List Mark}

theorem keepsRecords (hchange : Change stage marks stage') :
    stage.store.KeepsRecords stage'.store := by
  cases hchange with
  | touch htouch =>
      intro ref record hrecord
      obtain ⟨record', hrecord', htouched⟩ := htouch.record hrecord
      exact ⟨record', hrecord', htouched.id, htouched.format⟩
  | declare href hnew howner =>
      intro ref record hrecord
      obtain ⟨environment, hrecord'⟩ := Store.record?_declare_of_record _ _ hrecord
      exact ⟨_, hrecord', rfl, rfl⟩
  | link hspans =>
      intro ref record hrecord
      obtain ⟨status, environment, hrecord'⟩ :=
        (Store.rebinds_link _ _).record ref record hrecord
      exact ⟨_, hrecord', rfl, rfl⟩
  | beginModern | finish | fail => exact Store.keepsRecords_modify _ (fun _ => ⟨rfl, rfl⟩)
  | beginLegacy =>
      exact Store.keepsRecords_modify _ (fun record => ⟨rfl, record.format_begin⟩)
  | await | resume | absent | abandon | reset => exact .refl _

/-- The statuses after a change are those that it notes. -/
theorem statuses (hchange : Change stage marks stage') (hliving : stage.Living) :
    stage'.store.statuses = replay stage.store.statuses marks := by
  cases hchange with
  | touch htouch => exact htouch.statuses
  | declare href hnew howner => exact Store.statuses_declare _ _ _
  | link hspans =>
      exact Store.statuses_link (Store.nodup_pendingLinks hliving.named hspans.nodup)
  | beginModern hrecord => exact Store.statuses_modify hrecord rfl
  | beginLegacy hrecord => exact Store.statuses_modify hrecord rfl
  | finish =>
      obtain ⟨record, hrecord, -⟩ := hliving.record_of_running List.mem_cons_self
      exact Store.statuses_modify hrecord rfl
  | fail error =>
      obtain ⟨record, hrecord, -⟩ := hliving.record_of_running List.mem_cons_self
      exact Store.statuses_modify hrecord rfl
  | await | resume | absent | abandon | reset => rfl

/-- Every status is written in the order a module lives. -/
theorem orderly (hchange : Change stage marks stage') (hliving : stage.Living) :
    Orderly stage'.store stage.store.statuses marks := by
  have hkeeps := hchange.keepsRecords
  cases hchange with
  | link hspans =>
      exact Store.orderly_linkMarks (Store.nodup_pendingLinks hliving.named hspans.nodup) hkeeps
  | beginModern hrecord hmodern hlinked hsource =>
      refine .single hkeeps hrecord ?_
      rw [Store.statuses_of_record hrecord, hlinked]
      exact .begin
  | beginLegacy hrecord hlegacy hstatus hsettled hanalysis hsource =>
      refine .single hkeeps hrecord ?_
      rw [Store.statuses_of_record hrecord,
        hliving.unlinked_of_legacy hrecord hlegacy hstatus hsettled]
      exact .beginLegacy hlegacy
  | finish =>
      obtain ⟨record, hrecord, hevaluating⟩ := hliving.record_of_running List.mem_cons_self
      refine .single hkeeps hrecord ?_
      rw [Store.statuses_of_record hrecord, hevaluating]
      exact .finish
  | fail error =>
      obtain ⟨record, hrecord, hevaluating⟩ := hliving.record_of_running List.mem_cons_self
      refine .single hkeeps hrecord ?_
      rw [Store.statuses_of_record hrecord, hevaluating]
      exact .fail
  | _ => trivial

/-- Whatever a change does to records, modules keep theirs, and none that is forgotten returns. -/
theorem named (hchange : Change stage marks stage') (hnamed : stage.store.Named) :
    stage'.store.Named := by
  have hkeeps := hchange.keepsRecords
  -- nothing but a touch registers modules, so elsewhere a module is registered as it was
  have hregistered : (∀ id ref, stage'.store.lookup? id = some ref →
      stage.store.lookup? id = some ref) → stage'.store.Named := by
    intro hback id ref hlookup
    obtain ⟨record, hrecord, hid⟩ := hnamed id ref (hback id ref hlookup)
    obtain ⟨record', hrecord', hid', -⟩ := hkeeps ref record hrecord
    exact ⟨record', hrecord', hid'.trans hid⟩
  cases hchange with
  | touch htouch =>
      intro id ref hlookup
      rcases htouch.lookup_back hlookup with hbefore | ⟨record, hrecord, hid, -⟩
      · obtain ⟨record, hrecord, hid⟩ := hnamed id ref hbefore
        obtain ⟨record', hrecord', htouched⟩ := htouch.record hrecord
        exact ⟨record', hrecord', htouched.id.trans hid⟩
      · exact ⟨record, hrecord, hid⟩
  | link hspans =>
      refine hregistered (fun id ref hlookup => ?_)
      rwa [(Store.rebinds_link _ _).lookup] at hlookup
  | reset => exact fun id ref hlookup => by simp at hlookup
  | _ => exact hregistered (fun id ref hlookup => hlookup)

theorem possible (hchange : Change stage marks stage') (hliving : stage.Living) {ref : RecordRef}
    {record' : Record} (hrecord' : stage'.store.record? ref = some record') : record'.Possible := by
  -- bodies that begin or end write statuses that any module may have
  have hmodify : ∀ {changed : RecordRef} {f : Record → Record}, (∀ record, (f record).Possible) →
      (stage.store.modify changed f).record? ref = some record' → record'.Possible := by
    intro changed f hpossible hfound
    rw [Store.record?_modify] at hfound
    split at hfound
    · obtain ⟨record, -, rfl⟩ := Option.map_eq_some_iff.mp hfound
      exact hpossible record
    · exact hliving.possible ref record' hfound
  cases hchange with
  | touch htouch =>
      rcases htouch.record_back hrecord' with ⟨record, hrecord, htouched⟩ | ⟨-, id, value?, rfl⟩
      · rw [Record.Possible, htouched.status, htouched.format]
        exact hliving.possible ref record hrecord
      · exact ⟨nofun, fun _ => nofun⟩
  | declare href hnew howner =>
      rw [Store.record?_declare] at hrecord'
      split at hrecord'
      · obtain ⟨record, hrecord, rfl⟩ := Option.map_eq_some_iff.mp hrecord'
        exact hliving.possible ref record hrecord
      · exact hliving.possible ref record' hrecord'
  | link hspans =>
      have hnodup := Store.nodup_pendingLinks hliving.named hspans.nodup
      rename_i store order
      cases hrecord : store.record? ref with
      | none => simp [(Store.rebinds_link store order).none ref hrecord] at hrecord'
      | some record =>
          rcases Store.link_record hnodup hrecord with ⟨-, hkept⟩ | ⟨hpending, _, hended⟩
          · obtain rfl := Option.some.inj (hkept.symm.trans hrecord')
            exact hliving.possible ref _ hrecord
          · obtain ⟨_, -, found, hregistered, hmodern, -⟩ := Store.mem_pendingLinks.mp hpending
            obtain rfl := Option.some.inj (hregistered.record.symm.trans hrecord)
            obtain rfl := Option.some.inj (hended.symm.trans hrecord')
            -- only modern modules are taken, so the second part says nothing of them
            have hformat : found.format ≠ .legacy := by
              rw [hmodern]
              decide
            cases (store.link order).1 with
            | ok _ => exact ⟨nofun, fun hlegacy => absurd hlegacy hformat⟩
            | error error => exact ⟨nofun, fun _ => nofun⟩
  | beginModern | beginLegacy | finish | fail =>
      refine hmodify (fun _ => ?_) hrecord'
      exact ⟨nofun, fun _ => nofun⟩
  | await | resume | absent | abandon | reset => exact hliving.possible ref record' hrecord'

/-- What is known of the statuses stays known. -/
theorem living (hchange : Change stage marks stage') (hliving : stage.Living) : stage'.Living := by
  have hstatuses := hchange.statuses hliving
  have hnamed := hchange.named hliving.named
  have hpossible : ∀ ref record', stage'.store.record? ref = some record' → record'.Possible :=
    fun _ _ hrecord' => hchange.possible hliving hrecord'
  have hnodup := hliving.nodup
  have hrunning := hliving.running
  have hawaiting := hliving.awaiting
  cases hchange with
  | touch | declare =>
      refine ⟨hnamed, hpossible, hnodup, ?_, ?_⟩
      · rw [hstatuses]
        exact hrunning
      · rw [hstatuses]
        exact hawaiting
  | await href =>
      refine ⟨hnamed, hpossible, hnodup, hrunning, List.forall_mem_cons.mpr ⟨?_, hawaiting⟩⟩
      rw [hrunning _ href]
      rfl
  | resume => exact ⟨hnamed, hpossible, hnodup, hrunning, (List.forall_mem_cons.mp hawaiting).2⟩
  | link hspans =>
      refine ⟨hnamed, hpossible, hnodup, fun ref href => ?_, fun ref href => ?_⟩
      · have hevaluating := hrunning ref href
        rw [hstatuses, Store.replay_linkMarks (by rw [hevaluating]; decide), hevaluating]
      · have hbegun := hawaiting ref href
        rw [hstatuses, Store.replay_linkMarks (fun hnot => by rw [hnot] at hbegun; cases hbegun),
          hbegun]
  | beginModern hrecord hmodern hlinked hsource =>
      refine hliving.begin hnamed hpossible ?_ hstatuses
      rw [Store.statuses_of_record hrecord, hlinked]
      decide
  | beginLegacy hrecord hlegacy hstatus hsettled hanalysis hsource =>
      refine hliving.begin hnamed hpossible ?_ hstatuses
      rwa [Store.statuses_of_record hrecord]
  | finish => exact hliving.finish hnamed hpossible rfl hstatuses
  | fail error => exact hliving.finish hnamed hpossible rfl hstatuses
  | absent hnone =>
      -- a body that runs has a record, so this cannot happen
      obtain ⟨record, hrecord, -⟩ := hliving.record_of_running List.mem_cons_self
      simp [hnone] at hrecord
  | abandon => exact ⟨hnamed, hpossible, List.nodup_nil, nofun, nofun⟩
  | reset => exact ⟨hnamed, hpossible, hnodup, hrunning, hawaiting⟩

/-- What runs after a change: bodies that have begun, above those of before, innermost first, of
which some may have ended. -/
theorem running (hchange : Change stage marks stage') : ∃ pushed count,
    stage'.running = pushed ++ stage.running.drop count ∧
      pushed.reverse.Sublist (begun marks) := by
  cases hchange with
  | beginModern | beginLegacy => exact ⟨[_], 0, rfl, .refl _⟩
  | finish | fail | absent => exact ⟨[], 1, rfl, List.nil_sublist _⟩
  | abandon => exact ⟨[], _, (List.drop_length).symm, List.nil_sublist _⟩
  | _ => exact ⟨[], 0, rfl, List.nil_sublist _⟩

end Change

namespace Chain

variable {stage stage' : Stage} {marks : List Mark}

theorem keepsRecords (hchain : Chain stage marks stage') :
    stage.store.KeepsRecords stage'.store := by
  induction hchain with
  | refl => exact .refl _
  | tail _ hchange ih => exact ih.trans hchange.keepsRecords

theorem living (hchain : Chain stage marks stage') (hliving : stage.Living) : stage'.Living :=
  hchain.invariant (fun _ _ _ hchange => hchange.living) hliving

theorem statuses (hchain : Chain stage marks stage') (hliving : stage.Living) :
    stage'.store.statuses = replay stage.store.statuses marks := by
  induction hchain with
  | refl => rfl
  | tail hbefore hchange ih =>
      rw [hchange.statuses (hbefore.living hliving), ih, replay_append]

theorem orderly (hchain : Chain stage marks stage') (hliving : stage.Living) :
    Orderly stage'.store stage.store.statuses marks := by
  induction hchain with
  | refl => trivial
  | tail hbefore hchange ih =>
      refine (ih.mono hchange.keepsRecords).append ?_
      rw [← hbefore.statuses hliving]
      exact hchange.orderly (hbefore.living hliving)

/-- What runs after any number of changes. -/
theorem running (hchain : Chain stage marks stage') : ∃ pushed count,
    stage'.running = pushed ++ stage.running.drop count ∧
      pushed.reverse.Sublist (begun marks) := by
  induction hchain with
  | refl => exact ⟨[], 0, rfl, List.nil_sublist _⟩
  | tail _ hchange ih =>
      obtain ⟨pushed, count, hrunning, hsub⟩ := ih
      obtain ⟨pushed', count', hrunning', hsub'⟩ := hchange.running
      -- what the second part drops is taken from the bodies pushed first, then from those before
      refine ⟨pushed' ++ pushed.drop count', count + (count' - pushed.length), ?_, ?_⟩
      · rw [hrunning', hrunning, List.drop_append, List.drop_drop, List.append_assoc]
      · rw [List.reverse_append, begun_append]
        refine .append ?_ hsub'
        exact ((List.drop_sublist count' pushed).reverse).trans hsub

end Chain

theorem beyond_suffix (before after : List RecordRef) : beyond before after <:+ after := by
  fun_induction beyond before after with
  | case1 before rest rest' ih => exact ih.trans (List.suffix_cons _ _)
  | case2 | case3 => exact List.suffix_refl _

/-- What both lists begin with is not counted. -/
theorem beyond_append (same before after : List RecordRef) :
    beyond (same ++ before) (same ++ after) = beyond before after := by
  induction same with
  | nil => rfl
  | cons first rest ih =>
      rw [List.cons_append, List.cons_append, beyond, if_pos rfl]
      exact ih

namespace Machine

/-- The bodies that an act begins are among those whose beginning it notes. -/
theorem begins_sublist (machine : Machine) (act : Act) :
    (machine.begins act).Sublist (begun (machine.marks act)) := by
  obtain ⟨pushed, count, hrunning, hsub⟩ := (machine.chain_act act).running
  refine .trans ?_ hsub
  -- both stacks begin with the bodies that go on, so only what is pushed can count
  have hbefore : machine.running.reverse =
      (machine.running.drop count).reverse ++ (machine.running.take count).reverse := by
    rw [← List.reverse_append, List.take_append_drop]
  have hafter : (machine.act act).running.reverse =
      (machine.running.drop count).reverse ++ pushed.reverse := by
    rw [← List.reverse_append]
    exact congrArg List.reverse hrunning
  rw [begins, hbefore, hafter, beyond_append]
  exact (beyond_suffix _ _).sublist

theorem bodies_sublist (machine : Machine) (acts : List Act) :
    (machine.bodies acts).Sublist (begun (machine.log acts)) := by
  induction acts generalizing machine with
  | nil => exact List.Sublist.refl _
  | cons first rest ih =>
      rw [bodies, log, begun_append]
      exact (machine.begins_sublist first).append (ih (machine.act first))

theorem living_new (place : Place) (config : Config) : (new place config).stage.Living := by
  refine ⟨?_, ?_, List.nodup_nil, nofun, nofun⟩
  · intro id ref hlookup
    cases hlookup
  · intro ref record hrecord
    cases hrecord

theorem living_perform (place : Place) (config : Config) (acts : List Act) :
    ((new place config).perform acts).stage.Living :=
  (chain_perform _ acts).living (living_new place config)

/-- **In every run of an engine statuses are written only in the order a module lives, a status that
is settled stays, and the body of a record begins at most once.** -/
theorem statuses_follow_life (place : Place) (config : Config) (acts : List Act) :
    let start := new place config
    let final := (start.perform acts).session.store
    Orderly final (fun _ => .unlinked) (start.log acts) ∧
      (∀ ref record, final.record? ref = some record →
        record.status = replay (fun _ => .unlinked) (start.log acts) ref) ∧
      (∀ ref record, final.record? ref = some record → record.status.isSettled = true →
        ∀ more, ∃ record', ((start.perform (acts ++ more)).session.store).record? ref =
          some record' ∧ record'.status = record.status) ∧
      (start.bodies acts).Nodup := by
  intro start final
  have hliving : start.stage.Living := living_new place config
  have hchain : Chain start.stage (start.log acts) (start.perform acts).stage :=
    start.chain_perform acts
  have horderly := hchain.orderly hliving
  have hstatuses := hchain.statuses hliving
  have hempty : start.stage.store.statuses = fun _ => .unlinked := rfl
  rw [hempty] at horderly hstatuses
  refine ⟨horderly, ?_, ?_, ?_⟩
  · intro ref record hrecord
    rw [← hstatuses]
    exact (Store.statuses_of_record hrecord).symm
  · -- the rest of the run is orderly as well, and orderly writes leave a settled status alone
    intro ref record hrecord hsettled more
    have hmore := (start.perform acts).chain_perform more
    rw [← perform_append] at hmore
    obtain ⟨record', hrecord', -, -⟩ := hmore.keepsRecords ref record hrecord
    refine ⟨record', hrecord', ?_⟩
    have hbefore : (start.perform acts).stage.store.statuses ref = record.status :=
      Store.statuses_of_record hrecord
    have hafter : (start.perform (acts ++ more)).stage.store.statuses ref = record'.status :=
      Store.statuses_of_record hrecord'
    rw [← hafter, ← hbefore, hmore.statuses (hchain.living hliving)]
    exact (hmore.orderly (hchain.living hliving)).settled (by rw [hbefore, hsettled])
  · exact horderly.begun_nodup.sublist (start.bodies_sublist acts)

end Machine

end Linkage
