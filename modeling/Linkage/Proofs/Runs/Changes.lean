import Linkage.Proofs.Engine.Walking
import Linkage.Proofs.Linking.Passes
import Linkage.Proofs.Store.Access

/-!
# Changes of a stage

Of a machine only the records whose bodies run, the records for which a required module is awaited,
and the store matter to the course of modules.  `Change` lists all that can happen to them, with its
guards, and labels each change with the statuses it writes, in the order they are written.  `Chain`
is any number of changes.  Every invariant of the engine is proved over `Change`.

`Status.Moves` are the moves a status may make.  A list of marks is `Orderly` when each write moves
the status that its record has at that point, and `replay` says which statuses the writes leave.

* `Orderly.settled` : once a status is settled, orderly writes leave it alone.
* `Orderly.begun_nodup` : orderly writes begin the body of a record at most once.
-/

namespace Linkage

/-- Something noted about a run. -/
inductive Mark where
  /-- A status is written. -/
  | status (ref : RecordRef) (status : Status)
  /-- Every module is forgotten. -/
  | reset
deriving DecidableEq, Repr, Inhabited

/-- What the course of modules depends on. -/
structure Stage where
  /-- The records whose bodies have begun and not ended, innermost first. -/
  running : List RecordRef
  /-- The records in which a name is to be given a required module. -/
  awaiting : List RecordRef
  /-- The modules. -/
  store : Store

/-- The statuses that linking an order writes: all records taken begin to be linked; then all are
linked, or all are put back. -/
def Store.linkMarks (store : Store) (order : List ModuleId) : List Mark :=
  let pending := store.pendingLinks order
  pending.map (Mark.status · .linking) ++ match (store.link order).1 with
    | .ok () => pending.map (Mark.status · .linked)
    | .error _ => pending.map (Mark.status · .unlinked)

/-- The record of a legacy module whose body begins. -/
def Record.begin (record : Record) : Record :=
  { record with
    status := .evaluating
    exports? := record.exports?.map (fun exports => { exports with started := true }) }

/-- One change of a stage. -/
inductive Change : Stage → List Mark → Stage → Prop
  /-- The store is touched. -/
  | touch {running awaiting store store'} (htouch : store.Touch store') :
      Change ⟨running, awaiting, store⟩ [] ⟨running, awaiting, store'⟩
  /-- A body declares a name that nothing binds. -/
  | declare {running awaiting store ref owner name} (href : ref ∈ running ∨ ref ∈ awaiting)
      (hnew : store.binding? ref name = none)
      (howner : ∀ record, store.record? ref = some record → record.id = owner) :
      Change ⟨running, awaiting, store⟩ []
        ⟨running, awaiting, (store.declare ref owner name).2⟩
  /-- A body requires a module and will give it to a name. -/
  | await {running awaiting store ref} (href : ref ∈ running) :
      Change ⟨running, awaiting, store⟩ [] ⟨running, ref :: awaiting, store⟩
  /-- A required module is awaited no longer. -/
  | resume {running awaiting store ref} :
      Change ⟨running, ref :: awaiting, store⟩ [] ⟨running, awaiting, store⟩
  /-- The modules of an order are linked, as far as that succeeds. -/
  | link {running awaiting store order} (hspans : store.Spans order) :
      Change ⟨running, awaiting, store⟩ (store.linkMarks order)
        ⟨running, awaiting, (store.link order).2⟩
  /-- The body of a linked modern module begins. -/
  | beginModern {running awaiting store ref record} (hrecord : store.record? ref = some record)
      (hmodern : record.format = .modern) (hlinked : record.status = .linked)
      (hsource : record.source?.isSome) :
      Change ⟨running, awaiting, store⟩ [.status ref .evaluating]
        ⟨ref :: running, awaiting, store.setStatus ref .evaluating⟩
  /-- The body of a legacy module begins, which has been analyzed and neither runs nor has run. -/
  | beginLegacy {running awaiting store ref record} (hrecord : store.record? ref = some record)
      (hlegacy : record.format = .legacy) (hstatus : record.status ≠ .evaluating)
      (hsettled : record.status.isSettled = false) (hanalysis : record.analysis?.isSome)
      (hsource : record.source?.isSome) :
      Change ⟨running, awaiting, store⟩ [.status ref .evaluating]
        ⟨ref :: running, awaiting, store.modify ref Record.begin⟩
  /-- The innermost body has finished. -/
  | finish {running awaiting store ref} :
      Change ⟨ref :: running, awaiting, store⟩ [.status ref .evaluated]
        ⟨running, awaiting, store.setStatus ref .evaluated⟩
  /-- The innermost body has failed. -/
  | fail {running awaiting store ref} (error : ModuleError) :
      Change ⟨ref :: running, awaiting, store⟩ [.status ref .errored]
        ⟨running, awaiting,
          store.modify ref (fun record => record.fail (.evaluation record.id error))⟩
  /-- The innermost body belongs to no record. -/
  | absent {running awaiting store ref} (hnone : store.record? ref = none) :
      Change ⟨ref :: running, awaiting, store⟩ [] ⟨running, awaiting, store⟩
  /-- All bodies are given up. -/
  | abandon {running awaiting store} : Change ⟨running, awaiting, store⟩ [] ⟨[], [], store⟩
  /-- Every module is forgotten; the bodies that run go on. -/
  | reset {running awaiting store} :
      Change ⟨running, awaiting, store⟩ [.reset] ⟨running, awaiting, store.clear⟩

/-- Any number of changes, with all that they note. -/
inductive Chain : Stage → List Mark → Stage → Prop
  | refl (stage : Stage) : Chain stage [] stage
  | tail {stage stage' stage'' : Stage} {marks more : List Mark} (hchain : Chain stage marks stage')
      (hchange : Change stage' more stage'') : Chain stage (marks ++ more) stage''

namespace Chain

variable {stage stage' stage'' : Stage} {marks more : List Mark}

theorem single (hchange : Change stage marks stage') : Chain stage marks stage' := by
  have hchain := (refl stage).tail hchange
  rwa [List.nil_append] at hchain

theorem trans (hfirst : Chain stage marks stage') (hsecond : Chain stage' more stage'') :
    Chain stage (marks ++ more) stage'' := by
  induction hsecond with
  | refl => rwa [List.append_nil]
  | tail _ hchange ih =>
      rw [← List.append_assoc]
      exact ih.tail hchange

/-- What is not marked may stand before anything else. -/
theorem quiet_trans (hfirst : Chain stage [] stage') (hsecond : Chain stage' marks stage'') :
    Chain stage marks stage'' :=
  hfirst.trans hsecond

/-- What is not marked may stand after anything else. -/
theorem trans_quiet (hfirst : Chain stage marks stage') (hsecond : Chain stage' [] stage'') :
    Chain stage marks stage'' := by
  have hchain := hfirst.trans hsecond
  rwa [List.append_nil] at hchain

theorem of_touches {running awaiting : List RecordRef} {store store' : Store}
    (htouches : store.Touches store') :
    Chain ⟨running, awaiting, store⟩ [] ⟨running, awaiting, store'⟩ := by
  induction htouches with
  | refl => exact .refl _
  | tail _ htouch ih => exact ih.tail (.touch htouch)

/-- What a body does through its scope. -/
theorem of_works {running awaiting : List RecordRef} {ref : RecordRef} {store store' : Store}
    (href : ref ∈ running ∨ ref ∈ awaiting)
    (hworks : Relation.ReflTransGen (Store.Works ref) store store') :
    Chain ⟨running, awaiting, store⟩ [] ⟨running, awaiting, store'⟩ := by
  induction hworks with
  | refl => exact .refl _
  | tail _ hwork ih =>
      cases hwork with
      | stir hstir => exact ih.tail (.touch hstir.touch)
      | exports value => exact ih.tail (.touch (.exports ref value))
      | declare hnew howner => exact ih.tail (.declare href hnew howner)

/-- What every change keeps, whatever it marks, a chain keeps. -/
theorem invariant {fact : Stage → Prop}
    (hstep : ∀ stage marks stage', Change stage marks stage' → fact stage → fact stage')
    (hchain : Chain stage marks stage') (hfact : fact stage) : fact stage' := by
  induction hchain with
  | refl => exact hfact
  | tail _ hchange ih => exact hstep _ _ _ hchange ih

end Chain

/-! ## Lists of written statuses -/

/-- The moves of the status of a module: it is linked, or linking is undone; then its body begins,
for a legacy module without linking; then the body finishes or fails. -/
inductive Status.Moves (format : Format) : Status → Status → Prop
  | link : Moves format .unlinked .linking
  | linked : Moves format .linking .linked
  | undo : Moves format .linking .unlinked
  | begin : Moves format .linked .evaluating
  | beginLegacy (hlegacy : format = .legacy) : Moves format .unlinked .evaluating
  | finish : Moves format .evaluating .evaluated
  | fail : Moves format .evaluating .errored

/-- Whether the body has begun. -/
def Status.hasBegun : Status → Bool
  | evaluating | evaluated | errored => true
  | _ => false

/-- The status of every record. -/
abbrev Statuses : Type := RecordRef → Status

/-- The statuses after one of them is written. -/
def Statuses.write (statuses : Statuses) (ref : RecordRef) (status : Status) : Statuses :=
  fun other => if other = ref then status else statuses other

/-- The statuses after all that is noted. -/
def replay (statuses : Statuses) : List Mark → Statuses
  | [] => statuses
  | .status ref status :: rest => replay (statuses.write ref status) rest
  | .reset :: rest => replay statuses rest

/-- Every write is to a record of the store and moves the status it has then. -/
def Orderly (store : Store) (statuses : Statuses) : List Mark → Prop
  | [] => True
  | .status ref status :: rest =>
      (∃ record, store.record? ref = some record ∧
        Status.Moves record.format (statuses ref) status) ∧
      Orderly store (statuses.write ref status) rest
  | .reset :: rest => Orderly store statuses rest

/-- The records whose bodies begin, in order. -/
def begun : List Mark → List RecordRef
  | [] => []
  | .status ref .evaluating :: rest => ref :: begun rest
  | _ :: rest => begun rest

/-- The statuses in a store; a record that is not there yet counts as unlinked. -/
def Store.statuses (store : Store) : Statuses :=
  fun ref => ((store.record? ref).map (·.status)).getD .unlinked

theorem Store.statuses_of_record {store : Store} {ref : RecordRef} {record : Record}
    (hrecord : store.record? ref = some record) : store.statuses ref = record.status := by
  rw [Store.statuses, hrecord]
  rfl

/-- Every record stays, with its module and its format. -/
def Store.KeepsRecords (store store' : Store) : Prop :=
  ∀ ref record, store.record? ref = some record →
    ∃ record', store'.record? ref = some record' ∧ record'.id = record.id ∧
      record'.format = record.format

theorem Store.KeepsRecords.refl (store : Store) : store.KeepsRecords store :=
  fun _ record hrecord => ⟨record, hrecord, rfl, rfl⟩

theorem Store.KeepsRecords.trans {store store' store'' : Store} (hfirst : store.KeepsRecords store')
    (hsecond : store'.KeepsRecords store'') : store.KeepsRecords store'' := by
  intro ref record hrecord
  obtain ⟨record', hrecord', hid, hformat⟩ := hfirst ref record hrecord
  obtain ⟨record'', hrecord'', hid', hformat'⟩ := hsecond ref record' hrecord'
  exact ⟨record'', hrecord'', hid'.trans hid, hformat'.trans hformat⟩

@[simp] theorem Statuses.write_self (statuses : Statuses) (ref : RecordRef) (status : Status) :
    statuses.write ref status ref = status := if_pos rfl

theorem Statuses.write_ne (statuses : Statuses) {ref other : RecordRef} (hne : other ≠ ref)
    (status : Status) : statuses.write ref status other = statuses other := if_neg hne

theorem replay_append (statuses : Statuses) (marks more : List Mark) :
    replay statuses (marks ++ more) = replay (replay statuses marks) more := by
  induction marks generalizing statuses with
  | nil => rfl
  | cons mark rest ih => cases mark <;> exact ih _

/-- Writing one status to several records. -/
theorem replay_map (refs : List RecordRef) (statuses : Statuses) (status : Status)
    (ref : RecordRef) :
    replay statuses (refs.map (Mark.status · status)) ref =
      if ref ∈ refs then status else statuses ref := by
  induction refs generalizing statuses with
  | nil => simp [replay]
  | cons first rest ih =>
      rw [List.map_cons, replay, ih]
      -- a record that comes up again is written again, with the same status
      by_cases hrest : ref ∈ rest
      · rw [if_pos hrest, if_pos (List.mem_cons_of_mem _ hrest)]
      · rw [if_neg hrest]
        by_cases hfirst : ref = first
        · rw [hfirst, if_pos List.mem_cons_self, Statuses.write_self]
        · rw [if_neg (by simp [hfirst, hrest]), Statuses.write_ne _ hfirst]

theorem begun_append (marks more : List Mark) :
    begun (marks ++ more) = begun marks ++ begun more := by
  induction marks with
  | nil => rfl
  | cons mark rest ih =>
      cases mark with
      | reset => exact ih
      | status ref status =>
          cases status with
          | evaluating => exact congrArg (List.cons ref) ih
          | _ => exact ih

namespace Orderly

variable {store store' : Store} {statuses : Statuses} {marks more : List Mark}

theorem append (hmarks : Orderly store statuses marks)
    (hmore : Orderly store (replay statuses marks) more) :
    Orderly store statuses (marks ++ more) := by
  induction marks generalizing statuses with
  | nil => exact hmore
  | cons mark rest ih =>
      cases mark with
      | status ref status => exact ⟨hmarks.1, ih hmarks.2 hmore⟩
      | reset => exact ih hmarks hmore

/-- What was orderly stays so in a store that keeps every record. -/
theorem mono (hmarks : Orderly store statuses marks) (hkeeps : store.KeepsRecords store') :
    Orderly store' statuses marks := by
  induction marks generalizing statuses with
  | nil => trivial
  | cons mark rest ih =>
      cases mark with
      | status ref status =>
          obtain ⟨⟨record, hrecord, hmoves⟩, hrest⟩ := hmarks
          obtain ⟨record', hrecord', -, hformat⟩ := hkeeps ref record hrecord
          exact ⟨⟨record', hrecord', hformat ▸ hmoves⟩, ih hrest⟩
      | reset => exact ih hmarks

/-- One write, in a store that keeps the record it is to. -/
theorem single (hkeeps : store.KeepsRecords store') {ref : RecordRef} {record : Record}
    {status : Status} (hrecord : store.record? ref = some record)
    (hmoves : Status.Moves record.format (statuses ref) status) :
    Orderly store' statuses [.status ref status] := by
  obtain ⟨record', hrecord', -, hformat⟩ := hkeeps ref record hrecord
  exact ⟨⟨record', hrecord', hformat ▸ hmoves⟩, trivial⟩

/-- Writing one status to different records is orderly if it is a move for each of them. -/
theorem of_map {refs : List RecordRef} {status : Status} (hnodup : refs.Nodup)
    (hmoves : ∀ ref ∈ refs, ∃ record, store.record? ref = some record ∧
      Status.Moves record.format (statuses ref) status) :
    Orderly store statuses (refs.map (Mark.status · status)) := by
  induction refs generalizing statuses with
  | nil => trivial
  | cons first rest ih =>
      rw [List.nodup_cons] at hnodup
      refine ⟨hmoves first List.mem_cons_self, ih hnodup.2 ?_⟩
      intro ref href
      have hne : ref ≠ first := fun hsame => hnodup.1 (hsame ▸ href)
      rw [Statuses.write_ne _ hne]
      exact hmoves ref (List.mem_cons_of_mem _ href)

/-- A settled status is left alone. -/
theorem settled (hmarks : Orderly store statuses marks) {ref : RecordRef}
    (hsettled : (statuses ref).isSettled = true) : replay statuses marks ref = statuses ref := by
  induction marks generalizing statuses with
  | nil => rfl
  | cons mark rest ih =>
      cases mark with
      | reset => exact ih hmarks hsettled
      | status written status =>
          obtain ⟨⟨record, -, hmoves⟩, hrest⟩ := hmarks
          have hne : ref ≠ written := by
            rintro rfl
            generalize statuses ref = before at hmoves hsettled
            cases hmoves <;> simp [Status.isSettled] at hsettled
          have hsame : statuses.write written status ref = statuses ref :=
            Statuses.write_ne _ hne _
          rw [replay, ih hrest (by rwa [hsame]), hsame]

/-- A body that has begun does not begin again. -/
theorem not_mem_begun (hmarks : Orderly store statuses marks) {ref : RecordRef}
    (hbegun : (statuses ref).hasBegun = true) : ref ∉ begun marks := by
  induction marks generalizing statuses with
  | nil => simp [begun]
  | cons mark rest ih =>
      cases mark with
      | reset => exact ih hmarks hbegun
      | status written status =>
          obtain ⟨⟨record, -, hmoves⟩, hrest⟩ := hmarks
          by_cases hsame : ref = written
          · subst hsame
            -- a body that has begun can only end, so this write begins nothing
            have hend : ref ∉ begun rest := ih hrest (by
              rw [Statuses.write_self]
              generalize statuses ref = before at hmoves hbegun
              cases hmoves <;> simp_all [Status.hasBegun])
            generalize statuses ref = before at hmoves hbegun
            cases hmoves with
            | begin | beginLegacy => simp [Status.hasBegun] at hbegun
            | _ => exact hend
          · have hkept : ref ∉ begun rest := ih hrest (by rwa [Statuses.write_ne _ hsame])
            cases status with
            | evaluating => exact fun hmem => (List.mem_cons.mp hmem).elim hsame hkept
            | _ => exact hkept

/-- Every body begins at most once. -/
theorem begun_nodup (hmarks : Orderly store statuses marks) : (begun marks).Nodup := by
  induction marks generalizing statuses with
  | nil => exact List.nodup_nil
  | cons mark rest ih =>
      cases mark with
      | reset => exact ih hmarks
      | status ref status =>
          obtain ⟨-, hrest⟩ := hmarks
          cases status with
          | evaluating =>
              exact List.nodup_cons.mpr
                ⟨hrest.not_mem_begun (by rw [Statuses.write_self]; rfl), ih hrest⟩
          | _ => exact ih hrest

end Orderly

end Linkage
