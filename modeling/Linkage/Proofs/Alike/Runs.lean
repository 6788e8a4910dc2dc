import Linkage.Proofs.Alike.Machines
import Linkage.Proofs.Session.Returning

/-!
# Runs that are alike

Machines that are alike stay so with every step.  So they come back after equally many steps, with the
same to say, and on the way they have begun the bodies of the same modules in the same order.

* `Machine.Alike.after`, `Machine.Alike.startedAbove` : any number of steps.
* `Store.Concurs` : all modules have come as far, and show the same errors.
* `Machine.Coincides`, `Machine.Alike.coincides` : two works that come to the same end.
-/

namespace Linkage

variable {pairing : Pairing}

/-- Lists that correspond part at the same place. -/
theorem Pairing.beyond (pairing : Pairing) {before before' after after' : List RecordRef}
    (hbefore : List.Forall₂ pairing.record before before')
    (hafter : List.Forall₂ pairing.record after after') :
    List.Forall₂ pairing.record (Linkage.beyond before after) (Linkage.beyond before' after') := by
  induction hbefore generalizing after after' with
  | nil => exact hafter
  | cons hfirst _ ih =>
      cases hafter with
      | nil => exact .nil
      | cons hfirst' hrest' =>
          unfold Linkage.beyond
          have hiff := pairing.record_iff hfirst hfirst'
          split <;> rename_i hsame
          · rw [if_pos (hiff.mp hsame)]
            exact ih hrest'
          · rw [if_neg (mt hiff.mpr hsame)]
            exact .cons hfirst' hrest'

theorem Frame.Alike.running {frame frame' : Frame} (halike : frame.Alike pairing frame') :
    Option.Rel pairing.record frame.running? frame'.running? := by
  cases halike with
  | body href => exact .some href
  | pass | settle | present | exported | assign | «attempt» | report => exact .none

namespace Machine.Alike

variable {imports imports' : Imports} {machine machine' : Machine}
  (halike : machine.Alike pairing imports imports' machine')
include halike

/-- Bodies of paired records run. -/
theorem running : List.Forall₂ pairing.record machine.running machine'.running :=
  List.rel_filterMap (fun _ _ hframe => Frame.Alike.running hframe) halike.stack

section Covered

variable (hall : ∀ id, pairing.covers id)
include hall

/-- The bodies of paired records begin. -/
theorem begins : List.Forall₂ pairing.record (machine.begins .step) (machine'.begins .step) :=
  pairing.beyond (List.rel_reverse halike.running)
    (List.rel_reverse (Alike.step hall halike).running)

theorem after (count : Nat) :
    (machine.after count).Alike pairing imports imports' (machine'.after count) := by
  induction count generalizing machine machine' with
  | zero => exact halike
  | succ count ih => exact ih (Alike.step hall halike)

theorem bodies (count : Nat) : List.Forall₂ pairing.record
    (machine.bodies (List.replicate count .step)) (machine'.bodies (List.replicate count .step)) := by
  induction count generalizing machine machine' with
  | zero => exact .nil
  | succ count ih =>
      rw [bodies_replicate_succ, bodies_replicate_succ]
      exact List.rel_append (halike.begins hall) (ih (Alike.step hall halike))

/-- The same work has begun the bodies of paired records. -/
theorem startedAbove (count : Nat) : List.Forall₂ pairing.record
    (machine.startedAbove [] count) (machine'.startedAbove [] count) :=
  List.rel_append (pairing.beyond .nil (List.rel_reverse halike.running)) (halike.bodies hall count)

theorem comesBack {count : Nat} (hback : machine.ComesBack [] count) :
    machine'.ComesBack [] count where
  lower := (halike.after hall count).stack.length_eq ▸ hback.lower
  higher taken htaken := (halike.after hall taken).stack.length_eq ▸ hback.higher taken htaken

end Covered

end Machine.Alike

/-! ## The same end -/

/-- How far a module has come, and the error that its record shows. -/
def Record.course (record : Record) : Status × Option ModuleError := (record.status, record.error?)

/-- The modules to which some records belong. -/
def Store.owners (store : Store) (refs : List RecordRef) : List (Option ModuleId) :=
  refs.map (fun ref => (store.record? ref).map (·.id))

/-- All modules have come as far in two stores and show the same errors: those that are registered, and
those that were there at the start, be they forgotten. -/
structure Store.Concurs (start store store' : Store) : Prop where
  registered : ∀ id,
    (store.find? id).map Record.course = (store'.find? id).map Record.course
  kept : ∀ ref, (start.record? ref).isSome →
    (store.record? ref).map Record.course = (store'.record? ref).map Record.course

namespace Store

variable {start store store' store'' : Store}

theorem Concurs.refl (start store : Store) : start.Concurs store store :=
  ⟨fun _ => rfl, fun _ _ => rfl⟩

theorem Concurs.trans (hfirst : start.Concurs store store')
    (hsecond : start.Concurs store' store'') : start.Concurs store store'' where
  registered id := (hfirst.registered id).trans (hsecond.registered id)
  kept ref href := (hfirst.kept ref href).trans (hsecond.kept ref href)

/-- What is cached does not matter. -/
theorem Concurs.cached (hconcurs : start.Concurs store store') {next next' : Store}
    (hcached : store.Cached next) (hcached' : store'.Cached next') : start.Concurs next next' where
  registered id := by
    have hfind {store next : Store} (hcached : store.Cached next) : next.find? id = store.find? id := by
      unfold find?
      rw [hcached.lookup?_eq, funext hcached.record?_eq]
    rw [hfind hcached, hfind hcached']
    exact hconcurs.registered id
  kept ref href := by
    rw [hcached.record?_eq, hcached'.record?_eq]
    exact hconcurs.kept ref href

theorem Cached.owners {next : Store} (hcached : store.Cached next) (refs : List RecordRef) :
    next.owners refs = store.owners refs := by
  unfold Store.owners
  rw [funext hcached.record?_eq]

namespace Alike

variable (halike : store.Alike pairing store')
include halike

/-- Paired records belong to the same modules. -/
theorem owners {refs refs' : List RecordRef} (hrefs : List.Forall₂ pairing.record refs refs') :
    store.owners refs = store'.owners refs' := by
  unfold Store.owners
  induction hrefs with
  | nil => rfl
  | cons href _ ih =>
      rw [List.map_cons, List.map_cons, ih,
        rel_map_eq (halike.record href) (fun _ _ hrecord => hrecord.id)]

/-- In stores that are alike all modules have come as far. -/
theorem concurs (hall : ∀ id, pairing.covers id)
    (hkept : ∀ ref, (start.record? ref).isSome → pairing.record ref ref) :
    start.Concurs store store' := by
  have hcourse : ∀ record record' : Record, record.Alike pairing record' →
      record.course = record'.course := by
    intro record record' hrecord
    rw [Record.course, Record.course, hrecord.status, hrecord.error]
  exact {
    registered := fun id => rel_map_eq (halike.find (hall id)) hcourse
    kept := fun ref href => rel_map_eq (halike.record (hkept ref href)) hcourse }

end Alike

end Store

namespace Machine

variable {start : Store} {count : Nat} {machine machine' machine'' : Machine}
  {final final' final'' : Session}

/-- Two works come back after so many steps with nothing to say.  They have begun the bodies of the same
modules in the same order, and all modules have come as far. -/
structure Coincides (start : Store) (count : Nat) (machine machine' : Machine)
    (final final' : Session) : Prop where
  returns : machine.Returns [] count final .done
  returns' : machine'.Returns [] count final' .done
  owners : final.store.owners (machine.startedAbove [] count) =
    final'.store.owners (machine'.startedAbove [] count)
  concurs : start.Concurs final.store final'.store

theorem Coincides.trans (hfirst : Coincides start count machine machine' final final')
    (hsecond : Coincides start count machine' machine'' final' final'') :
    Coincides start count machine machine'' final final'' where
  returns := hfirst.returns
  returns' := hsecond.returns'
  owners := hfirst.owners.trans hsecond.owners
  concurs := hfirst.concurs.trans hsecond.concurs

/-- **Works that are alike come to the same end.** -/
theorem Alike.coincides {imports imports' : Imports}
    (halike : machine.Alike pairing imports imports' machine') (hall : ∀ id, pairing.covers id)
    (hkept : ∀ ref, (start.record? ref).isSome → pairing.record ref ref)
    (hreturns : machine.Returns [] count final .done) (hremembers : machine'.Remembers count) :
    ∃ final', Coincides start count machine machine' final final' := by
  have hended := halike.after hall count
  rw [hreturns.gives] at hended
  obtain ⟨final', hgives, hstore⟩ : ∃ final', machine'.after count = giving final' [] .done ∧
      final.store.Alike pairing final'.store := by
    generalize machine'.after count = ended at hended
    obtain ⟨final', stack', signal'⟩ := ended
    obtain ⟨hsession, hstack, hsignal⟩ := hended
    cases hstack
    cases hsignal with
    | reply hreply =>
        cases hreply with
        | ok hvalue =>
            cases hvalue
            exact ⟨final', rfl, hsession.store⟩
  exact ⟨final', hreturns, ⟨halike.comesBack hall hreturns.back, hremembers, hgives⟩,
    hstore.owners (halike.startedAbove hall count), hstore.concurs hall hkept⟩

end Machine

end Linkage
