import Linkage.Proofs.Runs.LifeCycle

/-!
# Namespaces in the cache

A namespace is kept for each pair of a module and a requester.  Every namespace in the cache shows
the record that its module has now, so a namespace that is asked for can be read at once.

* `Store.Current` : the invariant.
* `Change.current` : one change.
* `Store.namespace_of_registered` : what asking for a namespace gives.
-/

namespace Linkage

namespace Store

/-- The store is in use, and every cached namespace shows its module as it is registered. -/
structure Current (store : Store) : Prop where
  used : store.closed = false
  cached : ∀ cached ∈ store.namespaces, cached.namespace_.id = cached.id ∧
    cached.namespace_.requester? = cached.requester? ∧
    store.lookup? cached.id = some cached.namespace_.record

variable {store store' : Store}

theorem Current.mono (hcurrent : store.Current) (hclosed : store'.closed = store.closed)
    (hspaces : store'.namespaces = store.namespaces)
    (hlookup : ∀ id ref, store.lookup? id = some ref → store'.lookup? id = some ref) :
    store'.Current where
  used := hclosed.trans hcurrent.used
  cached cached hmem := by
    rw [hspaces] at hmem
    obtain ⟨hid, hrequester, hfound⟩ := hcurrent.cached cached hmem
    exact ⟨hid, hrequester, hlookup _ _ hfound⟩

/-- Asking for a namespace either finds one in the cache or adds one. -/
theorem namespace_cases (store : Store) (id : ModuleId) (requester? : Option ModuleId) :
    (∃ cached ∈ store.namespaces, cached.id = id ∧ cached.requester? = requester? ∧
        store.namespace_ id requester? = (.ok cached.namespace_, store)) ∨
      (∃ ref record, store.Registered id ref record ∧
        store.namespace_ id requester? =
          (.ok ⟨store.issued, ref, record.id, record.format, requester?⟩, { store with
            namespaces := store.namespaces ++
              [⟨id, requester?, ⟨store.issued, ref, record.id, record.format, requester?⟩⟩]
            issued := store.issued + 1 })) ∨
      store.find? id = none ∧ store.namespace_ id requester? = (.error (.detached id), store) := by
  unfold namespace_
  cases hcached : store.cached? id requester? with
  | some found =>
      obtain ⟨cached, hmem, rfl⟩ := Option.map_eq_some_iff.mp hcached
      have hkey := List.find?_some hmem
      rw [decide_eq_true_eq] at hkey
      exact .inl ⟨cached, List.mem_of_find?_eq_some hmem, hkey.1, hkey.2, rfl⟩
  | none =>
      refine .inr ?_
      cases hlookup : store.lookup? id with
      | none => exact .inr ⟨by rw [find?, hlookup]; rfl, rfl⟩
      | some ref =>
          cases hfind : store.find? id with
          | none => exact .inr ⟨rfl, rfl⟩
          | some record =>
              obtain ⟨ref', hregistered⟩ := exists_registered_of_find hfind
              obtain rfl := Option.some.inj (hlookup.symm.trans hregistered.lookup)
              exact .inl ⟨ref, record, hregistered, rfl⟩

theorem Current.touch (hcurrent : store.Current) (hnamed : store.Named)
    (htouch : store.Touch store') : store'.Current := by
  -- registered modules stay registered, so what is cached stays current
  have hlookup : ∀ id ref, store.lookup? id = some ref → store'.lookup? id = some ref :=
    fun _ _ => htouch.lookup
  cases htouch with
  | heap | write | exports | source | analysis => exact hcurrent.mono rfl rfl hlookup
  | register id format =>
      rcases store.getOrCreate_cases id format with ⟨_, -, heq⟩ | ⟨-, heap, record, -, -, heq⟩
      · exact hcurrent.mono (by rw [heq]) (by rw [heq]) hlookup
      · exact hcurrent.mono (by rw [heq]; rfl) (by rw [heq]; rfl) hlookup
  | space id requester? =>
      rcases store.namespace_cases id requester? with
        ⟨_, -, -, -, heq⟩ | ⟨ref, record, hregistered, heq⟩ | ⟨-, heq⟩
      · rwa [heq]
      · rw [heq]
        refine ⟨hcurrent.used, fun cached hmem => ?_⟩
        rcases List.mem_append.mp hmem with hmem | hmem
        · exact hcurrent.cached cached hmem
        · obtain rfl := List.mem_singleton.mp hmem
          obtain ⟨found, hfound, hid⟩ := hnamed id ref hregistered.lookup
          obtain rfl := Option.some.inj (hfound.symm.trans hregistered.record)
          exact ⟨hid, rfl, hregistered.lookup⟩
      · rwa [heq]

theorem Current.isAttached (hcurrent : store.Current) {found : Namespace}
    (hlookup : store.lookup? found.id = some found.record) : store.isAttached found = true := by
  rw [Store.isAttached, hcurrent.used, hlookup]
  simp

/-- A registered module has a namespace for every requester, which can be read at once. -/
theorem namespace_of_registered (hcurrent : store.Current) (hnamed : store.Named) {id : ModuleId}
    {ref : RecordRef} {record : Record} (hregistered : store.Registered id ref record)
    (requester? : Option ModuleId) :
    ∃ found, (store.namespace_ id requester?).1 = .ok found ∧ found.id = id ∧
      found.requester? = requester? ∧
      (store.namespace_ id requester?).2.isAttached found = true := by
  have hcurrent' := hcurrent.touch hnamed (.space id requester?)
  rcases store.namespace_cases id requester? with
    ⟨cached, hmem, rfl, rfl, heq⟩ | ⟨ref', record', hregistered', heq⟩ | ⟨hnone, -⟩
  · rw [heq]
    obtain ⟨hid, hrequester, hlookup⟩ := hcurrent.cached cached hmem
    exact ⟨_, rfl, hid, hrequester, hcurrent.isAttached (hid ▸ hlookup)⟩
  · obtain ⟨rfl, rfl⟩ := hregistered.unique hregistered'
    obtain ⟨found, hfound, rfl⟩ := hnamed id _ hregistered.lookup
    obtain rfl := Option.some.inj (hfound.symm.trans hregistered.record)
    rw [heq] at hcurrent' ⊢
    exact ⟨_, rfl, rfl, rfl, hcurrent'.isAttached hregistered.lookup⟩
  · rw [hregistered.find] at hnone
    cases hnone

end Store

/-- Every cached namespace goes on to show its module as it is registered. -/
theorem Change.current {stage stage' : Stage} {marks : List Mark}
    (hchange : Change stage marks stage') (hliving : stage.Living)
    (hcurrent : stage.store.Current) : stage'.store.Current := by
  cases hchange with
  | touch htouch => exact hcurrent.touch hliving.named htouch
  | link hspans =>
      rename_i store order
      have hrebinds := Store.rebinds_link store order
      refine hcurrent.mono ?_ ?_ (fun id ref hlookup => by rwa [hrebinds.lookup])
      · rw [hrebinds.frame]
      · rw [hrebinds.frame]
  | reset => exact ⟨hcurrent.used, fun _ hmem => by cases hmem⟩
  | declare | beginModern | beginLegacy | finish | fail =>
      exact hcurrent.mono rfl rfl (fun _ _ hlookup => hlookup)
  | await | resume | absent | abandon => exact hcurrent

theorem Chain.current {stage stage' : Stage} {marks : List Mark}
    (hchain : Chain stage marks stage') (hliving : stage.Living)
    (hcurrent : stage.store.Current) : stage'.store.Current := by
  induction hchain with
  | refl => exact hcurrent
  | tail hbefore hchange ih => exact hchange.current (hbefore.living hliving) ih

end Linkage
