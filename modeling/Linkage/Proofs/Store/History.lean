import Linkage.Proofs.Session.Answering
import Linkage.Proofs.Store.Grounded

/-!
# The history of a store

A store hands out records and namespaces, and from time to time it is cleared.  Between two clearings
a module has one record, and each pair of a module and a requester one namespace.  Records are numbered
and no number is given away twice, so a namespace that was handed out before a clearing finds its record
no more, whatever is registered afterwards.

* `Operation`, `after` : what may be done to a store, one thing after the other.
* `Proceeds` : what every operation keeps, clearing apart; `proceeds_after` : what a history without
  clearings keeps.
* `Lost`, `Spent` : a record that no module has any more, and a namespace that will not be made again;
  both outlast every operation.
* `records_and_namespaces_over_time` : what is handed out at two times, and for how long it is of use.
-/

namespace Linkage

namespace Store

/-- What may be asked of a store, and what is done through the records and namespaces it has handed
out. -/
inductive Operation where
  /-- Register a module with this format, if it is not there yet. -/
  | getOrCreate (id : ModuleId) (format : Format)
  /-- Look a module up. -/
  | get (id : ModuleId)
  /-- Ask for the namespace of a module. -/
  | namespace_ (id : ModuleId) (requester? : Option ModuleId)
  /-- Forget every module and every namespace. -/
  | clear
  /-- Change a record; which module it is of and its format never change. -/
  | change (ref : RecordRef) (f : Record → Record)
      (hkept : ∀ record, (f record).id = record.id ∧ (f record).format = record.format)
  /-- Read a name through a namespace. -/
  | readName (found : Namespace) (name : String)
  /-- Read every name through a namespace. -/
  | entries (found : Namespace)

/-- What an operation makes of a store. -/
def Operation.perform (store : Store) : Operation → Store
  | getOrCreate id format => (store.getOrCreate id format).2
  | get _ => store
  | namespace_ id requester? => (store.namespace_ id requester?).2
  | clear => store.clear
  | change ref f _ => store.modify ref f
  | readName found name => (store.readName found name).2
  | entries found => (store.entriesOf found).2

/-- A store after one operation after the other. -/
def after (store : Store) (operations : List Operation) : Store :=
  operations.foldl Operation.perform store

/-- Nobody holds the store any more; only its records and namespaces may still be held. -/
def drop (store : Store) : Store := { store with closed := true }

variable {store next last : Store} {found : Namespace} {ref : RecordRef}

theorem after_append (store : Store) (front back : List Operation) :
    store.after (front ++ back) = (store.after front).after back :=
  List.foldl_append

/-! ## Operations that clear nothing -/

/-- The namespaces in the cache have numbers of their own, all given away already. -/
def Numbered (store : Store) : Prop :=
  ∀ cached ∈ store.namespaces, cached.namespace_.serial < store.issued ∧
    ∀ other ∈ store.namespaces, other.namespace_.serial = cached.namespace_.serial →
      other.namespace_ = cached.namespace_

/-- What every operation keeps but clearing. -/
structure Proceeds (store next : Store) : Prop where
  upright : store.Upright → next.Upright
  record : ∀ ref record, store.record? ref = some record → ∃ record',
    next.record? ref = some record' ∧ record'.id = record.id ∧ record'.format = record.format
  size : store.records.size ≤ next.records.size
  lookup : ∀ id ref, store.lookup? id = some ref → next.lookup? id = some ref
  lookup_back : ∀ id ref, next.lookup? id = some ref →
    store.lookup? id = some ref ∨ store.records.size ≤ ref.index
  caches : ∀ found, store.Caches found → next.Caches found
  issued : store.issued ≤ next.issued
  cached : ∀ cached ∈ next.namespaces,
    cached ∈ store.namespaces ∨ store.issued ≤ cached.namespace_.serial
  numbered : store.Numbered → next.Numbered

namespace Proceeds

theorem refl (store : Store) : store.Proceeds store where
  upright := id
  record _ record hrecord := ⟨record, hrecord, rfl, rfl⟩
  size := Nat.le_refl _
  lookup _ _ := id
  lookup_back _ _ := .inl
  caches _ := id
  issued := Nat.le_refl _
  cached _ := .inl
  numbered := id

theorem trans (hnext : store.Proceeds next) (hlast : next.Proceeds last) :
    store.Proceeds last where
  upright hupright := hlast.upright (hnext.upright hupright)
  record ref record hrecord := by
    obtain ⟨record', hrecord', hid, hformat⟩ := hnext.record ref record hrecord
    obtain ⟨record'', hrecord'', hid', hformat'⟩ := hlast.record ref record' hrecord'
    exact ⟨record'', hrecord'', hid'.trans hid, hformat'.trans hformat⟩
  size := Nat.le_trans hnext.size hlast.size
  lookup id ref hlookup := hlast.lookup id ref (hnext.lookup id ref hlookup)
  lookup_back id ref hlookup := by
    rcases hlast.lookup_back id ref hlookup with hbefore | hnew
    · exact hnext.lookup_back id ref hbefore
    · exact .inr (Nat.le_trans hnext.size hnew)
  caches found hcached := hlast.caches found (hnext.caches found hcached)
  issued := Nat.le_trans hnext.issued hlast.issued
  cached cached hmem := by
    rcases hlast.cached cached hmem with hbefore | hnew
    · exact hnext.cached cached hbefore
    · exact .inr (Nat.le_trans hnext.issued hnew)
  numbered hnumbered := hlast.numbered (hnext.numbered hnumbered)

/-- An operation that leaves the cache alone. -/
theorem of_same (hspaces : next.namespaces = store.namespaces) (hissued : next.issued = store.issued)
    (hupright : store.Upright → next.Upright)
    (hrecord : ∀ ref record, store.record? ref = some record → ∃ record',
      next.record? ref = some record' ∧ record'.id = record.id ∧ record'.format = record.format)
    (hsize : store.records.size ≤ next.records.size)
    (hlookup : ∀ id ref, store.lookup? id = some ref → next.lookup? id = some ref)
    (hback : ∀ id ref, next.lookup? id = some ref →
      store.lookup? id = some ref ∨ store.records.size ≤ ref.index) : store.Proceeds next where
  upright := hupright
  record := hrecord
  size := hsize
  lookup := hlookup
  lookup_back := hback
  caches := shows_of_namespaces hspaces
  issued := Nat.le_of_eq hissued.symm
  cached cached hmem := .inl (hspaces ▸ hmem)
  numbered hnumbered := by
    unfold Numbered
    rw [hspaces, hissued]
    exact hnumbered

theorem of_namespace_ (store : Store) (id : ModuleId) (requester? : Option ModuleId) :
    store.Proceeds (store.namespace_ id requester?).2 := by
  have hupright : store.Upright → (store.namespace_ id requester?).2.Upright :=
    fun hupright => hupright.touch (.space id requester?)
  have hcaches : ∀ found, store.Caches found → (store.namespace_ id requester?).2.Caches found :=
    fun _ hcached => hcached.namespace_ id requester?
  rcases store.namespace_cases id requester? with
    ⟨_, -, -, -, heq⟩ | ⟨ref, record, -, heq⟩ | ⟨-, heq⟩
  · rw [heq]
    exact .refl store
  · rw [heq] at hupright hcaches ⊢
    refine ⟨hupright, fun _ record hrecord => ⟨record, hrecord, rfl, rfl⟩, Nat.le_refl _,
      fun _ _ hlookup => hlookup, fun _ _ => .inl, hcaches, Nat.le_succ _, ?_, ?_⟩
    · intro cached hmem
      rcases List.mem_append.mp hmem with hbefore | hnew
      · exact .inl hbefore
      · obtain rfl := List.mem_singleton.mp hnew
        exact .inr (Nat.le_refl _)
    · -- the new number is above all that were given away before
      intro hnumbered cached hmem
      rcases List.mem_append.mp hmem with hbefore | hnew
      · obtain ⟨hlt, hown⟩ := hnumbered cached hbefore
        refine ⟨Nat.lt_succ_of_lt hlt, fun other hother hsame => ?_⟩
        rcases List.mem_append.mp hother with hother | hother
        · exact hown other hother hsame
        · obtain rfl := List.mem_singleton.mp hother
          exact absurd hsame (Nat.ne_of_gt hlt)
      · obtain rfl := List.mem_singleton.mp hnew
        refine ⟨Nat.lt_succ_self _, fun other hother hsame => ?_⟩
        rcases List.mem_append.mp hother with hother | hother
        · exact absurd hsame (Nat.ne_of_lt (hnumbered other hother).1)
        · rw [List.mem_singleton.mp hother]
  · rw [heq]
    exact .refl store

theorem of_getOrCreate (store : Store) (id : ModuleId) (format : Format) :
    store.Proceeds (store.getOrCreate id format).2 := by
  have htouch : store.Touch (store.getOrCreate id format).2 := .register id format
  rcases store.getOrCreate_cases id format with
    ⟨_, -, heq⟩ | ⟨-, heap, fresh, -, rfl, heq⟩
  · rw [heq]
    exact .refl store
  · rw [heq] at htouch ⊢
    refine of_same rfl rfl (fun hupright => hupright.touch htouch) (fun ref record hrecord =>
      ⟨record, record?_register_of_record hrecord, rfl, rfl⟩) ?_ (fun _ _ => htouch.lookup) ?_
    · show _ ≤ (store.records.push fresh).size
      rw [Array.size_push]
      omega
    · intro other ref hlookup
      rw [lookup?_register] at hlookup
      split at hlookup
      · obtain rfl := Option.some.inj hlookup
        exact .inr (Nat.le_refl _)
      · exact .inl hlookup

theorem of_modify (store : Store) (ref : RecordRef) {f : Record → Record}
    (hkept : ∀ record, (f record).id = record.id ∧ (f record).format = record.format) :
    store.Proceeds (store.modify ref f) := by
  refine of_same rfl rfl (fun hupright => hupright.modify ref (fun record => (hkept record).1)) ?_
    (Nat.le_of_eq (Array.size_modify).symm) (fun _ _ hlookup => hlookup) (fun _ _ => .inl)
  intro other record hrecord
  rw [record?_modify, hrecord]
  split
  · exact ⟨f record, rfl, hkept record⟩
  · exact ⟨record, rfl, rfl, rfl⟩

/-- Values that change are no concern of what is registered or cached. -/
theorem of_stir (hstir : store.Stir next) : store.Proceeds next := by
  have hupright : store.Upright → next.Upright := fun hupright => hupright.touch hstir.touch
  cases hstir with
  | heap | write =>
      exact of_same rfl rfl hupright (fun _ record hrecord => ⟨record, hrecord, rfl, rfl⟩)
        (Nat.le_refl _) (fun _ _ hlookup => hlookup) (fun _ _ => .inl)
  | space id requester? => exact of_namespace_ store id requester?

theorem of_stirs (hstirs : store.Stirs next) : store.Proceeds next := by
  induction hstirs with
  | refl => exact .refl store
  | tail _ hstir ih => exact ih.trans (of_stir hstir)

end Proceeds

/-- Every operation proceeds, or it clears the store. -/
theorem Operation.perform_cases (operation : Operation) (store : Store) :
    operation = clear ∧ operation.perform store = store.clear ∨
      operation ≠ clear ∧ store.Proceeds (operation.perform store) := by
  cases operation with
  | getOrCreate id format => exact .inr ⟨nofun, .of_getOrCreate store id format⟩
  | get => exact .inr ⟨nofun, .refl store⟩
  | namespace_ id requester? => exact .inr ⟨nofun, .of_namespace_ store id requester?⟩
  | clear => exact .inl ⟨rfl, rfl⟩
  | change ref f hkept => exact .inr ⟨nofun, .of_modify store ref hkept⟩
  | readName found name => exact .inr ⟨nofun, .of_stirs (store.stirs_readName found name)⟩
  | entries found => exact .inr ⟨nofun, .of_stirs (store.stirs_entriesOf found)⟩

/-- What a history without clearings keeps. -/
theorem proceeds_after (store : Store) {operations : List Operation}
    (hkept : .clear ∉ operations) : store.Proceeds (store.after operations) := by
  induction operations generalizing store with
  | nil => exact .refl store
  | cons operation rest ih =>
      obtain ⟨hfirst, hrest⟩ := not_or.mp (mt List.mem_cons.mpr hkept)
      rcases operation.perform_cases store with ⟨hclear, -⟩ | ⟨-, hproceeds⟩
      · exact absurd hclear.symm hfirst
      · exact hproceeds.trans (ih (operation.perform store) hrest)

/-- What proceeding and clearing keep, every history keeps. -/
theorem after_induction {P : Store → Prop}
    (hproceeds : ∀ store next : Store, store.Proceeds next → P store → P next)
    (hclear : ∀ store : Store, P store → P store.clear) (operations : List Operation)
    (hstore : P store) : P (store.after operations) := by
  induction operations generalizing store with
  | nil => exact hstore
  | cons operation rest ih =>
      have hfirst : P (operation.perform store) := by
        rcases operation.perform_cases store with ⟨-, heq⟩ | ⟨-, hnext⟩
        · rw [heq]
          exact hclear store hstore
        · exact hproceeds store _ hnext hstore
      exact ih hfirst

/-- Registered modules have their own records, and the namespaces in the cache show them and have
numbers of their own. -/
structure Orderly (store : Store) : Prop where
  upright : store.Upright
  numbered : store.Numbered

theorem Proceeds.orderly (hproceeds : store.Proceeds next) (horderly : store.Orderly) :
    next.Orderly :=
  ⟨hproceeds.upright horderly.upright, hproceeds.numbered horderly.numbered⟩

/-- Every store is orderly at every time. -/
theorem orderly_after (operations : List Operation) : (empty.after operations).Orderly := by
  refine after_induction (fun _ _ hproceeds horderly => hproceeds.orderly horderly)
    (fun _ horderly => ⟨horderly.upright.clear, nofun⟩) operations ⟨⟨nofun, rfl, nofun⟩, nofun⟩

/-! ## What outlasts every operation -/

/-- A record was made, and no module is registered with it any more. -/
def Lost (store : Store) (ref : RecordRef) : Prop :=
  ref.index < store.records.size ∧ ∀ id, store.lookup? id ≠ some ref

/-- No other namespace has the number of this one, and none will get it. -/
def Spent (store : Store) (found : Namespace) : Prop :=
  found.serial < store.issued ∧ ∀ cached ∈ store.namespaces,
    cached.namespace_.serial = found.serial → cached.namespace_ = found

theorem Proceeds.lost (hproceeds : store.Proceeds next) (hlost : store.Lost ref) :
    next.Lost ref := by
  refine ⟨Nat.lt_of_lt_of_le hlost.1 hproceeds.size, fun id hlookup => ?_⟩
  rcases hproceeds.lookup_back id ref hlookup with hbefore | hnew
  · exact hlost.2 id hbefore
  · exact absurd hlost.1 (Nat.not_lt.mpr hnew)

theorem Lost.after (hlost : store.Lost ref) (operations : List Operation) :
    (store.after operations).Lost ref :=
  after_induction (fun _ _ hproceeds hlost => hproceeds.lost hlost)
    (fun _ hlost => ⟨hlost.1, nofun⟩) operations hlost

theorem Proceeds.spent (hproceeds : store.Proceeds next) (hspent : store.Spent found) :
    next.Spent found := by
  refine ⟨Nat.lt_of_lt_of_le hspent.1 hproceeds.issued, fun cached hmem hsame => ?_⟩
  rcases hproceeds.cached cached hmem with hbefore | hnew
  · exact hspent.2 cached hbefore hsame
  · exact absurd hspent.1 (Nat.not_lt.mpr (hsame ▸ hnew))

theorem Spent.after (hspent : store.Spent found) (operations : List Operation) :
    (store.after operations).Spent found :=
  after_induction (fun _ _ hproceeds hspent => hproceeds.spent hspent)
    (fun _ hspent => ⟨hspent.1, nofun⟩) operations hspent

/-- Clearing loses every record. -/
theorem lost_after_clear {record : Record} (hrecord : store.record? ref = some record)
    {operations : List Operation} (hclear : .clear ∈ operations) :
    (store.after operations).Lost ref := by
  obtain ⟨front, back, rfl⟩ := List.append_of_mem hclear
  have hlt : ref.index < (store.after front).records.size := by
    refine after_induction (P := fun store => ref.index < store.records.size)
      (fun _ _ hproceeds hlt => Nat.lt_of_lt_of_le hlt hproceeds.size) (fun _ hlt => hlt) front ?_
    exact (Array.getElem?_eq_some_iff.mp hrecord).1
  have hlost : (store.after front).clear.Lost ref := ⟨hlt, nofun⟩
  rw [after_append]
  exact hlost.after back

/-! ## Records -/

/-- A module that is registered once has the same record until the store is cleared, and nobody else
ever has it. -/
theorem getOrCreate_after (horderly : store.Orderly) (id : ModuleId) (format : Format)
    (between : List Operation) (other : ModuleId) (format' : Format) :
    ((((store.getOrCreate id format).2.after between).getOrCreate other format').1 =
      (store.getOrCreate id format).1 ↔ other = id ∧ .clear ∉ between) := by
  have hlookup := lookup?_getOrCreate store id format
  have hcreated := (Proceeds.of_getOrCreate store id format).orderly horderly
  have horderly' := after_induction (fun _ _ hproceeds horderly => hproceeds.orderly horderly)
    (fun _ horderly => ⟨horderly.upright.clear, nofun⟩) between hcreated
  have hagain := Proceeds.of_getOrCreate ((store.getOrCreate id format).2.after between) other
    format'
  have hlookup' := lookup?_getOrCreate ((store.getOrCreate id format).2.after between) other format'
  by_cases hclear : .clear ∈ between
  · -- the record is lost, also to those who are registered now
    obtain ⟨record, hrecord, -⟩ := hcreated.upright.named id _ hlookup
    have hlost := hagain.lost (lost_after_clear hrecord hclear)
    refine iff_of_false (fun hsame => hlost.2 other (hsame ▸ hlookup')) (fun hkept => hkept.2 hclear)
  · have hkept := (proceeds_after _ hclear).lookup id _ hlookup
    have hkept' := hagain.lookup id _ hkept
    refine ⟨fun hsame => ⟨?_, hclear⟩, fun hother => ?_⟩
    · rw [hsame] at hlookup'
      exact (hagain.orderly horderly').upright.named.unique hkept' hlookup'
    · rw [hother.1] at hlookup' ⊢
      rw [getOrCreate_of_lookup format' hkept]

/-- Until the store is cleared a module keeps the format of its first registration. -/
theorem format_after {id : ModuleId} (hnew : store.contains id = false)
    (format : Format) {between : List Operation} (hclear : .clear ∉ between) :
    ∃ record, ((store.getOrCreate id format).2.after between).Registered id
      (store.getOrCreate id format).1 record ∧ record.id = id ∧ record.format = format := by
  have hlookup := lookup?_getOrCreate store id format
  have hproceeds := proceeds_after (store.getOrCreate id format).2 hclear
  have hnone : store.lookup? id = none :=
    Option.isNone_iff_eq_none.mp (Option.isSome_eq_false_iff.mp hnew)
  obtain ⟨record, hrecord, hid, hformat⟩ : ∃ record, (store.getOrCreate id format).2.record?
      (store.getOrCreate id format).1 = some record ∧ record.id = id ∧ record.format = format := by
    unfold getOrCreate
    rw [hnone]
    cases format with
    | modern => exact ⟨.modern id, (record?_register _ _).trans (if_pos rfl), rfl, rfl⟩
    | legacy =>
        exact ⟨.legacy id (.object (store.heap.alloc {}).1),
          (record?_register _ _).trans (if_pos rfl), rfl, rfl⟩
  obtain ⟨record', hrecord', hid', hformat'⟩ := hproceeds.record _ record hrecord
  exact ⟨record', ⟨hproceeds.lookup id _ hlookup, hrecord'⟩, hid'.trans hid,
    hformat'.trans hformat⟩

/-! ## Namespaces -/

/-- A namespace in the cache shows its module as it is registered. -/
theorem Upright.lookup_of_caches (hupright : store.Upright) (hcached : store.Caches found) :
    store.lookup? found.id = some found.record := by
  obtain ⟨cached, hmem, rfl⟩ := Option.map_eq_some_iff.mp hcached
  obtain ⟨hid, -, hlookup⟩ :=
    hupright.current.cached cached (List.mem_of_find?_eq_some hmem)
  rwa [hid]

/-- No other namespace has the number of one in the cache. -/
theorem Numbered.spent (hnumbered : store.Numbered) (hcached : store.Caches found) :
    store.Spent found := by
  obtain ⟨cached, hmem, rfl⟩ := Option.map_eq_some_iff.mp hcached
  exact hnumbered cached (List.mem_of_find?_eq_some hmem)

/-- A namespace in the cache is what its pair of a module and a requester gives. -/
theorem Caches.namespace_eq (hcached : store.Caches found) :
    store.namespace_ found.id found.requester? = (.ok found, store) := by
  unfold Store.namespace_
  rw [show store.cached? found.id found.requester? = some found from hcached]

/-- A namespace that is handed out is of the module and for the requester that were asked for. -/
theorem Upright.namespace_ok (hupright : store.Upright) {id : ModuleId} {requester? : Option ModuleId}
    (hfound : (store.namespace_ id requester?).1 = .ok found) :
    found.id = id ∧ found.requester? = requester? := by
  rcases store.namespace_cases id requester? with
    ⟨cached, hmem, rfl, rfl, heq⟩ | ⟨ref, record, hregistered, heq⟩ | ⟨-, heq⟩
  · rw [heq] at hfound
    obtain rfl := Except.ok.inj hfound
    obtain ⟨hid, hrequester, -⟩ := hupright.current.cached cached hmem
    exact ⟨hid, hrequester⟩
  · rw [heq] at hfound
    obtain rfl := Except.ok.inj hfound
    obtain ⟨_, hregistered', hid⟩ := hupright.find hregistered.lookup
    obtain ⟨-, rfl⟩ := hregistered.unique hregistered'
    exact ⟨hid, rfl⟩
  · rw [heq] at hfound
    cases hfound

/-- A module has a namespace for every requester just if it is registered. -/
theorem namespace_isOk_iff (hupright : store.Upright) (id : ModuleId)
    (requester? : Option ModuleId) :
    (store.contains id = true → ∃ found, (store.namespace_ id requester?).1 = .ok found) ∧
      (store.contains id = false →
        (store.namespace_ id requester?).1 = .error (.detached id)) := by
  refine ⟨fun hsome => ?_, fun hnone => ?_⟩
  · obtain ⟨ref, hlookup⟩ := Option.isSome_iff_exists.mp hsome
    obtain ⟨record, hregistered, -⟩ := hupright.find hlookup
    obtain ⟨found, hfound, -⟩ :=
      namespace_of_registered hupright.current hupright.named hregistered requester?
    exact ⟨found, hfound⟩
  · have hnone : store.lookup? id = none :=
      Option.isNone_iff_eq_none.mp (Option.isSome_eq_false_iff.mp hnone)
    rcases store.namespace_cases id requester? with
      ⟨cached, hmem, rfl, -, -⟩ | ⟨ref, record, hregistered, -⟩ | ⟨-, heq⟩
    · exact absurd ((hupright.current.cached cached hmem).2.2.symm.trans hnone) nofun
    · exact absurd (hregistered.lookup.symm.trans hnone) nofun
    · rw [heq]

section Obtained

variable (horderly : store.Orderly) {id : ModuleId} {requester? : Option ModuleId}
  (hfound : (store.namespace_ id requester?).1 = .ok found)
include horderly hfound

/-- Until the store is cleared the same pair is given the same namespace. -/
theorem namespace_after {between : List Operation} (hclear : .clear ∉ between) :
    ((store.namespace_ id requester?).2.after between).Caches found :=
  (proceeds_after _ hclear).caches found (horderly.upright.shows_of_ok hfound)

/-- A namespace handed out later is the same object just if the pair is the same and the store was
not cleared meanwhile. -/
theorem serial_after (between : List Operation) (other : ModuleId) (asker? : Option ModuleId)
    {found' : Namespace}
    (hfound' : (((store.namespace_ id requester?).2.after between).namespace_ other asker?).1 =
      .ok found') :
    found'.serial = found.serial ↔ (other = id ∧ asker? = requester?) ∧ .clear ∉ between := by
  have hasked := (Proceeds.of_namespace_ store id requester?).orderly horderly
  have hcached := horderly.upright.shows_of_ok hfound
  have horderly' := after_induction (fun _ _ hproceeds horderly => hproceeds.orderly horderly)
    (fun _ horderly => ⟨horderly.upright.clear, nofun⟩) between hasked
  have hagain := Proceeds.of_namespace_ ((store.namespace_ id requester?).2.after between) other
    asker?
  have hcached' := horderly'.upright.shows_of_ok hfound'
  obtain ⟨hid, hrequester⟩ := horderly.upright.namespace_ok hfound
  obtain ⟨hid', hrequester'⟩ := horderly'.upright.namespace_ok hfound'
  constructor
  · intro hsame
    -- a number is never given away twice, so it is the very namespace
    have hspent := hagain.spent ((hasked.numbered.spent hcached).after between)
    obtain ⟨cached, hmem, hcached''⟩ := Option.map_eq_some_iff.mp hcached'
    obtain rfl : found' = found := by
      rw [← hcached''] at hsame ⊢
      exact hspent.2 cached (List.mem_of_find?_eq_some hmem) hsame
    refine ⟨⟨hid'.symm.trans hid, hrequester'.symm.trans hrequester⟩, fun hclear => ?_⟩
    obtain ⟨record, hrecord, -⟩ :=
      hasked.upright.named _ _ (hasked.upright.lookup_of_caches hcached)
    have hlost := hagain.lost (lost_after_clear hrecord hclear)
    exact hlost.2 _ ((hagain.orderly horderly').upright.lookup_of_caches hcached')
  · rintro ⟨⟨rfl, rfl⟩, hclear⟩
    have hkept := (namespace_after horderly hfound hclear).namespace_eq
    rw [hid, hrequester] at hkept
    rw [hkept] at hfound'
    obtain rfl := Except.ok.inj hfound'
    rfl

/-- Until the store is cleared a namespace answers. -/
theorem keysOf_after {between : List Operation} (hclear : .clear ∉ between) :
    ((store.namespace_ id requester?).2.after between).keysOf found =
      .ok (((store.namespace_ id requester?).2.after between).exportedNames id) := by
  have hasked := (Proceeds.of_namespace_ store id requester?).orderly horderly
  have horderly' := (proceeds_after _ hclear).orderly hasked
  have hlookup :=
    horderly'.upright.lookup_of_caches (namespace_after horderly hfound hclear)
  unfold keysOf
  rw [if_pos (horderly'.upright.current.isAttached hlookup),
    (horderly.upright.namespace_ok hfound).1]

/-- Once the store has been cleared a namespace has lost its record. -/
theorem lost_after {between : List Operation} (hclear : .clear ∈ between) :
    ((store.namespace_ id requester?).2.after between).Lost found.record := by
  have hasked := (Proceeds.of_namespace_ store id requester?).orderly horderly
  obtain ⟨record, hrecord, -⟩ := hasked.upright.named _ _
    (hasked.upright.lookup_of_caches (horderly.upright.shows_of_ok hfound))
  exact lost_after_clear hrecord hclear

end Obtained

/-- A namespace that is no longer attached answers nothing but that. -/
structure Detached (store : Store) (found : Namespace) : Prop where
  keys : store.keysOf found = .error (.detached found.id)
  read : ∀ name, store.readName found name = (.error (.detached found.id), store)
  entries : store.entriesOf found = (.error (.detached found.id), store)

theorem detached_of_not_attached (hdetached : store.isAttached found = false) :
    store.Detached found := by
  have hkeys : store.keysOf found = .error (.detached found.id) := by
    unfold keysOf
    rw [hdetached]
    rfl
  refine ⟨hkeys, fun name => ?_, ?_⟩
  · unfold readName
    rw [hdetached]
    rfl
  · unfold entriesOf
    rw [hkeys]

theorem Lost.detached (hlost : store.Lost found.record) : store.Detached found := by
  refine detached_of_not_attached ?_
  unfold isAttached
  rw [Bool.and_eq_false_iff]
  exact .inr (beq_eq_false_iff_ne.mpr (hlost.2 found.id))

theorem detached_drop (store : Store) (found : Namespace) : store.drop.Detached found :=
  detached_of_not_attached rfl

/-- **What a store hands out over time.**  Take a store after any history, and the same store after
any further one.

A module registered now has one and the same record, with the format of its first registration, until
the store is cleared, and no other module ever gets that record.  A module has a namespace for every
requester just if it is registered.  A namespace that is handed out now is handed out again to the same
pair until the store is cleared; it is never handed out to another pair, nor to anyone after a
clearing.  It answers until the store is cleared or dropped, and never from then on, whatever is
registered again. -/
theorem records_and_namespaces_over_time (before between : List Operation) (id : ModuleId) :
    (∀ format,
      let created := (empty.after before).getOrCreate id format
      let later := created.2.after between
      (∀ other format', ((later.getOrCreate other format').1 = created.1 ↔
        other = id ∧ .clear ∉ between)) ∧
      ((empty.after before).contains id = false → .clear ∉ between → ∃ record,
        later.Registered id created.1 record ∧ record.id = id ∧ record.format = format)) ∧
    (∀ requester?,
      ((empty.after before).contains id = true →
        ∃ found, ((empty.after before).namespace_ id requester?).1 = .ok found) ∧
      ((empty.after before).contains id = false →
        ((empty.after before).namespace_ id requester?).1 = .error (.detached id))) ∧
    ∀ requester? found, ((empty.after before).namespace_ id requester?).1 = .ok found →
      let later := ((empty.after before).namespace_ id requester?).2.after between
      (found.id = id ∧ found.requester? = requester?) ∧
      (.clear ∉ between → (later.namespace_ id requester?).1 = .ok found) ∧
      (∀ other asker? found', (later.namespace_ other asker?).1 = .ok found' →
        (found'.serial = found.serial ↔
          (other = id ∧ asker? = requester?) ∧ .clear ∉ between)) ∧
      (.clear ∉ between → later.keysOf found = .ok (later.exportedNames id)) ∧
      (.clear ∈ between → later.Detached found) ∧
      later.drop.Detached found := by
  have horderly := orderly_after before
  refine ⟨fun format => ⟨?_, ?_⟩, fun requester? => ?_, fun requester? found hfound => ?_⟩
  · exact getOrCreate_after horderly id format between
  · exact fun hnew hclear => format_after hnew format hclear
  · exact namespace_isOk_iff horderly.upright id requester?
  · obtain ⟨hid, hrequester⟩ := horderly.upright.namespace_ok hfound
    refine ⟨⟨hid, hrequester⟩, fun hclear => ?_, fun other asker? found' hfound' => ?_,
      keysOf_after horderly hfound, fun hclear => (lost_after horderly hfound hclear).detached,
      detached_drop _ found⟩
    · have hkept := (namespace_after horderly hfound hclear).namespace_eq
      rw [hid, hrequester] at hkept
      rw [hkept]
    · exact serial_after horderly hfound between other asker? hfound'

/-- A namespace is not revived by registering its module again. -/
theorem detached_of_registered_again : ∃ found,
    ((empty.after [.getOrCreate ⟨"/a.mjs"⟩ .modern]).namespace_ ⟨"/a.mjs"⟩ none).1 = .ok found ∧
      (((empty.after [.getOrCreate ⟨"/a.mjs"⟩ .modern]).namespace_ ⟨"/a.mjs"⟩ none).2.after
        [.clear, .getOrCreate ⟨"/a.mjs"⟩ .modern, .namespace_ ⟨"/a.mjs"⟩ none]).Detached found := by
  obtain ⟨-, hasked, hlater⟩ := records_and_namespaces_over_time [.getOrCreate ⟨"/a.mjs"⟩ .modern]
    [.clear, .getOrCreate ⟨"/a.mjs"⟩ .modern, .namespace_ ⟨"/a.mjs"⟩ none] ⟨"/a.mjs"⟩
  obtain ⟨found, hfound⟩ := (hasked none).1 (by decide)
  obtain ⟨-, -, -, -, hdetached, -⟩ := hlater none found hfound
  exact ⟨found, hfound, hdetached List.mem_cons_self⟩

end Store

end Linkage
