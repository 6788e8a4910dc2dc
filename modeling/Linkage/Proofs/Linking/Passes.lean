import Linkage.Proofs.Exports.Rule
import Linkage.Proofs.Fallible
import Linkage.Proofs.Store.Updates
import Linkage.Store.Linking
import Mathlib.Data.List.Nodup
import Mathlib.Logic.Relation

/-!
# The passes of linking

Linking writes only the status and the environment of the records it takes, and makes cells.  The
first pass gives each record a cell for every local name it exports; the second binds imports one
after the other (`Store.Binds`); at the end the records are linked, or all are put back.

* `Store.Rebinds` : what linking leaves as it is.
* `begun_record` : a record after the first pass.
* `link_cases` : how linking ends.
* `LinksAll`, `LinksNone` : what has become of the records taken.
-/

namespace Linkage.Store

/-- Only the status and the environment of these records have changed, and cells have been made. -/
structure Rebinds (refs : List RecordRef) (store store' : Store) : Prop where
  frame : store' = { store with records := store'.records, cells := store'.cells }
  other : ∀ ref, ref ∉ refs → store'.record? ref = store.record? ref
  record : ∀ ref record, store.record? ref = some record → ∃ status environment,
    store'.record? ref = some { record with status, environment }
  none : ∀ ref, store.record? ref = none → store'.record? ref = none
  cell : ∀ ref cell, store.cell? ref = some cell → store'.cell? ref = some cell

namespace Rebinds

variable {refs refs' : List RecordRef} {store store' store'' : Store}

theorem refl (refs : List RecordRef) (store : Store) : Rebinds refs store store :=
  ⟨rfl, fun _ _ => rfl, fun _ record hrecord => ⟨record.status, record.environment, hrecord⟩,
    fun _ hnone => hnone, fun _ _ hcell => hcell⟩

theorem trans (hfirst : Rebinds refs store store') (hsecond : Rebinds refs store' store'') :
    Rebinds refs store store'' where
  frame := by rw [hsecond.frame, hfirst.frame]
  other ref href := (hsecond.other ref href).trans (hfirst.other ref href)
  record ref record hrecord := by
    obtain ⟨status, environment, hrecord'⟩ := hfirst.record ref record hrecord
    obtain ⟨status', environment', hrecord''⟩ := hsecond.record ref _ hrecord'
    exact ⟨status', environment', hrecord''⟩
  none ref hnone := hsecond.none ref (hfirst.none ref hnone)
  cell ref cell hcell := hsecond.cell ref cell (hfirst.cell ref cell hcell)

theorem mono (hrebinds : Rebinds refs store store') (hsub : refs ⊆ refs') :
    Rebinds refs' store store' :=
  { hrebinds with other := fun ref href => hrebinds.other ref (fun hmem => href (hsub hmem)) }

theorem lookup (hrebinds : Rebinds refs store store') (id : ModuleId) :
    store'.lookup? id = store.lookup? id := by
  rw [hrebinds.frame]
  rfl

/-- Changing the status and the environment of one record. -/
theorem of_modify (store : Store) (ref : RecordRef) {f : Record → Record}
    (hchange : ∀ record, ∃ status environment, f record = { record with status, environment }) :
    Rebinds [ref] store (store.modify ref f) := by
  refine ⟨rfl, ?_, ?_, ?_, fun _ _ hcell => hcell⟩
  · intro other hother
    exact record?_modify_ne (by simpa using hother) f
  · intro other record hrecord
    by_cases href : other = ref
    · subst href
      obtain ⟨status, environment, heq⟩ := hchange record
      exact ⟨status, environment, by rw [record?_modify_self f hrecord, heq]⟩
    · exact ⟨record.status, record.environment, by rw [record?_modify_ne href, hrecord]⟩
  · intro other hnone
    simp [record?_modify, hnone]

theorem of_declare (store : Store) (ref : RecordRef) (owner : ModuleId) (name : String) :
    Rebinds [ref] store (store.declare ref owner name).2 := by
  refine ⟨rfl, ?_, ?_, ?_, fun _ _ hcell => cell?_declare_of_cell hcell⟩
  · intro other hother
    rw [record?_declare, if_neg (by simpa using hother)]
  · intro other record hrecord
    rw [record?_declare, hrecord]
    split
    · exact ⟨record.status, _, rfl⟩
    · exact ⟨record.status, record.environment, rfl⟩
  · intro other hnone
    simp [record?_declare, hnone]

/-- A fold over records rebinds them if each of its steps rebinds the record it is at. -/
theorem of_foldl {f : Store → RecordRef → Store}
    (hstep : ∀ store ref, Rebinds [ref] store (f store ref)) (refs : List RecordRef)
    (store : Store) : Rebinds refs store (refs.foldl f store) := by
  induction refs generalizing store with
  | nil => exact .refl [] store
  | cons ref rest ih =>
      rw [List.foldl_cons]
      exact ((hstep store ref).mono (by simp)).trans ((ih (f store ref)).mono (by simp))

end Rebinds

variable {store : Store}

/-! ## The first pass -/

/-- Declaring one exported local name, unless the record owns a cell for it. -/
def declareEntry (ref : RecordRef) (owner : ModuleId) (store : Store) : ExportEntry → Store
  | .own _ name => match (store.record? ref).bind (store.ownCell? · name) with
    | some _ => store
    | none => (store.declare ref owner name).2
  | _ => store

theorem declareEntry_own {ref : RecordRef} {record : Record} {owner : ModuleId}
    {as_ name : String} (hrecord : store.record? ref = some record) :
    store.declareEntry ref owner (.own as_ name) = match store.ownCell? record name with
      | some _ => store
      | none => (store.declare ref owner name).2 := by
  simp only [declareEntry, hrecord, Option.bind_some]

theorem beginLink_of_record {ref : RecordRef} {record : Record}
    (hrecord : store.record? ref = some record) :
    store.beginLink ref = record.exportEntries.foldl (declareEntry ref record.id)
      (store.modify ref (fun record => { record with status := .linking, environment := {} })) := by
  unfold beginLink
  rw [hrecord]
  rfl

theorem rebinds_declareEntry (ref : RecordRef) (owner : ModuleId) (store : Store)
    (entry : ExportEntry) : Rebinds [ref] store (store.declareEntry ref owner entry) := by
  cases entry with
  | own as_ name =>
      unfold declareEntry
      dsimp only
      split
      · exact .refl _ store
      · exact .of_declare store ref owner name
  | indirect | star => exact .refl _ store

theorem rebinds_beginLink (store : Store) (ref : RecordRef) :
    Rebinds [ref] store (store.beginLink ref) := by
  cases hrecord : store.record? ref with
  | none =>
      unfold beginLink
      rw [hrecord]
      exact .refl _ store
  | some record =>
      rw [beginLink_of_record hrecord]
      refine (Rebinds.of_modify store ref (fun record => ⟨.linking, {}, rfl⟩)).trans ?_
      generalize store.modify ref _ = begun
      -- entry by entry, whatever has been made of the store before
      induction record.exportEntries generalizing begun with
      | nil => exact .refl _ begun
      | cons entry rest ih =>
          rw [List.foldl_cons]
          exact (rebinds_declareEntry ref record.id begun entry).trans (ih _)

/-- A record has a cell of its own under a local name. -/
def Owns (store : Store) (record : Record) (name : String) : Prop :=
  ∃ cell, store.OwnsCell record name cell

/-- One entry: the record owns what it owned and the name of the entry, and nothing else is
bound. -/
theorem declareEntry_record {ref : RecordRef} {record : Record} (entry : ExportEntry)
    (hrecord : store.record? ref = some record) :
    ∃ environment, (store.declareEntry ref record.id entry).record? ref =
        some { record with environment } ∧
      (∀ name, store.Owns record name ∨ OwnName [entry] name →
        (store.declareEntry ref record.id entry).Owns { record with environment } name) ∧
      ∀ name, (environment.find? name).isSome →
        (record.environment.find? name).isSome ∨ OwnName [entry] name := by
  cases entry with
  | indirect as_ source imported =>
      refine ⟨record.environment, hrecord, ?_, fun _ hbound => .inl hbound⟩
      rintro name (howns | ⟨_, hentry⟩)
      · exact howns
      · simp at hentry
  | star source =>
      refine ⟨record.environment, hrecord, ?_, fun _ hbound => .inl hbound⟩
      rintro name (howns | ⟨_, hentry⟩)
      · exact howns
      · simp at hentry
  | own as_ name =>
      rw [declareEntry_own hrecord]
      cases hcell : store.ownCell? record name with
      | some cell =>
          refine ⟨record.environment, hrecord, ?_, fun _ hbound => .inl hbound⟩
          rintro other (howns | ⟨_, hentry⟩)
          · exact howns
          · obtain ⟨-, rfl⟩ : _ ∧ other = name := by simpa using hentry
            exact ⟨cell, ownCell?_eq_some_iff.mp hcell⟩
      | none =>
          refine ⟨record.environment.insert name (.cell ⟨store.cells.size⟩), ?_, ?_, ?_⟩
          · rw [record?_declare, if_pos rfl, hrecord, Option.map_some]
          · -- the new cell is the one under the new name; every other name keeps its own
            intro other howns
            by_cases hname : other = name
            · subst hname
              refine ⟨⟨store.cells.size⟩, by simp, ⟨ref, record.id, other, none⟩, ?_, rfl⟩
              rw [cell?_declare, if_pos rfl]
            · rcases howns with ⟨cell, hbound, found, hfound, howner⟩ | ⟨_, hentry⟩
              · refine ⟨cell, ?_, found, cell?_declare_of_cell hfound, howner⟩
                show (record.environment.insert name _).find? other = _
                rw [Table.find?_insert_ne _ hname, hbound]
              · exact absurd (by simpa using hentry : _ ∧ other = name).2 hname
          · intro other hbound
            by_cases hname : other = name
            · exact .inr ⟨as_, by simp [hname]⟩
            · exact .inl (by rwa [Table.find?_insert_ne _ hname] at hbound)

theorem declareEntries_record {ref : RecordRef} {record : Record} (entries : List ExportEntry)
    (hrecord : store.record? ref = some record) :
    ∃ environment, (entries.foldl (declareEntry ref record.id) store).record? ref =
        some { record with environment } ∧
      (∀ name, store.Owns record name ∨ OwnName entries name →
        (entries.foldl (declareEntry ref record.id) store).Owns { record with environment } name) ∧
      ∀ name, (environment.find? name).isSome →
        (record.environment.find? name).isSome ∨ OwnName entries name := by
  induction entries generalizing store record with
  | nil =>
      refine ⟨record.environment, hrecord, ?_, fun _ hbound => .inl hbound⟩
      rintro name (howns | ⟨_, hentry⟩)
      · exact howns
      · simp at hentry
  | cons entry rest ih =>
      obtain ⟨environment, hrecord', howns, honly⟩ := declareEntry_record entry hrecord
      obtain ⟨environment', hrecord'', howns', honly'⟩ := ih hrecord'
      refine ⟨environment', hrecord'', ?_, ?_⟩
      · rintro name (hbefore | ⟨as_, hentry⟩)
        · exact howns' name (.inl (howns name (.inl hbefore)))
        · rcases List.mem_cons.mp hentry with heq | hentry
          · exact howns' name (.inl (howns name (.inr ⟨as_, by simp [heq]⟩)))
          · exact howns' name (.inr ⟨as_, hentry⟩)
      · intro name hbound
        rcases honly' name hbound with hbound | ⟨as_, hentry⟩
        · rcases honly name hbound with hbound | ⟨as_, hentry⟩
          · exact .inl hbound
          · exact .inr ⟨as_, List.mem_cons.mpr (.inl (List.mem_singleton.mp hentry))⟩
        · exact .inr ⟨as_, List.mem_cons_of_mem _ hentry⟩

/-- What a record has become after the first pass: its exported local names are its own, and
nothing else is bound. -/
structure Begun (store : Store) (record begun : Record) : Prop where
  shape : ∃ environment, begun = { record with status := .linking, environment }
  owns : ∀ name, OwnName record.exportEntries name → store.Owns begun name
  only : ∀ name, (begun.environment.find? name).isSome → OwnName record.exportEntries name

theorem beginLink_record {ref : RecordRef} {record : Record}
    (hrecord : store.record? ref = some record) :
    ∃ begun, (store.beginLink ref).record? ref = some begun ∧
      (store.beginLink ref).Begun record begun := by
  rw [beginLink_of_record hrecord]
  have hempty := record?_modify_self
    (fun record => { record with status := .linking, environment := {} }) hrecord
  obtain ⟨environment, hrecord', howns, honly⟩ := declareEntries_record record.exportEntries hempty
  refine ⟨_, hrecord', ⟨environment, rfl⟩, fun name hname => howns name (.inr hname), ?_⟩
  intro name hbound
  rcases honly name hbound with hbound | hname
  · cases hbound
  · exact hname

theorem Owns.rebinds {store' : Store} {refs : List RecordRef} {record : Record} {name : String}
    (howns : store.Owns record name) (hrebinds : Rebinds refs store store') :
    store'.Owns record name := by
  obtain ⟨cell, hbound, found, hfound, howner⟩ := howns
  exact ⟨cell, hbound, found, hrebinds.cell cell found hfound, howner⟩

/-- Every record taken has begun to be linked after the first pass. -/
theorem begun_record {refs : List RecordRef} (hnodup : refs.Nodup) {ref : RecordRef}
    (href : ref ∈ refs) {record : Record} (hrecord : store.record? ref = some record) :
    ∃ begun, (refs.foldl beginLink store).record? ref = some begun ∧
      (refs.foldl beginLink store).Begun record begun := by
  induction refs generalizing store with
  | nil => simp at href
  | cons first rest ih =>
      rw [List.nodup_cons] at hnodup
      rw [List.foldl_cons]
      rcases List.mem_cons.mp href with rfl | href
      · -- its own turn is now, and the turns of the rest are not its own
        obtain ⟨begun, hbegun, hshape, howns, honly⟩ := beginLink_record hrecord
        have hrest : Rebinds rest (store.beginLink ref)
            (rest.foldl beginLink (store.beginLink ref)) := .of_foldl rebinds_beginLink rest _
        refine ⟨begun, by rw [hrest.other ref hnodup.1, hbegun], hshape, ?_, honly⟩
        exact fun name hname => (howns name hname).rebinds hrest
      · -- this turn is another's, so the record comes to its own as it was
        have hne : ref ∉ [first] := by
          intro hmem
          exact hnodup.1 (List.mem_singleton.mp hmem ▸ href)
        exact ih hnodup.2 href (by rw [(rebinds_beginLink store first).other ref hne, hrecord])

/-! ## The second pass -/

/-- What an import entry is bound to: a namespace, or what the name leads to. -/
def Supplies (store : Store) (entry : ImportEntry) (binding : Binding) : Prop :=
  match entry.imported with
  | .star => binding = .star entry.source
  | .name name => store.resolveExport entry.source name = .found binding

/-- One import of one of these records is bound. -/
inductive Binds (refs : List RecordRef) (store : Store) : Store → Prop
  | bind {ref : RecordRef} {record : Record} {entry : ImportEntry} {binding : Binding}
      (href : ref ∈ refs) (hrecord : store.record? ref = some record)
      (hentry : entry ∈ record.imports) (hsupplies : store.Supplies entry binding) :
      Binds refs store (store.bind ref entry.as_ binding)

theorem resolveImport_eq_ok_iff {source : ModuleId} {name : String} {binding : Binding} :
    store.resolveImport source name = .ok binding ↔
      store.resolveExport source name = .found binding := by
  unfold resolveImport
  cases store.resolveExport source name <;> simp

theorem bindImport_eq_ok {ref : RecordRef} {entry : ImportEntry} {store' : Store}
    (hbound : store.bindImport ref entry = .ok store') :
    ∃ binding, store.Supplies entry binding ∧ store' = store.bind ref entry.as_ binding := by
  unfold bindImport at hbound
  unfold Supplies
  cases himported : entry.imported with
  | star =>
      rw [himported] at hbound
      exact ⟨_, rfl, (Except.ok.inj hbound).symm⟩
  | name name =>
      rw [himported] at hbound
      obtain ⟨binding, hresolved, heq⟩ := bind_eq_ok_iff.mp hbound
      exact ⟨binding, resolveImport_eq_ok_iff.mp hresolved, (Except.ok.inj heq).symm⟩

/-- The environment after imports have been bound: what no import is called is bound to what it
was. -/
def Extends (record : Record) (environment : Table Binding) : Prop :=
  ∀ name, (∀ entry ∈ record.imports, entry.as_ ≠ name) →
    environment.find? name = record.environment.find? name

namespace Binds

variable {refs refs' : List RecordRef} {store' : Store}

theorem rebinds (hbinds : store.Binds refs store') : Rebinds refs store store' := by
  obtain ⟨href, -, -, -⟩ := hbinds
  exact (Rebinds.of_modify store _ (fun record => ⟨record.status, _, rfl⟩)).mono (by simpa)

theorem rebinds_all (hbinds : Relation.ReflTransGen (Binds refs) store store') :
    Rebinds refs store store' := by
  induction hbinds with
  | refl => exact .refl refs store
  | tail _ hbind ih => exact ih.trans hbind.rebinds

theorem mono (hsub : refs ⊆ refs') (hbinds : store.Binds refs store') :
    store.Binds refs' store' := by
  obtain ⟨href, hrecord, hentry, hsupplies⟩ := hbinds
  exact .bind (hsub href) hrecord hentry hsupplies

theorem mono_all (hsub : refs ⊆ refs') (hbinds : Relation.ReflTransGen (Binds refs) store store') :
    Relation.ReflTransGen (Binds refs') store store' := by
  induction hbinds with
  | refl => exact .refl
  | tail _ hbind ih => exact ih.tail (hbind.mono hsub)

theorem record (hbinds : store.Binds refs store') {ref : RecordRef} {record : Record}
    (hrecord : store.record? ref = some record) :
    ∃ environment, store'.record? ref = some { record with environment } ∧
      Extends record environment := by
  obtain ⟨href, hfound, hentry, hsupplies⟩ := hbinds
  rename_i bound found entry binding
  by_cases hsame : ref = bound
  · subst hsame
    obtain rfl := Option.some.inj (hrecord.symm.trans hfound)
    -- only the name of an import is bound anew
    exact ⟨_, record?_modify_self _ hrecord, fun name hname =>
      Table.find?_insert_ne _ (fun heq => hname entry hentry heq.symm) _⟩
  · exact ⟨record.environment, by rw [Store.bind, record?_modify_ne hsame, hrecord],
      fun _ _ => rfl⟩

theorem record_all (hbinds : Relation.ReflTransGen (Binds refs) store store') {ref : RecordRef}
    {record : Record} (hrecord : store.record? ref = some record) :
    ∃ environment, store'.record? ref = some { record with environment } ∧
      Extends record environment := by
  induction hbinds with
  | refl => exact ⟨record.environment, hrecord, fun _ _ => rfl⟩
  | tail _ hbind ih =>
      obtain ⟨environment, hrecord', hapart⟩ := ih
      obtain ⟨environment', hrecord'', hapart'⟩ := hbind.record hrecord'
      exact ⟨environment', hrecord'', fun name hname =>
        (hapart' name hname).trans (hapart name hname)⟩

end Binds

theorem binding?_bind_self {ref : RecordRef} {record : Record} {name : String} {binding : Binding}
    (hrecord : store.record? ref = some record) :
    (store.bind ref name binding).binding? ref name = some binding := by
  unfold binding? Store.bind
  rw [record?_modify_self _ hrecord]
  exact Table.find?_insert_self _ _ _

/-- A name of a record is bound to what an import of that name was found to lead to on the way. -/
def Stems (refs : List RecordRef) (first last : Store) (ref : RecordRef) (name : String) : Prop :=
  ∃ middle record entry binding, Relation.ReflTransGen (Binds refs) first middle ∧
    Relation.ReflTransGen (Binds refs) middle last ∧ middle.record? ref = some record ∧
    entry ∈ record.imports ∧ entry.as_ = name ∧ middle.Supplies entry binding ∧
    last.binding? ref name = some binding

namespace Stems

variable {refs refs' : List RecordRef} {store' store'' : Store} {ref : RecordRef} {name : String}

theorem bound (hstems : Stems refs store store' ref name) : (store'.binding? ref name).isSome := by
  obtain ⟨_, _, _, _, -, -, -, -, -, -, hbound⟩ := hstems
  rw [hbound]
  rfl

theorem mono (hsub : refs ⊆ refs') (hstems : Stems refs store store' ref name) :
    Stems refs' store store' ref name := by
  obtain ⟨middle, record, entry, binding, hbefore, hbehind, hrest⟩ := hstems
  exact ⟨middle, record, entry, binding, Binds.mono_all hsub hbefore, Binds.mono_all hsub hbehind,
    hrest⟩

theorem head (hbefore : Relation.ReflTransGen (Binds refs) store store')
    (hstems : Stems refs store' store'' ref name) : Stems refs store store'' ref name := by
  obtain ⟨middle, record, entry, binding, hfirst, hrest⟩ := hstems
  exact ⟨middle, record, entry, binding, hbefore.trans hfirst, hrest⟩

/-- One more import is bound: this name is that of the import, or is bound to what it was. -/
theorem tail (hstems : Stems refs store store' ref name) (hbind : Binds refs store' store'') :
    Stems refs store store'' ref name := by
  obtain ⟨middle, record, entry, binding, hbefore, hbehind, hrecord, hentry, hname, hsupplies,
    hbound⟩ := hstems
  have hlater := hbehind.tail hbind
  obtain ⟨href, hrecord', hentry', hsupplies'⟩ := hbind
  rename_i ref' record' entry' binding'
  by_cases hsame : ref = ref' ∧ name = entry'.as_
  · obtain ⟨rfl, rfl⟩ := hsame
    exact ⟨store', record', entry', binding', hbefore.trans hbehind,
      .single (.bind href hrecord' hentry' hsupplies'), hrecord', hentry', rfl, hsupplies',
      binding?_bind_self hrecord'⟩
  · refine ⟨middle, record, entry, binding, hbefore, hlater, hrecord, hentry, hname, hsupplies, ?_⟩
    rw [← hbound]
    unfold binding? Store.bind
    rw [record?_modify]
    split
    · rename_i href'
      subst href'
      rw [hrecord']
      exact Table.find?_insert_ne _ (fun heq => hsame ⟨rfl, heq⟩) _
    · rfl

theorem tail_all (hstems : Stems refs store store' ref name)
    (hbinds : Relation.ReflTransGen (Binds refs) store' store'') :
    Stems refs store store'' ref name := by
  induction hbinds with
  | refl => exact hstems
  | tail _ hbind ih => exact ih.tail hbind

end Stems

/-- Binding the imports of a record binds every one of them. -/
theorem bindImports_eq_ok {ref : RecordRef} {record : Record} {store' : Store}
    (hrecord : store.record? ref = some record) (hbound : store.bindImports ref = .ok store') :
    Relation.ReflTransGen (Binds [ref]) store store' ∧
      ∀ entry ∈ record.imports, Stems [ref] store store' ref entry.as_ := by
  unfold bindImports at hbound
  rw [hrecord, Option.map_some, Option.getD_some] at hbound
  obtain ⟨last, hentries, hrest⟩ := bind_eq_ok_iff.mp hbound
  obtain ⟨-, -, heq⟩ := bind_eq_ok_iff.mp hrest
  obtain rfl := Except.ok.inj heq
  clear hbound hrest heq
  -- the store changes on the way but not the imports of the record, so the induction is on
  -- the entries still to be bound
  suffices hfold : ∀ (entries : List ImportEntry) (start : Store) (before : Record),
      start.record? ref = some before → before.imports = record.imports →
      (∀ entry ∈ entries, entry ∈ record.imports) →
      entries.foldlM (fun store entry => store.bindImport ref entry) start = .ok last →
      Relation.ReflTransGen (Binds [ref]) start last ∧
        ∀ entry ∈ entries, Stems [ref] start last ref entry.as_ from
    hfold record.imports store record hrecord rfl (fun _ hentry => hentry) hentries
  intro entries
  induction entries with
  | nil =>
      intro start before _ _ _ hfold
      obtain rfl := Except.ok.inj hfold
      exact ⟨.refl, by simp⟩
  | cons entry rest ih =>
      intro start before hbefore himports hmem hfold
      rw [List.foldlM_cons] at hfold
      obtain ⟨next, hnext, hfold⟩ := bind_eq_ok_iff.mp hfold
      obtain ⟨binding, hsupplies, rfl⟩ := bindImport_eq_ok hnext
      have hentry : entry ∈ before.imports := himports ▸ hmem entry (by simp)
      have hbind : start.Binds [ref] (start.bind ref entry.as_ binding) :=
        .bind (by simp) hbefore hentry hsupplies
      obtain ⟨environment, hrecord', -⟩ := hbind.record hbefore
      obtain ⟨hsteps, hall⟩ := ih _ _ hrecord' himports
        (fun other hother => hmem other (List.mem_cons_of_mem _ hother)) hfold
      refine ⟨.head hbind hsteps, ?_⟩
      intro other hother
      rcases List.mem_cons.mp hother with rfl | hother
      · have hstems : Stems [ref] start (start.bind ref other.as_ binding) ref other.as_ :=
          ⟨start, before, other, binding, .refl, .single hbind, hbefore, hentry, rfl, hsupplies,
            binding?_bind_self hbefore⟩
        exact hstems.tail_all hsteps
      · exact (hall other hother).head (.single hbind)

/-- If the second pass succeeds, every import of every record taken is bound. -/
theorem bindImports_foldlM_eq_ok {refs : List RecordRef} {store' : Store}
    (hfold : refs.foldlM bindImports store = .ok store') :
    Relation.ReflTransGen (Binds refs) store store' ∧
      ∀ ref ∈ refs, ∀ record, store.record? ref = some record →
        ∀ entry ∈ record.imports, Stems refs store store' ref entry.as_ := by
  induction refs generalizing store with
  | nil =>
      obtain rfl := Except.ok.inj hfold
      exact ⟨.refl, by simp⟩
  | cons first rest ih =>
      rw [List.foldlM_cons] at hfold
      obtain ⟨next, hnext, hfold⟩ := bind_eq_ok_iff.mp hfold
      obtain ⟨hsteps, hall⟩ := ih hfold
      have hsteps' : Relation.ReflTransGen (Binds (first :: rest)) next store' :=
        Binds.mono_all (by simp) hsteps
      cases hrecord : store.record? first with
      | none =>
          have hsame : next = store := by
            simp only [bindImports, hrecord, Option.map_none, Option.getD_none] at hnext
            exact (Except.ok.inj hnext).symm
          subst hsame
          refine ⟨hsteps', fun ref href record hfound => ?_⟩
          rcases List.mem_cons.mp href with rfl | href
          · simp [hrecord] at hfound
          · exact fun entry hentry => (hall ref href record hfound entry hentry).mono (by simp)
      | some found =>
          obtain ⟨hfirst, hbound⟩ := bindImports_eq_ok hrecord hnext
          have hfirst' : Relation.ReflTransGen (Binds (first :: rest)) store next :=
            Binds.mono_all (by simp) hfirst
          refine ⟨hfirst'.trans hsteps', fun ref href record hfound entry hentry => ?_⟩
          rcases List.mem_cons.mp href with rfl | href
          · -- the rest binds more names and takes none away
            obtain rfl := Option.some.inj (hrecord.symm.trans hfound)
            exact ((hbound entry hentry).mono (by simp)).tail_all hsteps'
          · obtain ⟨environment, hnext', -⟩ := Binds.record_all hfirst' hfound
            exact ((hall ref href _ hnext' entry hentry).mono (by simp)).head hfirst'

/-! ## The end -/

/-- Changing several records in the same way, when changing one twice is changing it once. -/
theorem record?_foldl_modify (f : Record → Record) (htwice : ∀ record, f (f record) = f record)
    (refs : List RecordRef) (store : Store) (ref : RecordRef) :
    (refs.foldl (fun store ref => store.modify ref f) store).record? ref =
      if ref ∈ refs then (store.record? ref).map f else store.record? ref := by
  induction refs generalizing store with
  | nil => simp
  | cons first rest ih =>
      rw [List.foldl_cons, ih, record?_modify]
      by_cases hfirst : ref = first
      · subst hfirst
        -- the record may come up again in the rest
        cases store.record? ref <;> simp [htwice]
      · simp [hfirst]

/-- Linking has taken all of these records to their end: each is linked, its imports are bound, and
it owns every local name it exports that no import has. -/
structure LinksAll (refs : List RecordRef) (store store' : Store) : Prop where
  rebinds : Rebinds refs store store'
  linked : ∀ ref ∈ refs, ∀ record, store.record? ref = some record → ∃ environment,
    store'.record? ref = some { record with status := .linked, environment } ∧
      (∀ entry ∈ record.imports, (environment.find? entry.as_).isSome) ∧
      ∀ name, OwnName record.exportEntries name → (∀ entry ∈ record.imports, entry.as_ ≠ name) →
        store'.Owns { record with status := .linked, environment } name

/-- Linking has put all of these records back. -/
structure LinksNone (refs : List RecordRef) (store store' : Store) : Prop where
  rebinds : Rebinds refs store store'
  undone : ∀ ref ∈ refs, ∀ record, store.record? ref = some record →
    store'.record? ref = some { record with status := .unlinked, environment := {} }

theorem rebinds_setStatus (store : Store) (ref : RecordRef) (status : Status) :
    Rebinds [ref] store (store.setStatus ref status) :=
  .of_modify store ref (fun record => ⟨status, record.environment, rfl⟩)

theorem rebinds_undoLink (store : Store) (ref : RecordRef) :
    Rebinds [ref] store (store.undoLink ref) :=
  .of_modify store ref (fun _ => ⟨.unlinked, {}, rfl⟩)

/-- If both passes succeed all records are linked. -/
theorem linksAll_of_binds {refs : List RecordRef} {bound : Store} (hnodup : refs.Nodup)
    (hbinds : Relation.ReflTransGen (Binds refs) (refs.foldl beginLink store) bound)
    (hall : ∀ ref ∈ refs, ∀ record, (refs.foldl beginLink store).record? ref = some record →
      ∀ entry ∈ record.imports, (bound.binding? ref entry.as_).isSome) :
    LinksAll refs store (refs.foldl (fun store ref => store.setStatus ref .linked) bound) := by
  have hbegun : Rebinds refs store (refs.foldl beginLink store) :=
    .of_foldl rebinds_beginLink refs store
  have hend : Rebinds refs bound
      (refs.foldl (fun store ref => store.setStatus ref .linked) bound) :=
    .of_foldl (fun store ref => rebinds_setStatus store ref .linked) refs bound
  refine ⟨(hbegun.trans (Binds.rebinds_all hbinds)).trans hend, ?_⟩
  intro ref href record hrecord
  obtain ⟨begun, hbegun', ⟨environment, rfl⟩, howns, -⟩ := begun_record hnodup href hrecord
  obtain ⟨environment', hbound', hextends⟩ := Binds.record_all hbinds hbegun'
  refine ⟨environment', ?_, ?_, ?_⟩
  · unfold setStatus
    rw [record?_foldl_modify (fun record => { record with status := .linked }) (fun _ => rfl),
      if_pos href, hbound']
    rfl
  · intro entry hentry
    have hsome := hall ref href _ hbegun' entry hentry
    unfold binding? at hsome
    rw [hbound'] at hsome
    exact hsome
  · intro name hname hapart
    obtain ⟨cell, hcell, found, hfound, howner⟩ := howns name hname
    refine ⟨cell, ?_, found, ?_, howner⟩
    · exact (hextends name hapart).trans hcell
    · exact hend.cell cell found ((Binds.rebinds_all hbinds).cell cell found hfound)

/-- If the second pass fails all records are put back. -/
theorem linksNone_of_undo {refs : List RecordRef} :
    LinksNone refs store (refs.foldl undoLink (refs.foldl beginLink store)) := by
  have hbegun : Rebinds refs store (refs.foldl beginLink store) :=
    .of_foldl rebinds_beginLink refs store
  have hend : Rebinds refs (refs.foldl beginLink store)
      (refs.foldl undoLink (refs.foldl beginLink store)) :=
    .of_foldl rebinds_undoLink refs _
  refine ⟨hbegun.trans hend, ?_⟩
  intro ref href record hrecord
  obtain ⟨status, environment, hbegun'⟩ := hbegun.record ref record hrecord
  unfold undoLink
  rw [record?_foldl_modify (fun record => { record with status := .unlinked, environment := {} })
    (fun _ => rfl), if_pos href, hbegun']
  rfl

/-- Linking ends in one of two ways. -/
theorem link_cases {order : List ModuleId} (hnodup : (store.pendingLinks order).Nodup) :
    (∃ bound, (store.pendingLinks order).foldlM bindImports
          ((store.pendingLinks order).foldl beginLink store) = .ok bound ∧
        (store.link order).1 = .ok () ∧
        LinksAll (store.pendingLinks order) store (store.link order).2) ∨
      ∃ error, (store.pendingLinks order).foldlM bindImports
          ((store.pendingLinks order).foldl beginLink store) = .error error ∧
        (store.link order).1 = .error error ∧
        LinksNone (store.pendingLinks order) store (store.link order).2 := by
  unfold link
  dsimp only
  cases hfold : (store.pendingLinks order).foldlM bindImports
      ((store.pendingLinks order).foldl beginLink store) with
  | ok bound =>
      obtain ⟨hbinds, hall⟩ := bindImports_foldlM_eq_ok hfold
      exact .inl ⟨bound, rfl, rfl, linksAll_of_binds hnodup hbinds
        (fun ref href record hrecord entry hentry =>
          (hall ref href record hrecord entry hentry).bound)⟩
  | error error => exact .inr ⟨error, rfl, rfl, linksNone_of_undo⟩

/-- Whatever comes of it, linking changes only the records it takes. -/
theorem rebinds_link (store : Store) (order : List ModuleId) :
    Rebinds (store.pendingLinks order) store (store.link order).2 := by
  have hbegun : Rebinds (store.pendingLinks order) store
      ((store.pendingLinks order).foldl beginLink store) :=
    .of_foldl rebinds_beginLink (store.pendingLinks order) store
  unfold link
  dsimp only
  cases hfold : (store.pendingLinks order).foldlM bindImports
      ((store.pendingLinks order).foldl beginLink store) with
  | ok bound =>
      exact (hbegun.trans (Binds.rebinds_all (bindImports_foldlM_eq_ok hfold).1)).trans
        (.of_foldl (fun store ref => rebinds_setStatus store ref .linked) _ bound)
  | error error => exact hbegun.trans (.of_foldl rebinds_undoLink _ _)

theorem mem_pendingLinks {order : List ModuleId} {ref : RecordRef} :
    ref ∈ store.pendingLinks order ↔ ∃ id ∈ order, ∃ record, store.Registered id ref record ∧
      record.format = .modern ∧ record.status = .unlinked := by
  unfold pendingLinks
  rw [List.mem_filter, List.mem_filterMap]
  constructor
  · rintro ⟨⟨id, hid, hlookup⟩, hpending⟩
    split at hpending
    · rename_i record hrecord
      obtain ⟨hmodern, hunlinked⟩ := of_decide_eq_true hpending
      exact ⟨id, hid, record, ⟨hlookup, hrecord⟩, hmodern, hunlinked⟩
    · cases hpending
  · rintro ⟨id, hid, record, hregistered, hmodern, hunlinked⟩
    refine ⟨⟨id, hid, hregistered.lookup⟩, ?_⟩
    rw [hregistered.record]
    simp [hmodern, hunlinked]

/-- Different modules have different records. -/
def Named (store : Store) : Prop :=
  ∀ id ref, store.lookup? id = some ref → ∃ record, store.record? ref = some record ∧ record.id = id

theorem Named.unique (hnamed : store.Named) {id id' : ModuleId} {ref : RecordRef}
    (hlookup : store.lookup? id = some ref) (hlookup' : store.lookup? id' = some ref) :
    id' = id := by
  obtain ⟨record, hrecord, rfl⟩ := hnamed id ref hlookup
  obtain ⟨record', hrecord', rfl⟩ := hnamed id' ref hlookup'
  obtain rfl := Option.some.inj (hrecord.symm.trans hrecord')
  rfl

theorem nodup_pendingLinks {order : List ModuleId} (hnamed : store.Named) (hnodup : order.Nodup) :
    (store.pendingLinks order).Nodup := by
  unfold pendingLinks
  refine (hnodup.filterMap ?_).filter _
  intro id id' ref hid hid'
  exact hnamed.unique hid' hid

/-- A record that linking takes is linked or put back, as linking ends; any other is as it was. -/
theorem link_record {order : List ModuleId} (hnodup : (store.pendingLinks order).Nodup)
    {ref : RecordRef} {record : Record} (hrecord : store.record? ref = some record) :
    (ref ∉ store.pendingLinks order ∧ (store.link order).2.record? ref = some record) ∨
      (ref ∈ store.pendingLinks order ∧ ∃ environment, (store.link order).2.record? ref = some
        { record with
          status := match (store.link order).1 with
            | .ok () => .linked
            | .error _ => .unlinked
          environment }) := by
  by_cases href : ref ∈ store.pendingLinks order
  · refine .inr ⟨href, ?_⟩
    rcases link_cases hnodup with ⟨bound, -, hok, hlinks⟩ | ⟨error, -, herror, hlinks⟩
    · obtain ⟨environment, hrecord', -, -⟩ := hlinks.linked ref href record hrecord
      exact ⟨environment, by rw [hrecord', hok]⟩
    · exact ⟨{}, by rw [hlinks.undone ref href record hrecord, herror]⟩
  · exact .inl ⟨href, by rw [(rebinds_link store order).other ref href, hrecord]⟩

end Linkage.Store
