import Linkage.Proofs.Alike.Exports
import Linkage.Proofs.Linking.Passes
import Mathlib.Data.List.Induction

/-!
# What linking makes of a module

After linking, a local name that is imported is bound to what the last import of that name leads to;
any other local name that is exported has a cell of its own, to which nothing has been written; and
nothing else is bound.  So the names of a module are determined by what its dependencies export, if
linking leaves these alone from the moment at which its imports are bound.

* `Record.importOf?` : the import that a local name is bound for.
* `Store.Furnished` : the names of a module that has been linked and not begun.
* `Furnished.aligned` : it stays so as long as its dependencies export the same.
* `furnished_link` : how it comes about.
-/

namespace Linkage

/-- The import that a local name is bound for: the last one of that name. -/
def Record.importOf? (record : Record) (name : String) : Option ImportEntry :=
  record.imports.reverse.find? (·.as_ = name)

theorem Record.mem_of_importOf? {record : Record} {name : String} {entry : ImportEntry}
    (hentry : record.importOf? name = some entry) : entry ∈ record.imports :=
  List.mem_reverse.mp (List.mem_of_find?_eq_some hentry)

namespace Store

/-- The names of a module that has been linked and not begun. -/
structure Furnished (store : Store) (ref : RecordRef) (record : Record) : Prop where
  imported : ∀ name entry, record.importOf? name = some entry → ∃ binding,
    record.environment.find? name = some binding ∧ store.Supplies entry binding
  own : ∀ name, record.importOf? name = none → OwnName record.exportEntries name →
    ∃ cell, record.environment.find? name = some (.cell cell) ∧
      store.cell? cell = some ⟨ref, record.id, name, none⟩
  other : ∀ name, record.importOf? name = none → ¬ OwnName record.exportEntries name →
    record.environment.find? name = none

variable {store store' store'' : Store} {ref : RecordRef} {record : Record}
  {region : ModuleId → Prop}

theorem Aligned.supplies (haligned : Aligned Eq region store store') {entry : ImportEntry}
    (hsource : region entry.source) {binding : Binding} (hsupplies : store.Supplies entry binding) :
    store'.Supplies entry binding := by
  unfold Supplies at hsupplies ⊢
  split
  · rename_i himported
    rwa [himported] at hsupplies
  · rename_i himported
    rw [himported] at hsupplies
    rw [haligned.resolveExport_eq hsource]
    exact hsupplies

/-- A module stays furnished as long as its dependencies export the same, and nothing is written to
its cells. -/
theorem Furnished.aligned (hfurnished : store.Furnished ref record)
    (haligned : Aligned Eq region store store')
    (hsources : ∀ entry ∈ record.imports, region entry.source)
    (hcell : ∀ cell name, store.cell? cell = some ⟨ref, record.id, name, none⟩ →
      store'.cell? cell = some ⟨ref, record.id, name, none⟩) : store'.Furnished ref record where
  imported name entry hentry := by
    obtain ⟨binding, hbound, hsupplies⟩ := hfurnished.imported name entry hentry
    exact ⟨binding, hbound,
      haligned.supplies (hsources entry (Record.mem_of_importOf? hentry)) hsupplies⟩
  own name hnone hname := by
    obtain ⟨cell, hbound, hfound⟩ := hfurnished.own name hnone hname
    exact ⟨cell, hbound, hcell cell name hfound⟩
  other := hfurnished.other

/-- Two stores are aligned if the modules of a region have the same cells under the names they
export. -/
theorem aligned_of_same (hmodules : ∀ id, region id → ∃ ref record record',
      store.Registered id ref record ∧ store'.Registered id ref record' ∧
      record'.id = record.id ∧ record'.format = record.format ∧
      record'.exportEntries = record.exportEntries ∧
      (record.format = .modern → ∀ name, OwnName record.exportEntries name →
        record'.environment.find? name = record.environment.find? name ∧
        ∀ cell, record.environment.find? name = some (.cell cell) →
          (store'.cell? cell).map (·.owner) = (store.cell? cell).map (·.owner)))
    (hclosed : ∀ id ref record, region id → store.Registered id ref record →
      record.format = .modern → ∀ entry ∈ record.exportEntries, ∀ source,
        entry.source? = some source → region source) :
    Aligned Eq region store store' := by
  have hexporting : ∀ id, region id → ∃ ref record record', store.Registered id ref record ∧
      store'.Registered id ref record' ∧ store.Exporting Eq store' ref ref record record' := by
    intro id hid
    obtain ⟨ref, record, record', hregistered, hregistered', hsameId, hformat, hentries, hsame⟩ :=
      hmodules id hid
    refine ⟨ref, record, record', hregistered, hregistered', hformat.symm, hentries.symm, ?_, ?_,
      fun _ => rfl⟩
    · rintro hmodern name cell hname ⟨hbound, found, hfound, howner⟩
      obtain ⟨henvironment, hcell⟩ := hsame hmodern name hname
      refine ⟨cell, ⟨henvironment.trans hbound, ?_⟩, rfl⟩
      have howners := hcell cell hbound
      rw [hfound, Option.map_some, howner] at howners
      obtain ⟨found', hfound', howner'⟩ := Option.map_eq_some_iff.mp howners
      exact ⟨found', hfound', howner'.trans hsameId.symm⟩
    · rintro hmodern name cell hname ⟨hbound', found', hfound', howner'⟩
      obtain ⟨henvironment, hcell⟩ := hsame hmodern name hname
      have hbound := henvironment.symm.trans hbound'
      refine ⟨cell, ⟨hbound, ?_⟩, rfl⟩
      have howners := hcell cell hbound
      rw [hfound', Option.map_some, howner', hsameId] at howners
      exact Option.map_eq_some_iff.mp howners.symm
  refine ⟨fun {id ref record} hid hregistered => ?_, fun {id ref' record'} hid hregistered' => ?_,
    fun {id ref record} hid hregistered => hclosed id ref record hid hregistered, fun _ => rfl⟩
  · obtain ⟨_, _, record', hfound, hregistered', hsame⟩ := hexporting id hid
    obtain ⟨rfl, rfl⟩ := hfound.unique hregistered
    exact ⟨_, record', hregistered', hsame⟩
  · obtain ⟨_, record, _, hregistered, hfound, hsame⟩ := hexporting id hid
    obtain ⟨rfl, rfl⟩ := hfound.unique hregistered'
    exact ⟨_, record, hregistered, hsame⟩

/-! ## The first pass -/

/-- All cells there were are as they were, and nothing has been written to any other. -/
def Unwritten (store store' : Store) : Prop :=
  ∀ cell found, store'.cell? cell = some found →
    store.cell? cell = some found ∨ found.value? = none

theorem Unwritten.of_cells (hsame : store'.cells = store.cells) : store.Unwritten store' := by
  intro cell found hfound
  unfold cell? at hfound ⊢
  rw [hsame] at hfound
  exact .inl hfound

theorem Unwritten.trans (hfirst : store.Unwritten store') (hsecond : store'.Unwritten store'') :
    store.Unwritten store'' := by
  intro cell found hfound
  rcases hsecond cell found hfound with hbefore | hnone
  · exact hfirst cell found hbefore
  · exact .inr hnone

theorem Unwritten.of_foldl {α : Type} {f : Store → α → Store}
    (hstep : ∀ (store : Store) (item : α), store.Unwritten (f store item)) (items : List α) (store : Store) :
    store.Unwritten (items.foldl f store) := by
  induction items generalizing store with
  | nil => exact .of_cells rfl
  | cons item rest ih => exact (hstep store item).trans (ih _)

theorem unwritten_declareEntry (ref : RecordRef) (owner : ModuleId) (store : Store)
    (entry : ExportEntry) : store.Unwritten (store.declareEntry ref owner entry) := by
  unfold declareEntry
  split
  · split
    · exact .of_cells rfl
    · intro cell found hfound
      rw [cell?_declare] at hfound
      split at hfound
      · exact .inr (Option.some.inj hfound ▸ rfl)
      · exact .inl hfound
  · exact .of_cells rfl

theorem unwritten_beginLink (store : Store) (ref : RecordRef) :
    store.Unwritten (store.beginLink ref) := by
  cases hrecord : store.record? ref with
  | none =>
      unfold beginLink
      rw [hrecord]
      exact .of_cells rfl
  | some record =>
      rw [beginLink_of_record hrecord]
      exact Unwritten.trans (.of_cells rfl) (.of_foldl (unwritten_declareEntry ref record.id) _ _)

/-- All that the names of a record refer to are cells of its own to which nothing has been
written. -/
def Blank (store : Store) (ref : RecordRef) (record : Record) : Prop :=
  ∀ name binding, record.environment.find? name = some binding → ∃ cell, binding = .cell cell ∧
    store.cell? cell = some ⟨ref, record.id, name, none⟩

theorem Blank.mono (hblank : store.Blank ref record)
    (hcell : ∀ cell found, store.cell? cell = some found → store'.cell? cell = some found) :
    store'.Blank ref record := by
  intro name binding hbound
  obtain ⟨cell, hbinding, hfound⟩ := hblank name binding hbound
  exact ⟨cell, hbinding, hcell cell _ hfound⟩

theorem blank_declareEntries (entries : List ExportEntry)
    (hrecord : store.record? ref = some record) (hblank : store.Blank ref record) :
    ∃ environment, (entries.foldl (declareEntry ref record.id) store).record? ref =
        some { record with environment } ∧
      (entries.foldl (declareEntry ref record.id) store).Blank ref { record with environment } := by
  induction entries generalizing store record with
  | nil => exact ⟨record.environment, hrecord, hblank⟩
  | cons entry rest ih =>
      rw [List.foldl_cons]
      have hstep : ∃ environment, (store.declareEntry ref record.id entry).record? ref =
            some { record with environment } ∧
          (store.declareEntry ref record.id entry).Blank ref { record with environment } := by
        cases entry with
        | indirect | star => exact ⟨record.environment, hrecord, hblank⟩
        | own as_ name =>
            rw [declareEntry_own hrecord]
            cases store.ownCell? record name with
            | some cell => exact ⟨record.environment, hrecord, hblank⟩
            | none =>
                refine ⟨record.environment.insert name (.cell ⟨store.cells.size⟩), ?_, ?_⟩
                · rw [record?_declare, if_pos rfl, hrecord, Option.map_some]
                · intro other binding hbound
                  change (record.environment.insert name _).find? other = some binding at hbound
                  rw [Table.find?_insert] at hbound
                  split at hbound
                  · rename_i hname
                    refine ⟨_, (Option.some.inj hbound).symm, ?_⟩
                    rw [cell?_declare, if_pos rfl, hname]
                  · obtain ⟨cell, hbinding, hfound⟩ := hblank other binding hbound
                    exact ⟨cell, hbinding, cell?_declare_of_cell hfound⟩
      obtain ⟨environment, hrecord', hblank'⟩ := hstep
      obtain ⟨environment', hrecord'', hblank''⟩ := ih hrecord' hblank'
      exact ⟨environment', hrecord'', hblank''⟩

theorem blank_beginLink (hrecord : store.record? ref = some record) {begun : Record}
    (hbegun : (store.beginLink ref).record? ref = some begun) :
    (store.beginLink ref).Blank ref begun := by
  rw [beginLink_of_record hrecord] at hbegun ⊢
  have hempty := record?_modify_self
    (fun record => { record with status := .linking, environment := {} }) hrecord
  obtain ⟨environment, hfound, hblank⟩ := blank_declareEntries record.exportEntries hempty
    (fun _ _ hbound => by cases hbound)
  obtain rfl := Option.some.inj (hfound.symm.trans hbegun)
  exact hblank

/-! ## The second pass -/

theorem Binds.cells {refs : List RecordRef} (hbinds : Relation.ReflTransGen (Binds refs) store store') :
    store'.cells = store.cells := by
  induction hbinds with
  | refl => rfl
  | tail _ hbind ih =>
      cases hbind
      exact ih

/-- Of several imports of one name it is the last that counts, and what it leads to is found in a
store in which only imports of the same record have been bound since. -/
theorem bindImport_foldlM_last {entries : List ImportEntry} {last : Store}
    (hrecord : store.record? ref = some record) (hsub : entries ⊆ record.imports)
    (hfold : entries.foldlM (fun store entry => store.bindImport ref entry) store = .ok last) :
    Relation.ReflTransGen (Binds [ref]) store last ∧ ∀ name,
      match entries.reverse.find? (·.as_ = name) with
      | none => last.binding? ref name = store.binding? ref name
      | some entry => ∃ middle binding, Relation.ReflTransGen (Binds [ref]) store middle ∧
          Relation.ReflTransGen (Binds [ref]) middle last ∧ middle.Supplies entry binding ∧
          last.binding? ref name = some binding := by
  -- the last import is bound last, so the induction takes the list from behind
  induction entries using List.reverseRecOn generalizing last with
  | nil =>
      obtain rfl := Except.ok.inj hfold
      exact ⟨.refl, fun _ => rfl⟩
  | append_singleton before entry ih =>
      rw [List.foldlM_append] at hfold
      obtain ⟨middle, hmiddle, hlast⟩ := bind_eq_ok_iff.mp hfold
      obtain ⟨hbefore, hnames⟩ := ih (fun _ hmem => hsub (List.mem_append_left _ hmem)) hmiddle
      rw [List.foldlM_cons] at hlast
      obtain ⟨last', hbound, hlast'⟩ := bind_eq_ok_iff.mp hlast
      obtain rfl := Except.ok.inj hlast'
      obtain ⟨binding, hsupplies, rfl⟩ := bindImport_eq_ok hbound
      obtain ⟨environment, hrecord', -⟩ := Binds.record_all hbefore hrecord
      have hentry : entry ∈ record.imports := hsub (by simp)
      have hbind : middle.Binds [ref] (middle.bind ref entry.as_ binding) :=
        .bind (by simp) hrecord' hentry hsupplies
      refine ⟨hbefore.tail hbind, fun name => ?_⟩
      rw [List.reverse_append, List.reverse_singleton, List.singleton_append, List.find?_cons]
      by_cases hname : entry.as_ = name
      · subst hname
        simp only [decide_true]
        exact ⟨middle, binding, hbefore, .single hbind, hsupplies, binding?_bind_self hrecord'⟩
      · have hsame : (middle.bind ref entry.as_ binding).binding? ref name =
            middle.binding? ref name := by
          unfold binding? Store.bind
          rw [record?_modify_self _ hrecord', hrecord']
          exact Table.find?_insert_ne _ (Ne.symm hname) _
        have hnames := hnames name
        simp only [hname, decide_false]
        split at hnames
        · rename_i hnone
          rw [hnone]
          exact hsame.trans hnames
        · rename_i found hfound
          obtain ⟨first, bound, hfirst, hthen, hfoundBinding, hkept⟩ := hnames
          rw [hfound]
          exact ⟨first, bound, hfirst, hthen.tail hbind, hfoundBinding, hsame.trans hkept⟩

/-! ## The end -/

theorem pendingLinks_split (front back : List ModuleId) {id : ModuleId}
    (hregistered : store.Registered id ref record) (hmodern : record.format = .modern)
    (hunlinked : record.status = .unlinked) : store.pendingLinks (front ++ id :: back) =
      store.pendingLinks front ++ ref :: store.pendingLinks back := by
  unfold pendingLinks
  rw [List.filterMap_append, List.filterMap_cons_some hregistered.lookup, List.filter_append,
    List.filter_cons_of_pos]
  rw [hregistered.record]
  simp [hmodern, hunlinked]

theorem cells_foldl_modify (f : Record → Record) (refs : List RecordRef) (store : Store) :
    (refs.foldl (fun store ref => store.modify ref f) store).cells = store.cells := by
  induction refs generalizing store with
  | nil => rfl
  | cons ref rest ih => exact ih (store.modify ref f)

/-- A module that stands before another in an order, or that is not taken, is not touched once the
imports of the other are being bound. -/
theorem not_mem_pendingLinks_rest {front back : List ModuleId} {id other : ModuleId}
    {ref' : RecordRef} (hnamed : store.Named) (hnodup : (front ++ id :: back).Nodup)
    (hlookup : store.lookup? id = some ref) (hother : store.lookup? other = some ref')
    (hfront : other ∈ front) : ref' ∉ ref :: store.pendingLinks back := by
  obtain ⟨-, -, hapart⟩ := List.nodup_append.mp hnodup
  rw [List.mem_cons, not_or]
  refine ⟨?_, fun hmem => ?_⟩
  · rintro rfl
    exact hapart other hfront id List.mem_cons_self (hnamed.unique hlookup hother)
  · obtain ⟨last, hlast, _, hregistered, -⟩ := mem_pendingLinks.mp hmem
    exact hapart other hfront last (List.mem_cons_of_mem _ hlast)
      (hnamed.unique hregistered.lookup hother)

/-- How linking comes to bind the imports of a record, and what it does to its names before and
afterwards. -/
theorem link_course {front back : List ModuleId} {id : ModuleId} (hnamed : store.Named)
    (hnodup : (front ++ id :: back).Nodup) (hregistered : store.Registered id ref record)
    (hmodern : record.format = .modern) (hunlinked : record.status = .unlinked)
    (hok : (store.link (front ++ id :: back)).1 = .ok ()) :
    ∃ first last bound environment environment',
      Rebinds (store.pendingLinks (front ++ id :: back)) store first ∧
      first.record? ref = some { record with status := .linking, environment } ∧
      (∀ name, OwnName record.exportEntries name ↔ (environment.find? name).isSome) ∧
      first.Blank ref { record with status := .linking, environment } ∧
      record.imports.foldlM (fun store entry => store.bindImport ref entry) first = .ok last ∧
      last.record? ref = some { record with status := .linking, environment := environment' } ∧
      Relation.ReflTransGen (Binds (store.pendingLinks back)) last bound ∧
      bound.record? ref = last.record? ref ∧
      (store.link (front ++ id :: back)).2 = (store.pendingLinks (front ++ id :: back)).foldl
        (fun store ref => store.setStatus ref .linked) bound := by
  have hsplit := pendingLinks_split front back hregistered hmodern hunlinked
  have hapart := nodup_pendingLinks hnamed hnodup
  have hmem : ref ∈ store.pendingLinks (front ++ id :: back) := by simp [hsplit]
  obtain ⟨begun, hbegun, ⟨environment, rfl⟩, howns, honly⟩ :=
    begun_record hapart hmem hregistered.record
  have hbegins : Rebinds (store.pendingLinks (front ++ id :: back)) store
      ((store.pendingLinks (front ++ id :: back)).foldl beginLink store) :=
    .of_foldl rebinds_beginLink _ store
  obtain ⟨bound, hbound, -⟩ : ∃ bound,
      (store.pendingLinks (front ++ id :: back)).foldlM bindImports
          ((store.pendingLinks (front ++ id :: back)).foldl beginLink store) = .ok bound ∧ True := by
    rcases link_cases hapart with ⟨bound, hbound, -⟩ | ⟨_, -, herror, -⟩
    · exact ⟨bound, hbound, trivial⟩
    · rw [hok] at herror
      cases herror
  have hend : (store.link (front ++ id :: back)).2 =
      (store.pendingLinks (front ++ id :: back)).foldl
        (fun store ref => store.setStatus ref .linked) bound := by
    unfold link
    dsimp only
    rw [hbound]
  rw [hsplit] at hapart hbegun howns hbegins hbound
  obtain ⟨-, hrest, hdisjoint⟩ := List.nodup_append.mp hapart
  have hfront : ref ∉ store.pendingLinks front :=
    fun hmem => hdisjoint ref hmem ref List.mem_cons_self rfl
  have hback : ref ∉ store.pendingLinks back := (List.nodup_cons.mp hrest).1
  -- its cells are made at its own turn, and no other turn takes them away
  have hblank : ((store.pendingLinks front ++ ref :: store.pendingLinks back).foldl beginLink
      store).Blank ref { record with status := .linking, environment } := by
    rw [List.foldl_append, List.foldl_cons] at hbegun ⊢
    have hbefore : Rebinds (store.pendingLinks front) store
        ((store.pendingLinks front).foldl beginLink store) := .of_foldl rebinds_beginLink _ store
    have hafter : Rebinds (store.pendingLinks back)
        (((store.pendingLinks front).foldl beginLink store).beginLink ref)
        ((store.pendingLinks back).foldl beginLink
          (((store.pendingLinks front).foldl beginLink store).beginLink ref)) :=
      .of_foldl rebinds_beginLink _ _
    rw [hafter.other ref hback] at hbegun
    have hturn := (hbefore.other ref hfront).trans hregistered.record
    exact (blank_beginLink hturn hbegun).mono hafter.cell
  rw [List.foldlM_append] at hbound
  obtain ⟨first, hfirst, hthen⟩ := bind_eq_ok_iff.mp hbound
  rw [List.foldlM_cons] at hthen
  obtain ⟨last, hlast, hlater⟩ := bind_eq_ok_iff.mp hthen
  obtain ⟨hbinds, -⟩ := bindImports_foldlM_eq_ok hfirst
  obtain ⟨hbinds', -⟩ := bindImports_foldlM_eq_ok hlater
  have hrecord : first.record? ref = some { record with status := .linking, environment } := by
    rw [(Binds.rebinds_all hbinds).other ref hfront, hbegun]
  unfold bindImports at hlast
  rw [hrecord, Option.map_some, Option.getD_some] at hlast
  obtain ⟨last', hentries, hchecked⟩ := bind_eq_ok_iff.mp hlast
  obtain ⟨-, -, hsame⟩ := bind_eq_ok_iff.mp hchecked
  obtain rfl := Except.ok.inj hsame
  obtain ⟨hown, -⟩ := bindImport_foldlM_last hrecord (List.Subset.refl _) hentries
  obtain ⟨environment', hrecord', -⟩ := Binds.record_all hown hrecord
  refine ⟨first, last', bound, environment, environment', ?_, hrecord, ?_, ?_, hentries, hrecord',
    hbinds', (Binds.rebinds_all hbinds').other ref hback, hend⟩
  · rw [hsplit]
    exact hbegins.trans ((Binds.rebinds_all hbinds).mono (List.subset_append_left _ _))
  · intro name
    refine ⟨fun hname => ?_, honly name⟩
    obtain ⟨cell, hcell, -⟩ := howns name hname
    rw [show environment.find? name = some (.cell cell) from hcell]
    rfl
  · exact hblank.mono (Binds.rebinds_all hbinds).cell

/-- **A module that linking has taken is furnished**, if all it imports from stands before it or was
not taken. -/
theorem furnished_link {front back : List ModuleId} {id : ModuleId} (hnamed : store.Named)
    (hnodup : (front ++ id :: back).Nodup) (hregistered : store.Registered id ref record)
    (hmodern : record.format = .modern) (hunlinked : record.status = .unlinked)
    (hok : (store.link (front ++ id :: back)).1 = .ok ())
    (hregion : ∀ other, region other → ∃ ref' record', store.Registered other ref' record' ∧
      (other ∈ front ∨ ref' ∉ store.pendingLinks (front ++ id :: back)))
    (hclosed : ∀ other ref' record', region other → store.Registered other ref' record' →
      record'.format = .modern → ∀ entry ∈ record'.exportEntries, ∀ source,
        entry.source? = some source → region source)
    (hsources : ∀ entry ∈ record.imports, region entry.source) {record' : Record}
    (hrecord' : (store.link (front ++ id :: back)).2.record? ref = some record') :
    (store.link (front ++ id :: back)).2.Furnished ref record' := by
  have hsplit := pendingLinks_split front back hregistered hmodern hunlinked
  obtain ⟨first, last, bound, environment, environment', hbegins, hfirst, hnames, hblank, hentries,
    hlast, hbinds, hkept, hend⟩ := link_course hnamed hnodup hregistered hmodern hunlinked hok
  obtain ⟨hown, himports⟩ := bindImport_foldlM_last hfirst (fun _ hmem => hmem) hentries
  rw [show ({ record with status := .linking, environment } : Record).imports = record.imports
    from rfl] at himports
  have hrecord? := record?_foldl_modify (fun record => { record with status := .linked })
    (fun _ => rfl) (store.pendingLinks (front ++ id :: back)) bound
  have hfinal : (store.link (front ++ id :: back)).2.record? ref =
      some { record with status := .linked, environment := environment' } := by
    rw [hend]
    unfold setStatus
    rw [hrecord?, if_pos (by simp [hsplit]), hkept, hlast]
    rfl
  obtain rfl := Option.some.inj (hfinal.symm.trans hrecord')
  have hsets : Rebinds (store.pendingLinks (front ++ id :: back)) bound
      (store.link (front ++ id :: back)).2 := by
    rw [hend]
    exact .of_foldl (fun store ref => rebinds_setStatus store ref .linked) _ bound
  have hcells : (store.link (front ++ id :: back)).2.cells = bound.cells := by
    rw [hend]
    exact cells_foldl_modify _ _ bound
  have hlocal : ∀ name, last.binding? ref name = environment'.find? name := by
    intro name
    unfold binding?
    rw [hlast]
    rfl
  have hbefore : ∀ name, first.binding? ref name = environment.find? name := by
    intro name
    unfold binding?
    rw [hfirst]
    rfl
  -- from the moment at which an import is bound, no module of the region is touched
  have haligned : ∀ middle, Relation.ReflTransGen (Binds [ref]) first middle →
      Relation.ReflTransGen (Binds [ref]) middle last →
      Aligned Eq region middle (store.link (front ++ id :: back)).2 := by
    intro middle hfrom hto
    have hthen : Relation.ReflTransGen (Binds (ref :: store.pendingLinks back)) middle bound :=
      (Binds.mono_all (by simp) hto).trans (Binds.mono_all (by simp) hbinds)
    have hmiddle : Rebinds (store.pendingLinks (front ++ id :: back)) store middle :=
      hbegins.trans ((Binds.rebinds_all hfrom).mono (by simp [hsplit]))
    refine aligned_of_same (fun other hother => ?_)
      (fun other ref' found hother hfound hmodern' entry hentry source hsource => ?_)
    · obtain ⟨ref', found, hfound, hapart⟩ := hregion other hother
      have huntouched : ref' ∉ ref :: store.pendingLinks back := by
        rcases hapart with hfront | hnot
        · exact not_mem_pendingLinks_rest hnamed hnodup hregistered.lookup hfound.lookup hfront
        · rw [hsplit] at hnot
          exact fun hmem => hnot (List.mem_append_right _ hmem)
      obtain ⟨status, names, hmid⟩ := hmiddle.record ref' found hfound.record
      have hbound : bound.record? ref' = some { found with status, environment := names } := by
        rw [(Binds.rebinds_all hthen).other ref' huntouched, hmid]
      have hlookup : middle.lookup? other = some ref' := by rw [hmiddle.lookup, hfound.lookup]
      have hlookup' : (store.link (front ++ id :: back)).2.lookup? other = some ref' := by
        rw [hsets.lookup, (Binds.rebinds_all hthen).lookup, hlookup]
      have hfinal' : ∃ status, (store.link (front ++ id :: back)).2.record? ref' =
          some { found with status, environment := names } := by
        rw [hend]
        unfold setStatus
        rw [hrecord?, hbound]
        split
        · exact ⟨.linked, rfl⟩
        · exact ⟨status, rfl⟩
      obtain ⟨status', hfinal'⟩ := hfinal'
      refine ⟨ref', _, _, ⟨hlookup, hmid⟩, ⟨hlookup', hfinal'⟩, rfl, rfl, rfl,
        fun _ name _ => ⟨rfl, fun cell _ => ?_⟩⟩
      unfold cell?
      rw [hcells, Binds.cells hthen]
    · obtain ⟨ref'', before, hbeforeRegistered, -⟩ := hregion other hother
      obtain ⟨status, names, hmid⟩ := hmiddle.record ref'' before hbeforeRegistered.record
      obtain ⟨rfl, rfl⟩ := hfound.unique ⟨by rw [hmiddle.lookup, hbeforeRegistered.lookup], hmid⟩
      exact hclosed other _ before hother hbeforeRegistered hmodern' entry hentry source hsource
  refine ⟨fun name entry hentry => ?_, fun name hnone hname => ?_, fun name hnone hname => ?_⟩
  · have hbound := himports name
    change record.imports.reverse.find? (·.as_ = name) = some entry at hentry
    rw [hentry] at hbound
    obtain ⟨middle, binding, hfrom, hto, hsupplies, hbinding⟩ := hbound
    exact ⟨binding, (hlocal name).symm.trans hbinding, (haligned middle hfrom hto).supplies
      (hsources entry (Record.mem_of_importOf? hentry)) hsupplies⟩
  · have hbound := himports name
    change record.imports.reverse.find? (·.as_ = name) = none at hnone
    rw [hnone, hlocal, hbefore] at hbound
    obtain ⟨binding, hbinding⟩ := Option.isSome_iff_exists.mp ((hnames name).mp hname)
    obtain ⟨cell, rfl, hcell⟩ := hblank name binding hbinding
    exact ⟨cell, hbound.trans hbinding, hsets.cell cell _ ((Binds.rebinds_all hbinds).cell cell _
      ((Binds.rebinds_all hown).cell cell _ hcell))⟩
  · have hbound := himports name
    change record.imports.reverse.find? (·.as_ = name) = none at hnone
    rw [hnone, hlocal, hbefore] at hbound
    refine hbound.trans (Option.not_isSome_iff_eq_none.mp (fun hsome => hname ((hnames name).mpr hsome)))

/-- Linking writes nothing. -/
theorem unwritten_link (store : Store) (order : List ModuleId) :
    store.Unwritten (store.link order).2 := by
  have hbegun := Unwritten.of_foldl unwritten_beginLink (store.pendingLinks order) store
  have hmodify : ∀ (f : Record → Record) (start : Store),
      start.Unwritten ((store.pendingLinks order).foldl (fun store ref => store.modify ref f) start) :=
    fun f start => .of_cells (cells_foldl_modify f _ start)
  unfold link
  dsimp only
  cases hfold : (store.pendingLinks order).foldlM bindImports
      ((store.pendingLinks order).foldl beginLink store) with
  | error error => exact hbegun.trans (hmodify _ _)
  | ok bound =>
      obtain ⟨hbinds, -⟩ := bindImports_foldlM_eq_ok hfold
      exact (hbegun.trans (.of_cells (Binds.cells hbinds))).trans (hmodify _ bound)

end Store

end Linkage
