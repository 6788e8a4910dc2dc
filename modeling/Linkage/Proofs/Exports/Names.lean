import Linkage.Proofs.Exports.Search

/-!
# The list of exported names

The names of a module are those its own entries give and, except for the default export, those of
the sources of its `export *`.  The list is gathered depth first over all modules that `export *`
leads to; a module that comes up a second time gives nothing more, as its names are in the list.

* `Store.Shows` : the names of a module, with nothing said of the order they are gathered in.
* `Store.Gathered` : what is gathered while the modules behind some sources are still to be visited.
* `mem_exportedNames_iff` : the list holds the names that the module shows.
-/

namespace Linkage.Store

/-- A module passes on the names of another along an `export *`. -/
def Forwards (store : Store) (id source : ModuleId) : Prop :=
  ∃ ref record, store.Registered id ref record ∧ record.format = .modern ∧
    .star source ∈ record.exportEntries

/-- A module gives a name by itself: an entry has it, or it is the default of a legacy module. -/
def Lists (store : Store) (id : ModuleId) (name : String) : Prop :=
  ∃ ref record, store.Registered id ref record ∧
    ((record.format = .legacy ∧ name = "default") ∨
      ∃ entry ∈ record.exportEntries, entry.publicName? = some name)

/-- A module gives a name by itself or passes it on; no default export is passed on. -/
inductive Shows (store : Store) : ModuleId → String → Prop
  | own {id : ModuleId} {name : String} (hlists : store.Lists id name) : Shows store id name
  | along {id source : ModuleId} {name : String} (hname : name ≠ "default")
      (hforwards : store.Forwards id source) (hshows : Shows store source name) :
      Shows store id name

/-- What has been gathered from a module and the modules visited on the way, while some sources of
its own are still to be visited. -/
structure Gathered (store : Store) (id : ModuleId) (visited : List ModuleId)
    (rest : List ModuleId) (answer : List String × List ModuleId) : Prop where
  grows : visited ⊆ answer.2
  reached : id ∈ answer.2
  /-- Of the modules visited now only this one passes on names of modules not visited yet. -/
  closed : ∀ other ∈ answer.2, other ∉ visited → ∀ source, store.Forwards other source →
    source ∈ answer.2 ∨ (other = id ∧ source ∈ rest)
  /-- Nothing that the modules visited now give is left out, but for their default exports. -/
  complete : ∀ other ∈ answer.2, other ∉ visited → ∀ name, store.Lists other name →
    (name = "default" → other = id) → name ∈ answer.1
  sound : ∀ name ∈ answer.1, store.Shows id name

variable {store : Store} {id source : ModuleId} {visited rest : List ModuleId}

/-- How many registered modules have not been visited. -/
def unvisited (store : Store) (visited : List ModuleId) : Nat :=
  (store.ids.filter (· ∉ visited)).length

theorem unvisited_le {seen : List ModuleId} (hsub : visited ⊆ seen) :
    store.unvisited seen ≤ store.unvisited visited :=
  (List.monotone_filter_right store.ids (fun other hother => by
    simpa using fun hmem => (by simpa using hother : other ∉ seen) (hsub hmem))).length_le

/-- Visiting a registered module for the first time leaves fewer to visit. -/
theorem unvisited_snoc (hid : id ∈ store.ids) (hnew : id ∉ visited) :
    store.unvisited (visited ++ [id]) < store.unvisited visited := by
  have hsplit : store.ids.filter (· ∉ visited ++ [id]) =
      (store.ids.filter (· ∉ visited)).filter (· ≠ id) := by
    rw [List.filter_filter]
    congr 1
    funext other
    simp [not_or, and_comm]
  unfold unvisited
  rw [hsplit, List.length_filter_lt_length_iff_exists]
  exact ⟨id, by simpa using ⟨hid, hnew⟩, by simp⟩

namespace Gathered

/-- A module that is not visited again, or not registered, gives nothing. -/
theorem of_nothing {seen : List ModuleId} (hgrows : visited ⊆ seen) (hreached : id ∈ seen)
    (honly : ∀ other ∈ seen, other ∉ visited → store.find? other = none) :
    store.Gathered id visited [] ([], seen) where
  grows := hgrows
  reached := hreached
  closed other hmem hnew source hforwards := by
    obtain ⟨ref, record, hregistered, -⟩ := hforwards
    have hnone := honly other hmem hnew
    rw [hregistered.find] at hnone
    cases hnone
  complete other hmem hnew name hlists _ := by
    obtain ⟨ref, record, hregistered, -⟩ := hlists
    have hnone := honly other hmem hnew
    rw [hregistered.find] at hnone
    cases hnone
  sound _ hname := absurd hname List.not_mem_nil

/-- What the module gives by itself, before any of its sources is visited. -/
theorem of_record {ref : RecordRef} {record : Record} {names : List String}
    (hregistered : store.Registered id ref record)
    (hsources : record.format = .modern → Store.starSources record.exportEntries ⊆ rest)
    (hnames : ∀ name, name ∈ names ↔ (record.format = .legacy ∧ name = "default") ∨
      ∃ entry ∈ record.exportEntries, entry.publicName? = some name) :
    store.Gathered id visited rest (names, visited ++ [id]) := by
  -- the only module visited now is this one
  have honly : ∀ other ∈ visited ++ [id], other ∉ visited → other = id := by
    intro other hmem hnew
    exact List.mem_singleton.mp ((List.mem_append.mp hmem).resolve_left hnew)
  refine ⟨List.subset_append_left visited [id], by simp, ?_, ?_, ?_⟩
  · intro other hmem hnew source ⟨_, _, hfound, hmodern, hstar⟩
    obtain rfl := honly other hmem hnew
    obtain ⟨rfl, rfl⟩ := hregistered.unique hfound
    exact .inr ⟨rfl, hsources hmodern (mem_starSources.mpr hstar)⟩
  · intro other hmem hnew name ⟨_, _, hfound, hlists⟩ _
    obtain rfl := honly other hmem hnew
    obtain ⟨rfl, rfl⟩ := hregistered.unique hfound
    exact (hnames name).mpr hlists
  · intro name hname
    exact .own ⟨ref, record, hregistered, (hnames name).mp hname⟩

/-- What the next source gives is added, except for its default export. -/
theorem cons {names more : List String} {seen seen' : List ModuleId}
    (hgathered : store.Gathered id visited (source :: rest) (names, seen))
    (hforwards : store.Forwards id source) (hmore : store.Gathered source seen [] (more, seen')) :
    store.Gathered id visited rest
      (names ++ more.filter (fun name => name ≠ "default" ∧ name ∉ names), seen') where
  grows := List.Subset.trans hgathered.grows hmore.grows
  reached := hmore.grows hgathered.reached
  closed other hmem hnew next hnext := by
    by_cases hseen : other ∈ seen
    · rcases hgathered.closed other hseen hnew next hnext with hvisited | ⟨hother, hpending⟩
      · exact .inl (hmore.grows hvisited)
      · rcases List.mem_cons.mp hpending with rfl | hrest
        · exact .inl hmore.reached
        · exact .inr ⟨hother, hrest⟩
    · refine .inl ((hmore.closed other hmem hseen next hnext).resolve_right ?_)
      exact fun hpending => List.not_mem_nil hpending.2
  complete other hmem hnew name hlists hdefault := by
    by_cases hseen : other ∈ seen
    · exact List.mem_append_left _ (hgathered.complete other hseen hnew name hlists hdefault)
    · -- the module itself was visited before, so the name is not a default export
      have hname : name ≠ "default" := by
        intro heq
        exact hseen (hdefault heq ▸ hgathered.reached)
      have hfound := hmore.complete other hmem hseen name hlists (fun heq => absurd heq hname)
      by_cases hknown : name ∈ names
      · exact List.mem_append_left _ hknown
      · exact List.mem_append_right _
          (List.mem_filter.mpr ⟨hfound, decide_eq_true ⟨hname, hknown⟩⟩)
  sound name hmem := by
    rcases List.mem_append.mp hmem with hknown | hadded
    · exact hgathered.sound name hknown
    · obtain ⟨hfound, hkept⟩ := List.mem_filter.mp hadded
      exact .along (of_decide_eq_true hkept).1 hforwards (hmore.sound name hfound)

/-- Visiting the sources of `export *` one after the other, given what each single visit does. -/
theorem foldl {visit : ModuleId → List ModuleId → List String × List ModuleId} {bound : Nat}
    (hvisit : ∀ source seen, store.unvisited seen ≤ bound →
      store.Gathered source seen [] (visit source seen))
    {sources : List ModuleId} (hforwards : ∀ source ∈ sources, store.Forwards id source)
    {answer : List String × List ModuleId} (hgathered : store.Gathered id visited sources answer)
    (hbound : store.unvisited answer.2 ≤ bound) :
    store.Gathered id visited [] (sources.foldl (fun (names, visited) source =>
      let (more, visited) := visit source visited
      (names ++ more.filter (fun name => name ≠ "default" ∧ name ∉ names), visited)) answer) := by
  induction sources generalizing answer with
  | nil => exact hgathered
  | cons source rest ih =>
      have hmore := hvisit source answer.2 hbound
      exact ih (fun other hother => hforwards other (List.mem_cons_of_mem _ hother))
        (hgathered.cons (hforwards source List.mem_cons_self) hmore)
        (Nat.le_trans (unvisited_le hmore.grows) hbound)

end Gathered

/-- Every visit with enough fuel gathers the names of the module and of what it leads to. -/
theorem namesWithin_gathers (fuel : Nat) (id : ModuleId) (visited : List ModuleId)
    (hfuel : store.unvisited visited < fuel) :
    store.Gathered id visited [] (store.namesWithin fuel id visited) := by
  -- on the fuel, which is more than the number of modules that can still come up
  induction fuel generalizing id visited with
  | zero => omega
  | succ fuel ih =>
      unfold namesWithin
      split
      · rename_i hvisited
        exact .of_nothing (List.Subset.refl _) hvisited (fun _ hmem hnew => absurd hmem hnew)
      · rename_i hnew
        dsimp only
        cases hfind : store.find? id with
        | none =>
            refine .of_nothing (List.subset_append_left visited [id]) (by simp) ?_
            intro other hmem hother
            rwa [List.mem_singleton.mp ((List.mem_append.mp hmem).resolve_left hother)]
        | some record =>
            obtain ⟨ref, hregistered⟩ := exists_registered_of_find hfind
            have hleft : store.unvisited (visited ++ [id]) < fuel :=
              Nat.lt_of_lt_of_le (unvisited_snoc hregistered.mem_ids hnew) (Nat.le_of_lt_succ hfuel)
            dsimp only
            cases hformat : record.format with
            | legacy =>
                refine .of_record hregistered (by simp [hformat]) (fun name => ?_)
                simp [hformat, List.mem_filterMap]
            | modern =>
                refine Gathered.foldl
                  (fun source seen hbound => ih source seen (Nat.lt_of_le_of_lt hbound hleft)) ?_
                  (.of_record hregistered (fun _ => List.Subset.refl _) (fun name => ?_)) (Nat.le_refl _)
                · intro source hsource
                  exact ⟨ref, record, hregistered, hformat, mem_starSources.mp hsource⟩
                · simp [hformat, List.mem_filterMap]

/-- What a module shows has been gathered when the visit is over. -/
theorem Gathered.mem_of_shows {answer : List String × List ModuleId}
    (hgathered : store.Gathered id [] [] answer) {name : String} (hshows : store.Shows id name) :
    name ∈ answer.1 := by
  -- along the way to the module that gives the name, every module has been visited
  have hway : ∀ other name, store.Shows other name → other ∈ answer.2 →
      (name = "default" → other = id) → name ∈ answer.1 := by
    intro other name hother
    induction hother with
    | own hlists =>
        exact fun hmem hdefault => hgathered.complete _ hmem List.not_mem_nil _ hlists hdefault
    | along hname hforwards _ ih =>
        intro hmem _
        have hnext := (hgathered.closed _ hmem List.not_mem_nil _ hforwards).resolve_right
          (fun hpending => List.not_mem_nil hpending.2)
        exact ih hnext (fun heq => absurd heq hname)
  exact hway id name hshows hgathered.reached (fun _ => rfl)

/-- The list of exported names holds what the module shows. -/
theorem mem_exportedNames_iff {name : String} :
    name ∈ store.exportedNames id ↔ store.Shows id name := by
  have hgathered : store.Gathered id [] [] (store.namesWithin (store.size + 1) id []) := by
    refine namesWithin_gathers _ id [] (Nat.lt_succ_of_le ?_)
    exact store.length_ids ▸ List.length_filter_le _ _
  unfold exportedNames
  rw [Table.mem_keys_ofList, List.map_map]
  simp only [Function.comp_def, List.map_id']
  exact ⟨hgathered.sound name, hgathered.mem_of_shows⟩

end Linkage.Store
