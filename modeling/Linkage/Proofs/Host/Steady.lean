import Linkage.Proofs.Engine.Unbounded
import Linkage.Proofs.Naming.Spellings
import Linkage.Proofs.Packages.Subpaths
import Linkage.Proofs.Runs.Upholding

/-!
# Hosts whose bodies leave the engine in order

A script gives no commands to the engine that runs it, so the bodies of files never forget the
modules or change the host, and the bodies of a shelf do so only if somebody puts such a body there.
Either host has finitely many modules: on a shelf they are listed, and in files each has a place of
its own in the tree, since a path in the one form of all paths says where it leads.

* `Host.Steady` : no body forgets the modules or changes the host.
* `Shelf.load_insert` : what a shelf gives.
* `FileHost.steady`, `Shelf.steady_insert` : which hosts are steady.
* `FileTree.exists_places` : a tree has no more places than files and directories.
* `Shelf.covers`, `FileHost.confines` : the modules of a shelf and those of files.
-/

namespace Linkage

/-- No body that a host gives forgets the modules or changes the host. -/
def Host.Steady (host : Host) : Prop :=
  ∀ id source, host.Gives id source → ∀ instruction ∈ source.body, instruction.Lasts

/-- A script gives no commands to the engine. -/
theorem Descriptor.lasts_toSource (source : Descriptor) :
    ∀ instruction ∈ source.toSource.body, instruction.Lasts := by
  intro instruction hmem
  obtain ⟨statement, -, rfl⟩ := List.mem_map.mp hmem
  exact nofun

/-- Files hold scripts. -/
theorem FileHost.steady (files : FileHost) : files.toHost.Steady := by
  intro id source hgives
  have hload : files.load id = .ok source := hgives.elim (fun hload => hload) (fun hload => hload)
  unfold FileHost.load at hload
  split at hload
  · unfold FileHost.parse at hload
    split at hload
    · split at hload
      · exact Except.ok.inj hload ▸ Descriptor.lasts_toSource _
      · cases hload
    · split at hload
      · exact Except.ok.inj hload ▸ Descriptor.lasts_toSource _
      · cases hload
  · cases hload

namespace Shelf

/-- What a shelf gives after a module was added is that module, or was given before. -/
theorem load_insert {shelf : Shelf} {path : String} {source found : ModuleSource} {id : ModuleId}
    (hload : (shelf.insert path source).load id = .ok found) :
    id = .ofPath path ∧ found = source ∨ shelf.load id = .ok found := by
  unfold load insert at hload
  dsimp only at hload
  rw [Table.find?_insert] at hload
  split at hload
  · rename_i hfound
    split at hfound
    · rename_i htext
      exact .inl ⟨congrArg ModuleId.mk htext,
        ((Option.some.inj hfound).trans (Except.ok.inj hload)).symm⟩
    · refine .inr ?_
      unfold load
      rw [hfound]
      exact hload
  · cases hload

theorem steady_empty : empty.toHost.Steady := by
  intro id source hgives
  rcases hgives with hload | hload <;> cases hload

/-- A shelf stays steady when a module is added whose body gives no such command. -/
theorem steady_insert {shelf : Shelf} (hsteady : shelf.toHost.Steady) (path : String)
    {source : ModuleSource} (hlasts : ∀ instruction ∈ source.body, instruction.Lasts) :
    (shelf.insert path source).toHost.Steady := by
  intro id found hgives
  have hload : (shelf.insert path source).load id = .ok found :=
    hgives.elim (fun hload => hload) (fun hload => hload)
  rcases load_insert hload with ⟨-, rfl⟩ | hload
  · exact hlasts
  · exact hsteady id found (.inl hload)

/-- Finitely many modules stand on a shelf. -/
theorem covers (shelf : Shelf) :
    shelf.toHost.Covers (shelf.modules.keys.map ModuleId.mk ++ shelf.announced) := by
  refine ⟨?_, fun id hholds => List.mem_append.mpr ?_⟩
  · rw [List.length_append, List.length_map]
    exact Nat.le_of_eq (congrArg (· + shelf.announced.length) (List.length_map _))
  · rcases (Bool.or_eq_true _ _).mp hholds with hcontains | hannounced
    · obtain ⟨source, hfound⟩ := Option.isSome_iff_exists.mp hcontains
      exact .inl (List.mem_map.mpr ⟨id.text, Table.mem_keys_of_find? hfound, rfl⟩)
    · exact .inr (List.contains_iff_mem.mp hannounced)

end Shelf

/-! ## Files -/

namespace FileTree

/-- A directory counts itself and all that is below it. -/
theorem size_dir (entries : List (String × FileTree)) :
    (dir entries).size = entries.foldr (fun entry count => entry.2.size + count) 1 := by
  rw [size, List.foldr_subtype (g := fun entry count => entry.2.size + count) (fun _ _ _ => rfl),
    List.unattach_attach]

/-- The places below a directory, given those in each of its entries. -/
theorem exists_places_below {entries : List (String × FileTree)}
    (hplaces : ∀ entry ∈ entries, ∃ places : List (List String), places.length ≤ entry.2.size ∧
      ∀ names, (entry.2.descend? names).isSome → names ∈ places) :
    ∃ places : List (List String),
      places.length < entries.foldr (fun entry count => entry.2.size + count) 1 ∧
      ∀ name tree names, child? name entries = some tree → (tree.descend? names).isSome →
        name :: names ∈ places := by
  induction entries with
  | nil => exact ⟨[], Nat.zero_lt_one, nofun⟩
  | cons entry rest ih =>
      obtain ⟨first, hfirst, hcovers⟩ := hplaces entry List.mem_cons_self
      obtain ⟨more, hmore, hcovers'⟩ := ih (fun other hother =>
        hplaces other (List.mem_cons_of_mem entry hother))
      refine ⟨first.map (entry.1 :: ·) ++ more, ?_, fun name tree names hchild hsome => ?_⟩
      · rw [List.length_append, List.length_map, List.foldr_cons]
        exact Nat.add_lt_add_of_le_of_lt hfirst hmore
      · unfold child? at hchild
        split at hchild
        · rename_i hname
          subst hname
          obtain rfl := Option.some.inj hchild
          exact List.mem_append_left _ (List.mem_map_of_mem (hcovers names hsome))
        · exact List.mem_append_right _ (hcovers' name tree names hchild hsome)

/-- A tree has no more places than files and directories. -/
theorem exists_places (tree : FileTree) : ∃ places : List (List String),
    places.length ≤ tree.size ∧ ∀ names, (tree.descend? names).isSome → names ∈ places := by
  induction tree using size.induct with
  | case1 content =>
      refine ⟨[[]], by rw [size]; rfl, fun names hsome => ?_⟩
      cases names with
      | nil => exact List.mem_cons_self
      | cons => cases hsome
  | case2 entries ih =>
      have hplaces : ∀ entry ∈ entries, ∃ places : List (List String),
          places.length ≤ entry.2.size ∧
            ∀ names, (entry.2.descend? names).isSome → names ∈ places :=
        fun entry hentry => ih entry.1 entry.2 hentry
      obtain ⟨below, hlength, hcovers⟩ := exists_places_below hplaces
      refine ⟨[] :: below, ?_, fun names hsome => ?_⟩
      · rw [size_dir]
        exact hlength
      · cases names with
        | nil => exact List.mem_cons_self
        | cons name rest =>
            obtain ⟨found, hfound⟩ := Option.isSome_iff_exists.mp hsome
            obtain ⟨tree, hchild, hbelow⟩ := Option.bind_eq_some_iff.mp hfound
            exact List.mem_cons_of_mem _
              (hcovers name tree rest hchild (Option.isSome_iff_exists.mpr ⟨found, hbelow⟩))

/-- A file has its place where the components of its path lead. -/
theorem exists_place_of_isFile {root : FileTree} {path : String} (hslashed : '\\' ∉ path.toList)
    (hfile : root.isFile path = true) : ∃ names, (root.descend? names).isSome ∧
      names.map String.toList = ModuleId.components path.toList := by
  unfold isFile at hfile
  split at hfile
  · rename_i content hlocated
    obtain ⟨names, hwalk, hfound⟩ := bind_eq_ok_iff.mp hlocated
    refine ⟨names, ?_, walk_eq_components hslashed hwalk⟩
    cases hdescend : root.descend? names with
    | none =>
        rw [hdescend] at hfound
        cases hfound
    | some found => rfl
  · cases hfile

end FileTree

/-- **In files only finitely many modules can be named**, no more than there are files and directories:
a module is named by its canonical path, and that says where in the tree it is. -/
theorem FileHost.confines (files : FileHost) (config : Config) :
    ∃ ids, config.Confines files.toHost ids := by
  obtain ⟨places, hlength, hcovers⟩ := files.tree.exists_places
  refine ⟨places.map (fun names => ⟨String.ofList (ModuleId.pathText (names.map String.toList))⟩),
    by rwa [List.length_map], fun resolved hnames => List.mem_map.mpr ?_⟩
  have hfile : files.tree.isFile resolved.id.text = true := hnames.held.1
  obtain ⟨specifier, referrer?, hresolved⟩ := hnames
  have hcanonical := Config.isCanonical_of_resolve files.isCanonical hresolved
  obtain ⟨names, hsome, hcomponents⟩ := FileTree.exists_place_of_isFile hcanonical.slashed hfile
  refine ⟨names, hcovers names hsome, ?_⟩
  rw [hcomponents]
  exact hcanonical.ofPath_text

end Linkage
