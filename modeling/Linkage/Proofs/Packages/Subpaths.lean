import Linkage.Proofs.Fallible
import Linkage.Proofs.Packages.Finding

/-!
# Paths inside packages

A path inside a package is seen from the directory of the package, and only then brought into the one form
of all paths.  As long as it neither begins with a slash nor leads up it only adds components to those of
the directory, so that what it names lies in the package.  A path that begins with a slash is one of its
own, and the package does not matter for it.

* `ModuleId.LiesIn` : a path that leads through another one.
* `ofPath_joinPath` : a path seen from a directory is joined onto it.
* `Specifier.IsInner.join_liesIn` : a path that stays below where it begins.
* `FileTree.walk_eq_components` : a tree is walked through the components of the path.
* `FileHost.subpaths_stay_inside` : what a path inside a package names.
-/

namespace Linkage

open Text (pieces)

namespace ModuleId

/-- A module lies in a directory, or is that directory: its path leads through all the components of
the other one. -/
def LiesIn (id dir : ModuleId) : Prop :=
  components dir.text.toList <+: components id.text.toList

instance (id dir : ModuleId) : Decidable (id.LiesIn dir) :=
  inferInstanceAs (Decidable (_ <+: _))

/-- A walk that never goes up keeps the components it has led through. -/
theorem suffix_foldl_follow {parts : List (List Char)} (hup : ∀ part ∈ parts, part ≠ ['.', '.'])
    (walked : List (List Char)) : walked <:+ parts.foldl follow walked := by
  induction parts generalizing walked with
  | nil => exact List.suffix_rfl
  | cons part rest ih =>
      have hstep : walked <:+ follow walked part := by
        unfold follow
        rw [if_neg (hup part List.mem_cons_self)]
        split
        · exact List.suffix_rfl
        · exact List.suffix_cons part walked
      exact hstep.trans (ih (fun other hother => hup other (List.mem_cons_of_mem _ hother)) _)

end ModuleId

open ModuleId (components ofPath slashed follow)

/-- A path seen from a directory is joined onto it, an absolute one included. -/
theorem ofPath_joinPath (base path : String) : ofPath (joinPath base path) = Specifier.join base path := by
  unfold joinPath
  cases habsolute : Specifier.isAbsolute path with
  | true =>
      have hhead : path.toList.head? = some '/' := of_decide_eq_true habsolute
      rw [if_pos (.inl hhead), Specifier.join, if_pos habsolute]
  | false =>
      have hhead : path.toList.head? ≠ some '/' := of_decide_eq_false habsolute
      rw [Specifier.join_eq habsolute]
      refine ModuleId.ofPath_congr ?_
      by_cases hempty : base = ""
      · subst hempty
        rw [if_pos (.inr rfl)]
        have hnone : components ("" ++ "/" ++ path).toList = components ([] ++ '/' :: path.toList) := by
          simp
        rw [hnone, ModuleId.components_append]
        rfl
      · rw [if_neg (not_or.mpr ⟨hhead, hempty⟩)]
        split
        · rename_i hend
          obtain ⟨front, hfront⟩ := List.getLast?_eq_some_iff.mp hend
          have hshort : (base ++ path).toList = front ++ '/' :: path.toList := by simp [hfront]
          have hlong : (base ++ "/" ++ path).toList = (front ++ ['/']) ++ '/' :: path.toList := by
            simp [hfront]
          rw [hshort, hlong, ← Specifier.components_dropTrailing (front ++ ['/']),
            Text.dropTrailing_concat, if_pos rfl, Specifier.components_dropTrailing]
        · rfl

namespace Specifier

/-- A path that stays below where it begins: it has no slash in front, no step up, and no backslashes,
which would count as slashes. -/
structure IsInner (path : String) : Prop where
  relative : isAbsolute path = false
  slashed : '\\' ∉ path.toList
  up : ∀ step ∈ pieces '/' path.toList, step ≠ ['.', '.']

/-- Such a path adds components to those of the directory. -/
theorem IsInner.join_liesIn {path : String} (hinner : IsInner path) (base : String) :
    (join base path).LiesIn (ofPath base) := by
  have happend : (base ++ "/" ++ path).toList = base.toList ++ '/' :: path.toList := by simp
  unfold ModuleId.LiesIn
  rw [join_eq hinner.relative, ModuleId.components_ofPath, ModuleId.components_ofPath, happend,
    ModuleId.components_append, ModuleId.map_slashed_of_not_mem hinner.slashed]
  have hkept := ModuleId.suffix_foldl_follow hinner.up (components base.toList).reverse
  rwa [← List.reverse_prefix, List.reverse_reverse] at hkept

end Specifier

namespace FileTree

/-- A step through a tree leads where the same component of a path does. -/
theorem map_toList_walkStep {root : FileTree} {here there : List String} {step : String}
    (hstep : root.walkStep here step = .ok there) :
    there.map String.toList = follow (here.map String.toList) step.toList := by
  have hstays : step.toList = [] ∨ step.toList = ['.'] ↔ step = "" ∨ step = "." := by
    rw [← String.toList_inj, ← String.toList_inj]
    rfl
  have hup : step.toList = ['.', '.'] ↔ step = ".." := by
    rw [← String.toList_inj]
    rfl
  unfold walkStep at hstep
  unfold follow
  simp only [hstays, hup]
  split at hstep
  · cases hstep
  · cases hstep
  · split_ifs at hstep ⊢
    · obtain rfl := Except.ok.inj hstep
      rfl
    · obtain rfl := Except.ok.inj hstep
      exact List.map_tail
    · split at hstep
      · cases hstep
      · obtain rfl := Except.ok.inj hstep
        rfl

theorem map_toList_foldlM_walkStep {root : FileTree} {steps here there : List String}
    (hwalk : steps.foldlM root.walkStep here = .ok there) :
    there.map String.toList = (steps.map String.toList).foldl follow (here.map String.toList) := by
  induction steps generalizing here with
  | nil =>
      obtain rfl := Except.ok.inj hwalk
      rfl
  | cons step rest ih =>
      rw [List.foldlM_cons] at hwalk
      obtain ⟨next, hnext, hrest⟩ := bind_eq_ok_iff.mp hwalk
      rw [ih hrest, map_toList_walkStep hnext]
      rfl

theorem map_toList_steps (path : String) : (steps path).map String.toList = pieces '/' path.toList := by
  rw [steps, List.map_map]
  exact (List.map_congr_left (fun _ _ => String.toList_ofList)).trans (List.map_id _)

/-- If a path can be walked, it leads through its components. -/
theorem walk_eq_components {root : FileTree} {path : String} {names : List String}
    (hslashed : '\\' ∉ path.toList) (hwalk : root.walk "/" path = .ok names) :
    names.map String.toList = components path.toList := by
  unfold walk at hwalk
  cases hfault : pathFault? path with
  | some fault =>
      rw [hfault] at hwalk
      cases hwalk
  | none =>
      rw [hfault] at hwalk
      have hstart : (if path.toList.head? = some '/' then [] else (FileTree.names "/").reverse) = [] :=
        ite_self _
      obtain ⟨there, hthere, hnames⟩ := bind_eq_ok_iff.mp hwalk
      rw [hstart] at hthere
      obtain rfl := Except.ok.inj hnames
      rw [List.map_reverse, map_toList_foldlM_walkStep hthere, map_toList_steps]
      exact congrArg (fun text => ((pieces '/' text).foldl follow []).reverse)
        (ModuleId.map_slashed_of_not_mem hslashed).symm

/-- The path of a directory can be walked. -/
theorem exists_walk_of_isDirectory {root : FileTree} {path : String}
    (hdirectory : root.isDirectory path = true) : ∃ names, root.walk "/" path = .ok names := by
  unfold isDirectory at hdirectory
  split at hdirectory
  · rename_i entries hlocated
    obtain ⟨names, hwalk, -⟩ := bind_eq_ok_iff.mp hlocated
    exact ⟨names, hwalk⟩
  · cases hdirectory

end FileTree

namespace FileHost

/-- The path of what is asked for, seen from a package. -/
def innerPath (package : String) (sub? : Option String) : String :=
  (sub?.map (joinPath package)).getD package

/-- What is asked for is a directory, and its description names the file that it starts with. -/
def GivesMain (host : FileHost) (package : String) (sub? : Option String) : Prop :=
  host.tree.isDirectory (innerPath package sub?) = true ∧
    ((host.package? (innerPath package sub?)).bind (·.main?)).isSome = true

instance (host : FileHost) (package : String) (sub? : Option String) :
    Decidable (host.GivesMain package sub?) :=
  inferInstanceAs (Decidable (_ ∧ _))

variable {host : FileHost} {package specifier : String} {sub? : Option String}
  {referrer? : Option ModuleId} {above : List String} {id : ModuleId}

theorem packageEntry_of_no_main {dir : String}
    (hmain : ¬ ((host.package? dir).bind (·.main?)).isSome = true) :
    host.packageEntry dir = ofPath dir := by
  unfold packageEntry
  rw [Option.not_isSome_iff_eq_none.mp hmain]

/-- Where no main file is named, what is asked for is what the path names. -/
theorem withinPackage_eq (hpackage : host.tree.isDirectory package = true)
    (hmain : ¬ host.GivesMain package sub?) :
    host.withinPackage package sub? = ofPath (innerPath package sub?) := by
  unfold withinPackage
  split
  · exact packageEntry_of_no_main (fun hsome => hmain ⟨hpackage, hsome⟩)
  · rename_i sub
    dsimp only
    split
    · rename_i hdirectory
      exact packageEntry_of_no_main (fun hsome => hmain ⟨hdirectory, hsome⟩)
    · rfl

/-- A path that stays below where it begins names something in the package. -/
theorem ofPath_innerPath_liesIn (hinner : ∀ sub, sub? = some sub → Specifier.IsInner sub) :
    (ofPath (innerPath package sub?)).LiesIn (ofPath package) := by
  cases sub? with
  | none => exact List.prefix_rfl
  | some sub =>
      change (ofPath (joinPath package sub)).LiesIn (ofPath package)
      rw [ofPath_joinPath]
      exact (hinner sub rfl).join_liesIn package

/-- A path that begins with a slash is one of its own. -/
theorem ofPath_innerPath_of_absolute {sub : String} (habsolute : Specifier.isAbsolute sub = true) :
    ofPath (innerPath package (some sub)) = ofPath sub := by
  change ofPath (joinPath package sub) = ofPath sub
  rw [ofPath_joinPath, Specifier.join, if_pos habsolute]

/-- **A path inside a package stays inside it, unless it begins with a slash.**  What a bare specifier
means is looked for in the nearest directory that holds its package.  Unless it is the main file that a
description names, it is the package itself or lies in it if the path behind the name of the package
neither begins with a slash nor leads up nor has backslashes; and if that path begins with a slash, it is
what the path names on its own.  The package is meant here as its path names it, which is where the file
tree has it if this path has no backslashes. -/
theorem subpaths_stay_inside (hplain : IsDirectoryName host.packagesDir)
    (hbare : Specifier.isAbsolute specifier = false)
    (hfound : host.resolveBare specifier referrer? = some id) :
    let name := (splitPackage specifier).1
    let sub? := (splitPackage specifier).2
    ∃ above, host.Nearest name (host.startNames referrer?) above ∧
      let package := host.packagePath above name
      (¬ host.GivesMain package sub? →
        ((∀ sub, sub? = some sub → Specifier.IsInner sub) → id.LiesIn (ofPath package)) ∧
        ∀ sub, sub? = some sub → Specifier.isAbsolute sub = true → id = ofPath sub) ∧
      ('\\' ∉ package.toList → ∃ names, host.tree.walk "/" package = .ok names ∧
        names.map String.toList = components (ofPath package).text.toList) := by
  intro name sub?
  obtain ⟨above, hnear, hid⟩ := (resolveBare_eq_some_iff hplain hbare).mp hfound
  refine ⟨above, hnear, fun hmain => ?_, fun hslashed => ?_⟩
  · rw [withinPackage_eq hnear.holds hmain] at hid
    constructor
    · intro hinner
      rw [hid]
      exact ofPath_innerPath_liesIn hinner
    · intro sub hsub habsolute
      rw [hid, hsub, ofPath_innerPath_of_absolute habsolute]
  · obtain ⟨names, hwalk⟩ := FileTree.exists_walk_of_isDirectory hnear.holds
    refine ⟨names, hwalk, ?_⟩
    rw [ModuleId.components_ofPath]
    exact FileTree.walk_eq_components hslashed hwalk

theorem subpaths_stay_inside_twice : IsDirectoryName twice.packagesDir ∧
    Specifier.isAbsolute "@a/b/.//c.js" = false ∧
    twice.resolveBare "@a/b/.//c.js" (some ⟨"/app/main.js"⟩) = some ⟨"/app/node_modules/@a/b/c.js"⟩ ∧
    (⟨"/app/node_modules/@a/b/c.js"⟩ : ModuleId).LiesIn ⟨"/app/node_modules/@a/b"⟩ := by
  have hplain : IsDirectoryName twice.packagesDir :=
    ⟨by decide, by decide, by decide, by decide⟩
  have hbare : Specifier.isAbsolute "@a/b/.//c.js" = false := by decide
  have hfound : twice.resolveBare "@a/b/.//c.js" (some ⟨"/app/main.js"⟩) =
      some ⟨"/app/node_modules/@a/b/c.js"⟩ := by decide +kernel
  have hsplit : splitPackage "@a/b/.//c.js" = ("@a/b", some ".//c.js") := by decide +kernel
  have hstart : twice.startNames (some ⟨"/app/main.js"⟩) = ["app"] := by decide +kernel
  have hthere : twice.Nearest "@a/b" ["app"] ["app"] :=
    ⟨List.prefix_rfl, by decide +kernel, fun _ hother _ => hother⟩
  have hinner : Specifier.IsInner ".//c.js" := ⟨by decide, by decide, by decide⟩
  have hpackage : ofPath (twice.packagePath ["app"] "@a/b") = ⟨"/app/node_modules/@a/b"⟩ := by
    decide +kernel
  obtain ⟨above, hnear, hinside, -⟩ := subpaths_stay_inside hplain hbare hfound
  rw [hsplit, hstart] at hnear
  obtain rfl := hthere.unique hnear
  rw [hsplit] at hinside
  have hlies := (hinside (by decide +kernel)).1 (fun sub hsub => Option.some.inj hsub ▸ hinner)
  exact ⟨hplain, hbare, hfound, hpackage ▸ hlies⟩

/-- A package that stands alone. -/
def lonePackage : FileHost where
  tree := FileTree.empty.writeFile "/fsroot/node_modules/p/index.js" .empty
  root := "/fsroot"
  packagesDir := standardPackagesDir

/-- A second slash behind the name of the package leads out of it. -/
theorem subpath_leads_away : IsDirectoryName lonePackage.packagesDir ∧
    Specifier.isAbsolute "p//etc/x" = false ∧ Specifier.isRelative "p//etc/x" = false ∧
    splitPackage "p//etc/x" = ("p", some "/etc/x") ∧
    (∀ step ∈ pieces '/' "p//etc/x".toList, step ≠ ['.', '.'] ∧ '\\' ∉ step) ∧
    lonePackage.Nearest "p" (lonePackage.startNames none) ["fsroot"] ∧
    lonePackage.resolveBare "p//etc/x" none = some ⟨"/etc/x"⟩ ∧
    ¬ lonePackage.GivesMain (lonePackage.packagePath ["fsroot"] "p") (some "/etc/x") ∧
    ¬ (⟨"/etc/x"⟩ : ModuleId).LiesIn (ofPath (lonePackage.packagePath ["fsroot"] "p")) := by
  have hstart : lonePackage.startNames none = ["fsroot"] := by decide +kernel
  have hplain : IsDirectoryName lonePackage.packagesDir :=
    ⟨by decide, by decide, by decide, by decide⟩
  have hsplit : splitPackage "p//etc/x" = ("p", some "/etc/x") := by decide +kernel
  have hsteps : ∀ step ∈ pieces '/' "p//etc/x".toList, step ≠ ['.', '.'] ∧ '\\' ∉ step := by
    decide +kernel
  have hnear : lonePackage.Nearest "p" (lonePackage.startNames none) ["fsroot"] := by
    rw [hstart]
    exact ⟨List.prefix_rfl, by decide +kernel, fun _ hother _ => hother⟩
  have hfound : lonePackage.resolveBare "p//etc/x" none = some ⟨"/etc/x"⟩ := by decide +kernel
  have hmain : ¬ lonePackage.GivesMain (lonePackage.packagePath ["fsroot"] "p") (some "/etc/x") := by
    decide +kernel
  exact ⟨hplain, by decide, by decide, hsplit, hsteps, hnear, hfound, hmain, by decide +kernel⟩

end FileHost

end Linkage
