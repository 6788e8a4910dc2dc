import Linkage.Host.Files
import Linkage.Proofs.Naming.Paths
import Mathlib.Data.List.DropRight
import Mathlib.Data.List.Infix

/-!
# Finding packages

A bare specifier is cut behind its first segment, or behind its second if it begins with an at sign, and
the package of that name is looked for in the directory of the module that asks and in each one above it.
The directories met on the way up are the beginnings of the path, the longest first, so that the package
found is the one in the nearest directory that has it.

* `splitPackage_eq` : the two parts of a bare specifier, by its segments.
* `climb_eq`, `find?_tails_eq_some_iff` : the way up, and what is found first on it.
* `FileHost.Nearest` : the nearest directory that holds a package.
* `FileHost.packages_are_found_nearest` : all of it.
-/

namespace Linkage

open Text (pieces join)

/-! ## The parts of a bare specifier -/

theorem dropWhile_slash_of_not_mem {rest : List Char} (hnone : '/' ∉ rest) :
    rest.dropWhile (· ≠ '/') = [] :=
  List.dropWhile_eq_nil_iff.mpr (fun _ hc => decide_eq_true (ne_of_mem_of_not_mem hc hnone))

theorem dropWhile_slash {first : List Char} (hfirst : '/' ∉ first) (rest : List Char) :
    (first ++ '/' :: rest).dropWhile (· ≠ '/') = '/' :: rest := by
  rw [List.dropWhile_append_of_pos (fun _ hc => decide_eq_true (ne_of_mem_of_not_mem hc hfirst)),
    List.dropWhile_cons_of_neg (by simp)]

theorem takeWhile_slash {first : List Char} (hfirst : '/' ∉ first) (rest : List Char) :
    (first ++ '/' :: rest).takeWhile (· ≠ '/') = first := by
  rw [List.takeWhile_append_of_pos (fun _ hc => decide_eq_true (ne_of_mem_of_not_mem hc hfirst)),
    List.takeWhile_cons_of_neg (by simp), List.append_nil]

theorem cutAtSlash_of_not_mem (front : List Char) {rest : List Char} (hnone : '/' ∉ rest) :
    cutAtSlash front rest = (String.ofList (front ++ rest), none) := by
  unfold cutAtSlash
  rw [dropWhile_slash_of_not_mem hnone]

theorem cutAtSlash_append (front : List Char) {first : List Char} (hfirst : '/' ∉ first)
    (sub : List Char) : cutAtSlash front (first ++ '/' :: sub) =
      (String.ofList (front ++ first), some (String.ofList sub)) := by
  unfold cutAtSlash
  rw [dropWhile_slash hfirst, takeWhile_slash hfirst]

/-- How many segments of a bare specifier name the package. -/
def nameLength (specifier : String) : Nat :=
  if specifier.toList.head? = some '@' then 2 else 1

/-- The name of the package is the first segment, or the first two behind an at sign, and what follows
is the path inside it. -/
theorem splitPackage_eq (specifier : String) :
    let segments := pieces '/' specifier.toList
    splitPackage specifier = (String.ofList (join '/' (segments.take (nameLength specifier))),
      if segments.length ≤ nameLength specifier then none
      else some (String.ofList (join '/' (segments.drop (nameLength specifier))))) := by
  unfold splitPackage nameLength
  split
  · rename_i rest hscoped
    rw [hscoped, List.head?_cons, if_pos rfl]
    rcases Text.pieces_cases '/' rest with hnone | ⟨first, behind, hfirst, rfl⟩
    · have hall : '/' ∉ '@' :: rest := by simpa using hnone
      have hwhole : specifier = String.ofList ('@' :: rest) := by rw [← hscoped, String.ofList_toList]
      rw [dropWhile_slash_of_not_mem hnone, Text.pieces_of_not_mem hall]
      exact Prod.ext hwhole rfl
    · have hall : '/' ∉ '@' :: first := by simpa using hfirst
      have hpieces := Text.pieces_first hall behind
      rw [List.cons_append] at hpieces
      rw [dropWhile_slash hfirst, takeWhile_slash hfirst, hpieces]
      dsimp only
      rcases Text.pieces_cases '/' behind with hnone | ⟨second, sub, hsecond, rfl⟩
      · rw [cutAtSlash_of_not_mem _ hnone, Text.pieces_of_not_mem hnone]
        simp [join]
      · rw [cutAtSlash_append _ hsecond, Text.pieces_first hsecond]
        simp [join, Text.pieces_ne_nil, Text.join_pieces]
  · rename_i hplain
    have hhead : specifier.toList.head? ≠ some '@' := fun hhead => by
      obtain ⟨rest, hrest⟩ := List.head?_eq_some_iff.mp hhead
      exact hplain rest hrest
    rw [if_neg hhead]
    rcases Text.pieces_cases '/' specifier.toList with hnone | ⟨first, sub, hfirst, hsub⟩
    · rw [cutAtSlash_of_not_mem _ hnone, Text.pieces_of_not_mem hnone]
      simp [join]
    · rw [hsub, cutAtSlash_append _ hfirst, Text.pieces_first hfirst]
      simp [join, Text.pieces_ne_nil, Text.join_pieces]

/-- The text is put together again from its parts. -/
theorem splitPackage_join (specifier : String) :
    specifier = (splitPackage specifier).1 ++ ((splitPackage specifier).2.map ("/" ++ ·)).getD "" := by
  have hjoined := Text.join_pieces '/' specifier.toList
  rw [splitPackage_eq]
  refine String.toList_injective ?_
  by_cases hfew : (pieces '/' specifier.toList).length ≤ nameLength specifier
  · simp [hfew, List.take_of_length_le hfew, hjoined]
  · have hname : (pieces '/' specifier.toList).take (nameLength specifier) ≠ [] := by
      rw [ne_eq, List.take_eq_nil_iff, not_or]
      exact ⟨by unfold nameLength; split <;> decide, Text.pieces_ne_nil '/' _⟩
    have hrest : (pieces '/' specifier.toList).drop (nameLength specifier) ≠ [] := fun hnil =>
      hfew (List.drop_eq_nil_iff.mp hnil)
    simp [hfew, ← Text.join_append hname hrest, hjoined]

/-! ## The way up -/

/-- On the way up lie the beginnings of the path, the longest first. -/
theorem climb_eq (walked : List String) :
    climb walked = walked.tails.map (fun above => directoryPath above.reverse) := by
  induction walked with
  | nil => rfl
  | cons name above ih => rw [climb, ih, List.tails_cons, List.map_cons]

/-- What is found first among the ends of a list is the longest of them. -/
theorem find?_tails_eq_some_iff {α : Type} {p : List α → Bool} {l found : List α} :
    l.tails.find? p = some found ↔
      found <:+ l ∧ p found = true ∧ ∀ other, other <:+ l → p other = true → other <:+ found := by
  induction l with
  | nil =>
      change List.find? p [[]] = some found ↔ _
      rw [List.find?_singleton]
      constructor
      · intro hfound
        split at hfound
        · rename_i hp
          obtain rfl := Option.some.inj hfound
          exact ⟨List.suffix_rfl, hp, fun other hother _ => hother⟩
        · cases hfound
      · rintro ⟨hsuffix, hp, -⟩
        obtain rfl := List.suffix_nil.mp hsuffix
        rw [if_pos hp]
  | cons head rest ih =>
      rw [List.tails_cons, List.find?_cons]
      cases hp : p (head :: rest) with
      | true =>
          constructor
          · intro hfound
            obtain rfl := Option.some.inj hfound
            exact ⟨List.suffix_rfl, hp, fun other hother _ => hother⟩
          · rintro ⟨hsuffix, -, hlongest⟩
            have hwhole := hlongest _ List.suffix_rfl hp
            exact congrArg some (hsuffix.eq_of_length_le hwhole.length_le).symm
      | false =>
          dsimp only
          rw [ih]
          have hrest : ∀ other, p other = true → (other <:+ head :: rest ↔ other <:+ rest) := by
            intro other hother
            rw [List.suffix_cons_iff]
            refine or_iff_right ?_
            rintro rfl
            cases hp.symm.trans hother
          constructor
          · rintro ⟨hsuffix, hfound, hlongest⟩
            exact ⟨(hrest _ hfound).mpr hsuffix, hfound,
              fun other hother hpo => hlongest other ((hrest _ hpo).mp hother) hpo⟩
          · rintro ⟨hsuffix, hfound, hlongest⟩
            exact ⟨(hrest _ hfound).mp hsuffix, hfound,
              fun other hother hpo => hlongest other ((hrest _ hpo).mpr hother) hpo⟩

/-- One name of a directory: neither empty nor a step that stays in place or leads up, and without a
slash. -/
structure IsDirectoryName (name : String) : Prop where
  nonempty : name ≠ ""
  here : name ≠ "."
  up : name ≠ ".."
  slash : '/' ∉ name.toList

theorem toList_directoryPath (names : List String) :
    (directoryPath names).toList = ModuleId.pathText (names.map String.toList) := by
  unfold directoryPath ModuleId.pathText
  rw [String.toList_append, String.toList_intercalate, Text.join_eq_intercalate]
  rfl

/-- The last name of a path stands behind its last slash. -/
theorem exists_pathText_concat (front : List (List Char)) (last : List Char) :
    ∃ before, ModuleId.pathText (front ++ [last]) = before ++ '/' :: last := by
  by_cases hfront : front = []
  · exact ⟨[], by rw [hfront]; rfl⟩
  · exact ⟨_, ModuleId.pathText_concat hfront last⟩

/-- A path seen from a directory is that of the directory with one more name. -/
theorem joinPath_directoryPath {above : List String} {path : String}
    (habove : ∀ name ∈ above, name ≠ "" ∧ '/' ∉ name.toList) (hpath : path.toList.head? ≠ some '/') :
    joinPath (directoryPath above) path = directoryPath (above ++ [path]) := by
  have hbase : directoryPath above ≠ "" := fun heq => by
    have hlist := toList_directoryPath above
    rw [heq] at hlist
    cases hlist
  unfold joinPath
  rw [if_neg (not_or.mpr ⟨hpath, hbase⟩)]
  refine String.toList_injective ?_
  rcases above.eq_nil_or_concat' with rfl | ⟨front, last, rfl⟩
  · rfl
  · obtain ⟨hlast, hslash⟩ := habove last (by simp)
    have hend : (directoryPath (front ++ [last])).toList.getLast? ≠ some '/' := fun hend => by
      obtain ⟨before, hbefore⟩ := exists_pathText_concat (front.map String.toList) last.toList
      rw [toList_directoryPath, List.map_append, List.map_singleton, hbefore, List.getLast?_append,
        List.getLast?_cons_of_ne_nil (mt String.toList_eq_nil_iff.mp hlast)] at hend
      obtain ⟨c, hc⟩ := Option.ne_none_iff_exists'.mp
        (mt List.getLast?_eq_none_iff.mp (mt String.toList_eq_nil_iff.mp hlast))
      rw [hc, Option.some_or] at hend
      exact hslash (Option.some.inj hend ▸ List.mem_of_getLast? hc)
    rw [if_neg hend, toList_directoryPath, List.map_append, List.map_singleton,
      ModuleId.pathText_concat (by simp), ← toList_directoryPath]
    simp

namespace FileHost

/-- The path of a package in a directory. -/
def packagePath (host : FileHost) (above : List String) (name : String) : String :=
  directoryPath (above ++ [host.packagesDir, name])

/-- The directory reached through some names holds a package: the path of the package names a
directory. -/
def HoldsPackage (host : FileHost) (name : String) (above : List String) : Prop :=
  host.tree.isDirectory (host.packagePath above name) = true

instance (host : FileHost) (name : String) (above : List String) :
    Decidable (host.HoldsPackage name above) :=
  inferInstanceAs (Decidable (_ = true))

/-- Of the directories on the way up from one, this is the nearest that holds a package. -/
structure Nearest (host : FileHost) (name : String) (start above : List String) : Prop where
  onTheWay : above <+: start
  holds : host.HoldsPackage name above
  nearest : ∀ other, other <+: start → host.HoldsPackage name other → other <+: above

theorem Nearest.unique {host : FileHost} {name : String} {start above above' : List String}
    (hnear : host.Nearest name start above) (hnear' : host.Nearest name start above') :
    above = above' :=
  (hnear'.nearest above hnear.onTheWay hnear.holds).eq_of_length_le
    (hnear.nearest above' hnear'.onTheWay hnear'.holds).length_le

/-- The names of the directory where the search for a package begins. -/
def startNames (host : FileHost) (referrer? : Option ModuleId) : List String :=
  FileTree.names ((referrer?.map (·.dirname)).getD host.root)

variable {host : FileHost} {specifier name : String} {referrer? : Option ModuleId}
  {above start : List String}

theorem mem_startNames (hmem : name ∈ host.startNames referrer?) : name ≠ "" ∧ '/' ∉ name.toList := by
  obtain ⟨hstep, hkept⟩ := List.mem_filter.mp hmem
  obtain ⟨piece, hpiece, rfl⟩ := List.mem_map.mp hstep
  refine ⟨(of_decide_eq_true hkept).1, ?_⟩
  rw [String.toList_ofList]
  exact Text.sep_not_mem_of_mem_pieces hpiece

/-- The path of a package is that of its directory with two more names. -/
theorem packageDir_eq (hplain : IsDirectoryName host.packagesDir) (hname : name.toList.head? ≠ some '/')
    (habove : above <+: host.startNames referrer?) :
    host.packageDir (directoryPath above) name = host.packagePath above name := by
  have hnames : ∀ name ∈ above, name ≠ "" ∧ '/' ∉ name.toList := fun _ hmem =>
    mem_startNames (habove.subset hmem)
  have hdir : host.packagesDir.toList.head? ≠ some '/' := fun hhead =>
    hplain.slash (List.mem_of_head? hhead)
  have hboth : ∀ name ∈ above ++ [host.packagesDir], name ≠ "" ∧ '/' ∉ name.toList := by
    intro name hmem
    rcases List.mem_append.mp hmem with hmem | hmem
    · exact hnames name hmem
    · exact List.mem_singleton.mp hmem ▸ ⟨hplain.nonempty, hplain.slash⟩
  unfold packageDir packagePath
  rw [joinPath_directoryPath hnames hdir, joinPath_directoryPath hboth hname, List.append_assoc]
  rfl

/-- The name of a package does not begin with a slash if the specifier does not. -/
theorem head?_splitPackage (hbare : Specifier.isAbsolute specifier = false) :
    (splitPackage specifier).1.toList.head? ≠ some '/' := by
  intro hhead
  have hjoined := congrArg (fun text => text.toList.head?) (splitPackage_join specifier)
  simp only [String.toList_append, List.head?_append, hhead, Option.some_or] at hjoined
  rw [Specifier.isAbsolute, decide_eq_false_iff_not] at hbare
  exact hbare hjoined

/-- What is found first on the way up is the nearest directory that holds the package. -/
theorem find?_wayUp_iff : start.reverse.tails.find?
      (fun above => host.tree.isDirectory (host.packagePath above.reverse name)) = some above ↔
    host.Nearest name start above.reverse := by
  have hturned : ∀ above : List String, above.reverse <+: start ↔ above <:+ start.reverse :=
    fun above => by rw [← List.reverse_suffix, List.reverse_reverse]
  rw [find?_tails_eq_some_iff]
  constructor
  · rintro ⟨hsuffix, hholds, hlongest⟩
    refine ⟨(hturned above).mpr hsuffix, hholds, fun other hother hheld => ?_⟩
    rw [← List.reverse_suffix, List.reverse_reverse]
    refine hlongest other.reverse (List.reverse_suffix.mpr hother) ?_
    rw [List.reverse_reverse]
    exact hheld
  · rintro ⟨hbegins, hholds, hnearest⟩
    refine ⟨(hturned above).mp hbegins, hholds, fun other hother hheld => ?_⟩
    rw [← List.reverse_prefix]
    exact hnearest other.reverse ((hturned other).mpr hother) hheld

/-- A package is looked for at its path in every directory on the way up. -/
theorem map_packageDir_directoriesUp (hplain : IsDirectoryName host.packagesDir)
    (hname : name.toList.head? ≠ some '/') :
    (climb (host.startNames referrer?).reverse).map (host.packageDir · name) =
      (host.startNames referrer?).reverse.tails.map
        (fun above => host.packagePath above.reverse name) := by
  rw [climb_eq, List.map_map]
  refine List.map_congr_left (fun above habove => ?_)
  have hbegins : above.reverse <+: host.startNames referrer? := by
    rw [← List.reverse_suffix, List.reverse_reverse]
    exact (List.mem_tails _ _).mp habove
  exact packageDir_eq hplain hname hbegins

/-- What is asked for is taken from the nearest directory that holds the package. -/
theorem resolveBare_eq_some_iff (hplain : IsDirectoryName host.packagesDir)
    (hbare : Specifier.isAbsolute specifier = false) {id : ModuleId} :
    host.resolveBare specifier referrer? = some id ↔
      ∃ above, host.Nearest (splitPackage specifier).1 (host.startNames referrer?) above ∧
        id = host.withinPackage (host.packagePath above (splitPackage specifier).1)
          (splitPackage specifier).2 := by
  have hresolve : host.resolveBare specifier referrer? =
      (((climb (host.startNames referrer?).reverse).map
        (host.packageDir · (splitPackage specifier).1)).find? host.tree.isDirectory).map
          (host.withinPackage · (splitPackage specifier).2) := rfl
  rw [hresolve, map_packageDir_directoriesUp hplain (head?_splitPackage hbare), List.find?_map,
    Option.map_map, Option.map_eq_some_iff]
  constructor
  · rintro ⟨above, hfound, rfl⟩
    exact ⟨above.reverse, find?_wayUp_iff.mp hfound, rfl⟩
  · rintro ⟨above, hnear, rfl⟩
    refine ⟨above.reverse, find?_wayUp_iff.mpr (by rwa [List.reverse_reverse]), ?_⟩
    rw [Function.comp_apply, List.reverse_reverse]

/-- If some directory on the way up holds the package, there is a nearest one. -/
theorem exists_nearest (hbegins : above <+: start) (hholds : host.HoldsPackage name above) :
    ∃ above, host.Nearest name start above := by
  cases hfound : start.reverse.tails.find?
      (fun above => host.tree.isDirectory (host.packagePath above.reverse name)) with
  | some found => exact ⟨found.reverse, find?_wayUp_iff.mp hfound⟩
  | none =>
      have hnot := List.find?_eq_none.mp hfound above.reverse
        ((List.mem_tails _ _).mpr (List.reverse_suffix.mpr hbegins))
      rw [List.reverse_reverse] at hnot
      exact absurd hholds hnot

/-- **Packages are found in the nearest directory that has them.**  A bare specifier is the name of a
package and perhaps, behind a slash, a path inside it; the name is its first segment, or its first two if
it begins with an at sign.  It means something exactly when a directory on the way from the module that
asks, or from the root of the host, up to `/` holds the package, and then it means what the path is in the
package of the nearest such directory. -/
theorem packages_are_found_nearest (host : FileHost) (specifier : String)
    (referrer? : Option ModuleId) (hplain : IsDirectoryName host.packagesDir)
    (hbare : Specifier.isAbsolute specifier = false) :
    let name := (splitPackage specifier).1
    let sub? := (splitPackage specifier).2
    let segments := pieces '/' specifier.toList
    let count := if specifier.toList.head? = some '@' then 2 else 1
    (sub? = none → specifier = name) ∧ (∀ sub, sub? = some sub → specifier = name ++ "/" ++ sub) ∧
    name.toList = join '/' (segments.take count) ∧ (sub? = none ↔ segments.length ≤ count) ∧
    ((host.resolveBare specifier referrer?).isSome ↔
      ∃ above, above <+: host.startNames referrer? ∧ host.HoldsPackage name above) ∧
    ∀ id, host.resolveBare specifier referrer? = some id ↔
      ∃ above, host.Nearest name (host.startNames referrer?) above ∧
        id = host.withinPackage (host.packagePath above name) sub? := by
  intro name sub? segments count
  have hjoined := splitPackage_join specifier
  have hsplit := splitPackage_eq specifier
  have hresolve : ∀ id, host.resolveBare specifier referrer? = some id ↔ _ := fun id =>
    resolveBare_eq_some_iff hplain hbare
  refine ⟨fun hnone => ?_, fun sub hsub => ?_, ?_, ?_, ?_, hresolve⟩
  · rw [show (splitPackage specifier).2 = none from hnone] at hjoined
    simpa using hjoined
  · rw [show (splitPackage specifier).2 = some sub from hsub] at hjoined
    simpa [String.append_assoc] using hjoined
  · exact (congrArg (fun parts => parts.1.toList) hsplit).trans String.toList_ofList
  · rw [show sub? = _ from congrArg Prod.snd hsplit]
    change (if segments.length ≤ count then none else some _) = none ↔ segments.length ≤ count
    constructor
    · intro hnone
      by_contra hmany
      rw [if_neg hmany] at hnone
      cases hnone
    · exact fun hfew => if_pos hfew
  · rw [Option.isSome_iff_exists]
    constructor
    · rintro ⟨id, hid⟩
      obtain ⟨above, hnear, -⟩ := (hresolve id).mp hid
      exact ⟨above, hnear.onTheWay, hnear.holds⟩
    · rintro ⟨above, hbegins, hholds⟩
      obtain ⟨above, hnear⟩ := exists_nearest hbegins hholds
      exact ⟨_, (hresolve _).mpr ⟨above, hnear, rfl⟩⟩

/-- A package that stands in two directories, one above the other. -/
def twice : FileHost where
  tree := (FileTree.empty.writeFile "/node_modules/@a/b/c.js" .empty).writeFile
    "/app/node_modules/@a/b/c.js" .empty
  root := "/"
  packagesDir := standardPackagesDir

theorem packages_are_found_nearest_twice : IsDirectoryName twice.packagesDir ∧
    Specifier.isAbsolute "@a/b/c" = false ∧ twice.HoldsPackage "@a/b" [] ∧
    twice.resolveBare "@a/b/c" (some ⟨"/app/lib/main.js"⟩) = some ⟨"/app/node_modules/@a/b/c"⟩ ∧
    ∃ above, twice.Nearest "@a/b" ["app", "lib"] above ∧
      (⟨"/app/node_modules/@a/b/c"⟩ : ModuleId) =
        twice.withinPackage (twice.packagePath above "@a/b") (some "c") := by
  have hplain : IsDirectoryName twice.packagesDir :=
    ⟨by decide, by decide, by decide, by decide⟩
  have hresolved : twice.resolveBare "@a/b/c" (some ⟨"/app/lib/main.js"⟩) =
      some ⟨"/app/node_modules/@a/b/c"⟩ := by decide +kernel
  have hfound := packages_are_found_nearest twice "@a/b/c" (some ⟨"/app/lib/main.js"⟩) hplain
    (by decide)
  have hnear := (hfound.2.2.2.2.2 _).mp hresolved
  exact ⟨hplain, by decide, by decide +kernel, hresolved, hnear⟩

end FileHost

end Linkage
