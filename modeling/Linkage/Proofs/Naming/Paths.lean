import Linkage.Identifier
import Linkage.Proofs.Text.Pieces

/-!
# One path for one module

Every path is brought into one form: absolute, with slashes only, without empty components, `.` and
`..`.  A path in this form stays as it is, so that it names the module it is the path of.  Joining a
specifier onto a directory walks on from where the directory leads, and to walk up from the root
leads to the root.

* `ModuleId.IsCanonical` : the form; `isCanonical_iff` says it by the components.
* `ModuleId.components_append` : a path is walked component by component.
* `ModuleId.components_dirname` : the directory is one component up.
* `ModuleId.paths_have_one_form` : the laws together.
-/

namespace Linkage

namespace ModuleId

open Text (pieces)

/-- A component that no step of a walk removes. -/
structure IsComponent (part : List Char) : Prop where
  nonempty : part ≠ []
  here : part ≠ ['.']
  up : part ≠ ['.', '.']
  slash : '/' ∉ part
  backslash : '\\' ∉ part

/-- The form that every path is brought into. -/
structure IsCanonical (id : ModuleId) : Prop where
  rooted : id.text.toList.head? = some '/'
  slashed : '\\' ∉ id.text.toList
  components : id.text ≠ "/" → ∀ part ∈ pieces '/' id.text.toList.tail,
    part ≠ [] ∧ part ≠ ['.'] ∧ part ≠ ['.', '.']

/-- A backslash counts as a slash. -/
def slashed (c : Char) : Char := if c = '\\' then '/' else c

variable {part : List Char} {parts walked : List (List Char)} {id : ModuleId}

/-! ## Components -/

theorem not_mem_map_slashed (cs : List Char) : '\\' ∉ cs.map slashed := by
  intro hmem
  obtain ⟨c, -, hc⟩ := List.mem_map.mp hmem
  unfold slashed at hc
  split at hc
  · cases hc
  · contradiction

theorem map_slashed_of_not_mem {cs : List Char} (hnone : '\\' ∉ cs) : cs.map slashed = cs := by
  refine (List.map_congr_left (fun c hc => ?_)).trans cs.map_id
  exact if_neg (ne_of_mem_of_not_mem hc hnone)

/-- Every component that a walk has led through is one that it keeps. -/
theorem isComponent_foldl_follow (hparts : ∀ part ∈ parts, '/' ∉ part ∧ '\\' ∉ part)
    (hwalked : ∀ part ∈ walked, IsComponent part) :
    ∀ part ∈ parts.foldl follow walked, IsComponent part := by
  induction parts generalizing walked with
  | nil => exact hwalked
  | cons next rest ih =>
      refine ih (fun part hmem => hparts part (List.mem_cons_of_mem _ hmem)) (fun part hmem => ?_)
      obtain ⟨hslash, hbackslash⟩ := hparts next List.mem_cons_self
      unfold follow at hmem
      split at hmem
      · exact hwalked part hmem
      · split at hmem
        · exact hwalked part (List.mem_of_mem_tail hmem)
        · rename_i hkept hup
          rw [not_or] at hkept
          rcases List.mem_cons.mp hmem with rfl | hmem
          · exact ⟨hkept.1, hkept.2, hup, hslash, hbackslash⟩
          · exact hwalked part hmem

theorem isComponent_of_mem_components {cs : List Char} (hmem : part ∈ components cs) :
    IsComponent part := by
  refine isComponent_foldl_follow (fun piece hpiece => ⟨Text.sep_not_mem_of_mem_pieces hpiece, ?_⟩)
    (by simp) part (List.mem_reverse.mp hmem)
  -- a piece holds no other characters than the text it is cut from
  intro hback
  have hjoined := Text.join_pieces '/' (cs.map slashed)
  exact not_mem_map_slashed cs (hjoined ▸ Text.mem_join_of_mem hpiece hback)

/-- A path goes on where the one before it has led. -/
theorem components_append (front back : List Char) : components (front ++ '/' :: back) =
    ((pieces '/' (back.map slashed)).foldl follow (components front).reverse).reverse := by
  show ((pieces '/' ((front ++ '/' :: back).map slashed)).foldl follow []).reverse = _
  rw [List.map_append, List.map_cons, show slashed '/' = '/' from rfl, Text.pieces_append_cons,
    List.foldl_append]
  refine congrArg (fun walked => (List.foldl follow walked _).reverse) ?_
  exact (List.reverse_reverse _).symm

theorem follow_of_isComponent (hpart : IsComponent part) (walked : List (List Char)) :
    follow walked part = part :: walked := by
  unfold follow
  rw [if_neg (not_or.mpr ⟨hpart.nonempty, hpart.here⟩), if_neg hpart.up]

theorem foldl_follow_of_isComponent (hparts : ∀ part ∈ parts, IsComponent part)
    (walked : List (List Char)) : parts.foldl follow walked = parts.reverse ++ walked := by
  induction parts generalizing walked with
  | nil => rfl
  | cons part rest ih =>
      rw [List.foldl_cons, follow_of_isComponent (hparts part List.mem_cons_self),
        ih (fun part hmem => hparts part (List.mem_cons_of_mem _ hmem)), List.reverse_cons,
        List.append_assoc, List.singleton_append]

/-- One more component at the end. -/
theorem components_concat (front : List Char) (hpart : IsComponent part) :
    components (front ++ '/' :: part) = components front ++ [part] := by
  rw [components_append, map_slashed_of_not_mem hpart.backslash,
    Text.pieces_of_not_mem hpart.slash, List.foldl_cons, List.foldl_nil,
    follow_of_isComponent hpart, List.reverse_cons, List.reverse_reverse]

/-- The components of a path that is made of components. -/
theorem components_pathText (hparts : ∀ part ∈ parts, IsComponent part) :
    components (pathText parts) = parts := by
  have hpath : components (pathText parts) =
      ((pieces '/' ((Text.join '/' parts).map slashed)).foldl follow []).reverse :=
    components_append [] (Text.join '/' parts)
  rw [hpath]
  cases parts with
  | nil => rfl
  | cons part rest =>
      have hback : '\\' ∉ Text.join '/' (part :: rest) := by
        intro hmem
        obtain hslash | ⟨part, hpart, hmem⟩ := Text.mem_join hmem
        · cases hslash
        · exact (hparts part hpart).backslash hmem
      rw [map_slashed_of_not_mem hback, Text.pieces_join (List.cons_ne_nil _ _)
        (fun part hpart => (hparts part hpart).slash), foldl_follow_of_isComponent hparts,
        List.append_nil, List.reverse_reverse]

/-! ## The form -/

theorem text_ofPath (path : String) :
    (ofPath path).text.toList = pathText (components path.toList) :=
  String.toList_ofList

/-- A path in the form is made of components. -/
theorem isCanonical_iff : id.IsCanonical ↔ ∃ parts, (∀ part ∈ parts, IsComponent part) ∧
    id.text.toList = pathText parts := by
  constructor
  · intro hcanonical
    obtain ⟨hrooted, hslashed, hparts⟩ := hcanonical
    obtain ⟨rest, hrest⟩ : ∃ rest, id.text.toList = '/' :: rest := by
      cases htext : id.text.toList with
      | nil => simp [htext] at hrooted
      | cons c rest => exact ⟨rest, by simpa [htext] using hrooted⟩
    rw [hrest, List.mem_cons, not_or] at hslashed
    by_cases hroot : id.text = "/"
    · exact ⟨[], nofun, by rw [hroot]; rfl⟩
    · refine ⟨pieces '/' rest, fun part hpart => ?_, ?_⟩
      · obtain ⟨hnonempty, hhere, hup⟩ := hparts hroot part (by rw [hrest]; exact hpart)
        refine ⟨hnonempty, hhere, hup, Text.sep_not_mem_of_mem_pieces hpart, fun hmem => ?_⟩
        exact hslashed.2 (Text.join_pieces '/' rest ▸ Text.mem_join_of_mem hpart hmem)
      · rw [hrest, pathText, Text.join_pieces]
  · rintro ⟨parts, hparts, htext⟩
    refine ⟨by rw [htext]; rfl, ?_, fun hroot part hpart => ?_⟩
    · rw [htext, pathText, List.mem_cons, not_or]
      refine ⟨by decide, fun hmem => ?_⟩
      obtain hslash | ⟨part, hpart, hmem⟩ := Text.mem_join hmem
      · cases hslash
      · exact (hparts part hpart).backslash hmem
    · rw [htext, pathText, List.tail_cons] at hpart
      have hne : parts ≠ [] := by
        rintro rfl
        exact hroot (String.toList_injective (htext.trans rfl))
      rw [Text.pieces_join hne (fun part hpart => (hparts part hpart).slash)] at hpart
      have hcomponent := hparts part hpart
      exact ⟨hcomponent.nonempty, hcomponent.here, hcomponent.up⟩

theorem isCanonical_ofPath (path : String) : (ofPath path).IsCanonical :=
  isCanonical_iff.mpr ⟨components path.toList, fun _ hpart => isComponent_of_mem_components hpart,
    text_ofPath path⟩

/-- Paths that lead through the same components name one module. -/
theorem ofPath_congr {path path' : String}
    (hsame : components path.toList = components path'.toList) : ofPath path = ofPath path' := by
  unfold ofPath
  rw [hsame]

theorem components_ofPath (path : String) :
    components (ofPath path).text.toList = components path.toList := by
  rw [text_ofPath, components_pathText (fun _ hpart => isComponent_of_mem_components hpart)]

/-- A path in the form names the module it is the path of. -/
theorem IsCanonical.ofPath_text (hcanonical : id.IsCanonical) : ofPath id.text = id := by
  obtain ⟨parts, hparts, htext⟩ := isCanonical_iff.mp hcanonical
  have hsame : (ofPath id.text).text = id.text := by
    refine String.toList_injective ?_
    rw [text_ofPath, htext, components_pathText hparts]
  cases id
  exact congrArg ModuleId.mk hsame

/-! ## Directories -/

theorem pathText_concat (hne : parts ≠ []) (last : List Char) :
    pathText (parts ++ [last]) = pathText parts ++ '/' :: last := by
  unfold pathText
  rw [Text.join_concat hne, List.cons_append]

theorem dirname_of_text (hparts : ∀ part ∈ parts, IsComponent part)
    (htext : id.text.toList = pathText parts) : id.dirname.toList = pathText parts.dropLast := by
  unfold dirname
  rw [htext]
  rcases parts.eq_nil_or_concat' with rfl | ⟨front, last, rfl⟩
  · rfl
  · have hlast := (hparts last (by simp)).slash
    rw [List.dropLast_concat]
    by_cases hfront : front = []
    · subst hfront
      rw [show pathText ([] ++ [last]) = [] ++ '/' :: last from rfl,
        Text.beforeLast_append_cons [] hlast]
      rfl
    · rw [pathText_concat hfront, Text.beforeLast_append_cons _ hlast]
      exact String.toList_ofList

theorem filename_of_text (hparts : ∀ part ∈ parts, IsComponent part)
    (htext : id.text.toList = pathText parts) :
    id.filename.toList = parts.getLast?.getD [] := by
  unfold filename
  rw [String.toList_ofList, htext]
  rcases parts.eq_nil_or_concat' with rfl | ⟨front, last, rfl⟩
  · rfl
  · have hlast := (hparts last (by simp)).slash
    rw [List.getLast?_concat]
    by_cases hfront : front = []
    · subst hfront
      exact Text.afterLast_append_cons [] hlast
    · rw [pathText_concat hfront]
      exact Text.afterLast_append_cons _ hlast

/-- The directory is one component up; that of the root is the root. -/
theorem components_dirname (path : String) :
    components (ofPath path).dirname.toList = (components path.toList).dropLast := by
  rw [dirname_of_text (fun _ hpart => isComponent_of_mem_components hpart) (text_ofPath path)]
  exact components_pathText
    (fun _ hpart => isComponent_of_mem_components (List.dropLast_subset _ hpart))

end ModuleId

namespace Specifier

open ModuleId

variable {base specifier : String} {id : ModuleId}

/-- Slashes at the end of a directory do not matter. -/
theorem components_dropTrailing (front back : List Char) :
    components (Text.dropTrailing '/' front ++ '/' :: back) = components (front ++ '/' :: back) := by
  induction front using List.reverseRecOn with
  | nil => rfl
  | append_singleton front c ih =>
      rw [Text.dropTrailing_concat]
      split
      · rename_i hslash
        subst hslash
        -- between two slashes stands an empty component, which leads nowhere
        rw [ih, components_append, components_append, components_append]
        simp [Text.pieces, follow]
      · rfl

theorem join_eq (hspecifier : isAbsolute specifier = false) :
    join base specifier = ofPath (base ++ "/" ++ specifier) := by
  unfold join
  rw [if_neg (by simp [hspecifier])]
  refine ofPath_congr ?_
  simpa using components_dropTrailing base.toList specifier.toList

/-- What a specifier names depends on where the directory leads, and not on how it is spelt. -/
theorem ofPath_append_congr {base' : String} (hbase : components base.toList = components base'.toList)
    (rest : String) : ofPath (base ++ "/" ++ rest) = ofPath (base' ++ "/" ++ rest) := by
  refine ofPath_congr ?_
  have happend : ∀ base : String, (base ++ "/" ++ rest).toList = base.toList ++ '/' :: rest.toList := by
    simp
  rw [happend, happend, components_append, components_append, hbase]

/-- To walk up is to walk to the directory. -/
theorem components_up (front : List Char) :
    components (front ++ '/' :: ['.', '.']) = (components front).dropLast := by
  rw [components_append, show Text.pieces '/' (['.', '.'].map slashed) = [['.', '.']] from rfl,
    List.foldl_cons, List.foldl_nil, show ∀ walked, follow walked ['.', '.'] = walked.tail from
      fun _ => rfl, List.tail_reverse, List.reverse_reverse]

theorem join_dirname_filename (hcanonical : id.IsCanonical) : join id.dirname id.filename = id := by
  obtain ⟨parts, hparts, htext⟩ := isCanonical_iff.mp hcanonical
  have hdirname := dirname_of_text hparts htext
  have hfilename := filename_of_text hparts htext
  have hrelative : isAbsolute id.filename = false := by
    unfold isAbsolute
    rw [hfilename]
    rcases parts.eq_nil_or_concat' with rfl | ⟨front, last, rfl⟩
    · rfl
    · rw [List.getLast?_concat, Option.getD_some]
      refine decide_eq_false (fun hslash => (hparts last (by simp)).slash ?_)
      exact List.mem_of_head? hslash
  rw [join_eq hrelative, ← hcanonical.ofPath_text]
  refine ofPath_congr ?_
  rw [hcanonical.ofPath_text]
  have happend : (id.dirname ++ "/" ++ id.filename).toList =
      id.dirname.toList ++ '/' :: id.filename.toList := by simp
  rw [happend, hdirname, hfilename, htext]
  rcases parts.eq_nil_or_concat' with rfl | ⟨front, last, rfl⟩
  · rfl
  · rw [List.dropLast_concat, List.getLast?_concat, Option.getD_some,
      components_concat _ (hparts last (by simp)), components_pathText hparts,
      components_pathText (fun part hpart => hparts part (List.mem_append_left _ hpart))]

end Specifier

open Specifier ModuleId in
/-- **Every path has one form, and joining walks on from there.**  `..` leads to the directory, and
the directory of the root is the root. -/
theorem ModuleId.paths_have_one_form (path base rest : String) {specifier : String}
    (hspecifier : isAbsolute specifier = false) {id : ModuleId} (hid : id.IsCanonical) :
    (ofPath path).IsCanonical ∧ ofPath id.text = id ∧
      join base specifier = ofPath (base ++ "/" ++ specifier) ∧
      join base specifier = join (ofPath base).text specifier ∧
      join base ".." = ofPath (ofPath base).dirname ∧
      join base ("../" ++ rest) = ofPath ((ofPath base).dirname ++ "/" ++ rest) ∧
      (ofPath "/").dirname = "/" ∧
      join id.dirname id.filename = id := by
  refine ⟨isCanonical_ofPath path, hid.ofPath_text, join_eq hspecifier, ?_, ?_, ?_, rfl,
    join_dirname_filename hid⟩
  · rw [join_eq hspecifier, join_eq hspecifier]
    exact ofPath_append_congr (components_ofPath base).symm specifier
  · rw [join_eq rfl]
    refine ofPath_congr ?_
    rw [components_dirname]
    simpa using components_up base.toList
  · have hwritten : base ++ "/" ++ ("../" ++ rest) = base ++ "/.." ++ "/" ++ rest :=
      String.toList_injective (by simp)
    have hup : isAbsolute ("../" ++ rest) = false := by simp [isAbsolute]
    rw [join_eq hup, hwritten]
    refine ofPath_append_congr ?_ rest
    rw [components_dirname]
    simpa using components_up base.toList

/-- A path of both kinds of slashes, and a specifier that leads out of its directory and on. -/
theorem ModuleId.paths_have_one_form_mixed :
    Specifier.isAbsolute "..\\b/./c.mjs" = false ∧ (⟨"/app/lib/util.mjs"⟩ : ModuleId).IsCanonical ∧
      ModuleId.ofPath "\\..\\app//x/../lib/" = ⟨"/app/lib"⟩ ∧
      Specifier.join "app//lib\\" "..\\b/./c.mjs" = ⟨"/app/b/c.mjs"⟩ ∧
      Specifier.join "/" "../../x" = ⟨"/x"⟩ := by
  have hid : (⟨"/app/lib/util.mjs"⟩ : ModuleId).IsCanonical :=
    (isCanonical_ofPath "/app/lib/util.mjs" :)
  have hrelative : Specifier.isAbsolute "..\\b/./c.mjs" = false := by decide
  have hlaws := paths_have_one_form "\\..\\app//x/../lib/" "app//lib\\" "../x" hrelative hid
  refine ⟨hrelative, hid, ?_, ?_, ?_⟩
  · decide
  · rw [hlaws.2.2.1]
    decide
  · decide

end Linkage
