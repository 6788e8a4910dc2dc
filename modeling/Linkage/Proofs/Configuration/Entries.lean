import Linkage.Config
import Linkage.Proofs.Text.Pieces
import Mathlib.Data.List.DropRight
import Mathlib.Data.List.Forall2

/-!
# Entries of a configuration as text

An entry is set by a text and shows a text.  What it shows need not be what it was set by: a list of
extensions loses its blanks and empty items and gets the dots that are missing, and a format has several
names.  But it means the same, and nothing else is changed.

* `Text.trimChars_eq_self_iff`, `Text.trimmed_trimChars` : what trimming does.
* `Config.IsExtension` : the form of the extensions that are set; `Config.extensionsOfText_intercalate`
  reads them back from the list of them.
* `Config.Shows` : the text that an entry shows once it has been set by another.
* `Config.entries_show_what_was_set` : all of it, for a change in place.
-/

namespace Linkage

namespace Text

variable {cs : List Char}

/-- No blank stands at either end. -/
structure Trimmed (cs : List Char) : Prop where
  front : ∀ c, cs.head? = some c → isBlank c = false
  back : ∀ c, cs.getLast? = some c → isBlank c = false

theorem dropWhile_isBlank_eq_self_iff :
    cs.dropWhile isBlank = cs ↔ ∀ c, cs.head? = some c → isBlank c = false := by
  cases cs with
  | nil => simp
  | cons c rest =>
      rw [List.dropWhile_cons]
      cases hblank : isBlank c with
      | false => simp [hblank]
      | true =>
          have hshorter : rest.dropWhile isBlank ≠ c :: rest := fun heq => by
            have hlength := (List.dropWhile_suffix (l := rest) isBlank).length_le
            rw [heq, List.length_cons] at hlength
            omega
          simpa [hblank] using hshorter

/-- Trimming leaves a text as it is when there is nothing to trim. -/
theorem trimChars_eq_self_iff : trimChars cs = cs ↔ Trimmed cs := by
  unfold trimChars
  constructor
  · intro htrim
    have hfront : cs.dropWhile isBlank = cs := by
      refine (List.dropWhile_suffix isBlank).eq_of_length_le ?_
      have hlength := (List.dropWhile_suffix (l := (cs.dropWhile isBlank).reverse) isBlank).length_le
      rw [← List.length_reverse, htrim, List.length_reverse] at hlength
      exact hlength
    rw [hfront, List.reverse_eq_iff, dropWhile_isBlank_eq_self_iff, List.head?_reverse] at htrim
    exact ⟨dropWhile_isBlank_eq_self_iff.mp hfront, htrim⟩
  · rintro ⟨hfront, hback⟩
    rw [dropWhile_isBlank_eq_self_iff.mpr hfront, List.reverse_eq_iff, dropWhile_isBlank_eq_self_iff,
      List.head?_reverse]
    exact hback

theorem trimmed_trimChars (cs : List Char) : Trimmed (trimChars cs) := by
  have hfront := dropWhile_isBlank_eq_self_iff.mp (List.dropWhile_idempotent isBlank cs)
  have hback := dropWhile_isBlank_eq_self_iff.mp
    (List.dropWhile_idempotent isBlank (cs.dropWhile isBlank).reverse)
  -- what is dropped at the end leaves the beginning as it is
  obtain ⟨dropped, hdropped⟩ : trimChars cs <+: cs.dropWhile isBlank := by
    rw [← List.reverse_suffix, trimChars, List.reverse_reverse]
    exact List.dropWhile_suffix isBlank
  refine ⟨fun c hc => hfront c ?_, fun c hc => hback c ?_⟩
  · obtain ⟨rest, hrest⟩ := List.head?_eq_some_iff.mp hc
    rw [← hdropped, hrest]
    rfl
  · rwa [trimChars, List.getLast?_reverse] at hc

/-- Only blanks are dropped, so a text that is trimmed holds no other characters. -/
theorem mem_of_mem_trimChars {c : Char} (hmem : c ∈ trimChars cs) : c ∈ cs := by
  rw [trimChars, List.mem_reverse] at hmem
  have hdropped := (List.dropWhile_suffix isBlank).subset hmem
  exact (List.dropWhile_suffix isBlank).subset (List.mem_reverse.mp hdropped)

/-- Nothing is left of a text that is blank. -/
theorem trimChars_eq_nil_iff : trimChars cs = [] ↔ cs.all isBlank = true := by
  rw [List.all_eq_true, ← List.dropWhile_eq_nil_iff, trimChars, List.reverse_eq_nil_iff]
  have hfront := dropWhile_isBlank_eq_self_iff.mp (List.dropWhile_idempotent isBlank cs)
  cases hrest : cs.dropWhile isBlank with
  | nil => simp
  | cons c rest =>
      rw [hrest] at hfront
      refine iff_of_false (fun hnil => ?_) (List.cons_ne_nil c rest)
      have hblank := List.dropWhile_eq_nil_iff.mp hnil c (by simp)
      rw [hfront c rfl] at hblank
      cases hblank

end Text

namespace Config

variable {config after : Config} {key value : String}

/-! ## Lists of extensions -/

/-- The form of an extension: a dot in front, no comma, and no blanks around it. -/
structure IsExtension (ext : String) : Prop where
  dot : ext.toList.head? = some '.'
  comma : ',' ∉ ext.toList
  trimmed : Text.Trimmed ext.toList

/-- An extension stands for itself. -/
theorem IsExtension.extensionOfPiece? {ext : String} (hext : IsExtension ext) :
    extensionOfPiece? ext.toList = some ext := by
  obtain ⟨rest, hrest⟩ := List.head?_eq_some_iff.mp hext.dot
  rw [hrest, Config.extensionOfPiece?, ← hrest, String.ofList_toList]

/-- What a trimmed piece without commas stands for is an extension. -/
theorem isExtension_of_piece {piece : List Char} {ext : String} (htrimmed : Text.Trimmed piece)
    (hcomma : ',' ∉ piece) (hext : extensionOfPiece? piece = some ext) : IsExtension ext := by
  unfold extensionOfPiece? at hext
  split at hext
  · cases hext
  · obtain rfl := Option.some.inj hext
    refine ⟨by simp, by simpa using hcomma, ?_⟩
    rwa [String.toList_ofList]
  · rename_i hne _
    obtain rfl := Option.some.inj hext
    refine ⟨by simp, by simpa using hcomma, ?_⟩
    rw [String.toList_ofList]
    refine ⟨fun c hc => ?_, fun c hc => ?_⟩
    · obtain rfl : '.' = c := by simpa using hc
      decide
    · rw [List.getLast?_cons_of_ne_nil hne] at hc
      exact htrimmed.back c hc

theorem isExtension_of_mem {text ext : String} (hmem : ext ∈ extensionsOfText text) :
    IsExtension ext := by
  obtain ⟨piece, hpiece, hext⟩ := List.mem_filterMap.mp hmem
  obtain ⟨whole, hwhole, rfl⟩ := List.mem_map.mp hpiece
  refine isExtension_of_piece (Text.trimmed_trimChars whole) (fun hcomma => ?_) hext
  exact Text.sep_not_mem_of_mem_pieces hwhole (Text.mem_of_mem_trimChars hcomma)

/-- Extensions are read back from the list of them. -/
theorem extensionsOfText_intercalate {exts : List String} (hexts : ∀ ext ∈ exts, IsExtension ext) :
    extensionsOfText (",".intercalate exts) = exts := by
  by_cases hnil : exts = []
  · rw [hnil]
    rfl
  · have hpieces := Text.pieces_intercalate hnil (fun ext hmem => (hexts ext hmem).comma)
    have htrim : (exts.map String.toList).map Text.trimChars = exts.map String.toList := by
      rw [List.map_map]
      exact List.map_congr_left (fun ext hmem => Text.trimChars_eq_self_iff.mpr (hexts ext hmem).trimmed)
    unfold extensionsOfText
    rw [show ",".intercalate exts = (String.singleton ',').intercalate exts from rfl, hpieces, htrim,
      List.filterMap_map]
    refine (List.filterMap_congr (fun ext hmem => ?_)).trans List.filterMap_some
    exact (hexts ext hmem).extensionOfPiece?

/-! ## Setting an entry -/

/-- An extension is what a piece of a list stands for: the piece without the blanks around it, with a
dot put in front unless it has one. -/
def IsDotted (piece : List Char) (ext : String) : Prop :=
  let trimmed := Text.trimChars piece
  ext.toList = if trimmed.head? = some '.' then trimmed else '.' :: trimmed

/-- The text that an entry shows once it has been set by another: a plain text shows itself, a list of
extensions the extensions that its pieces stand for, blank ones left out, and a format its name. -/
inductive Shows : String → String → String → Prop
  | baseDir (value : String) : Shows "base-dir" value value
  | indexName (value : String) : Shows "index-name" value value
  | extensions {value : String} {exts : List String}
      (hexts : List.Forall₂ IsDotted
        ((Text.pieces ',' value.toList).filter (fun piece => !piece.all Text.isBlank)) exts) :
      Shows "extensions" value (",".intercalate exts)
  | defaultFormat {value : String} {format : Format} (hformat : Format.parse? value = some format) :
      Shows "default-format" value format.name

/-- What setting an entry makes of a configuration. -/
inductive Sets (config : Config) : String → String → Config → Prop
  | baseDir (value : String) : Sets config "base-dir" value { config with baseDir := value }
  | extensions (value : String) :
      Sets config "extensions" value { config with extensions := extensionsOfText value }
  | indexName (value : String) : Sets config "index-name" value { config with indexName := value }
  | defaultFormat {value : String} {format : Format} (hformat : Format.parse? value = some format) :
      Sets config "default-format" value { config with defaultFormat := format }

theorem Sets.enter_eq (hsets : Sets config key value after) :
    enter key value config = (.ok (), after) := by
  cases hsets with
  | baseDir | extensions | indexName => rfl
  | defaultFormat hformat =>
      unfold Config.enter
      rw [hformat]
      rfl

/-- An entry is set, or the configuration stays as it is. -/
theorem enter_cases (config : Config) (key value : String) :
    (∃ after, Sets config key value after) ∨ ∃ error, enter key value config = (.error error, config) := by
  unfold Config.enter
  split
  · exact .inl ⟨_, .baseDir value⟩
  · exact .inl ⟨_, .extensions value⟩
  · exact .inl ⟨_, .indexName value⟩
  · cases hformat : Format.parse? value with
    | some format => exact .inl ⟨_, .defaultFormat hformat⟩
    | none => exact .inr ⟨_, rfl⟩
  · exact .inr ⟨_, rfl⟩

theorem enter_eq_ok_iff : enter key value config = (.ok (), after) ↔ Sets config key value after := by
  refine ⟨fun hok => ?_, Sets.enter_eq⟩
  rcases enter_cases config key value with ⟨found, hsets⟩ | ⟨error, hfailed⟩
  · exact (Prod.mk.inj (hsets.enter_eq.symm.trans hok)).2 ▸ hsets
  · cases hfailed.symm.trans hok

/-- Setting an entry by the same text again changes nothing. -/
theorem Sets.again (hsets : Sets config key value after) : Sets after key value after := by
  cases hsets with
  | baseDir => exact .baseDir value
  | extensions => exact .extensions value
  | indexName => exact .indexName value
  | defaultFormat hformat => exact .defaultFormat hformat

/-- Other entries show what they have shown. -/
theorem Sets.get?_ne (hsets : Sets config key value after) {other : String} (hother : other ≠ key) :
    after.get? other = config.get? other := by
  cases hsets with
  | baseDir =>
      unfold get?
      split
      · exact absurd rfl hother
      all_goals rfl
  | extensions =>
      unfold get?
      split
      · rfl
      · exact absurd rfl hother
      all_goals rfl
  | indexName =>
      unfold get?
      split
      · rfl
      · rfl
      · exact absurd rfl hother
      all_goals rfl
  | defaultFormat =>
      unfold get?
      split
      · rfl
      · rfl
      · rfl
      · exact absurd rfl hother
      · rfl

/-- The extensions that are set have the form of extensions. -/
theorem Sets.isExtension (hsets : Sets config key value after) (hkey : key = "extensions") :
    ∀ ext ∈ after.extensions, IsExtension ext := by
  cases hsets with
  | extensions => exact fun ext hmem => isExtension_of_mem hmem
  | baseDir | indexName | defaultFormat => exact absurd hkey (by decide)

/-- What a trimmed piece stands for, if it is not blank. -/
theorem isDotted_of_piece {piece : List Char} {ext : String}
    (hext : extensionOfPiece? (Text.trimChars piece) = some ext) : IsDotted piece ext := by
  unfold IsDotted
  unfold extensionOfPiece? at hext
  split at hext
  · cases hext
  · rename_i rest hpiece
    obtain rfl := Option.some.inj hext
    rw [hpiece, String.toList_ofList]
    rfl
  · rename_i hdot
    obtain rfl := Option.some.inj hext
    have hfront : (Text.trimChars piece).head? ≠ some '.' := by
      intro hfront
      obtain ⟨rest, hrest⟩ := List.head?_eq_some_iff.mp hfront
      exact hdot rest hrest
    rw [String.toList_ofList]
    exact (if_neg hfront).symm

/-- The extensions of a list are those that its pieces stand for. -/
theorem forall₂_extensionsOfText (text : String) : List.Forall₂ IsDotted
    ((Text.pieces ',' text.toList).filter (fun piece => !piece.all Text.isBlank))
    (extensionsOfText text) := by
  unfold extensionsOfText
  rw [List.filterMap_map]
  induction Text.pieces ',' text.toList with
  | nil => exact .nil
  | cons piece rest ih =>
      have hblank : extensionOfPiece? (Text.trimChars piece) = none ↔ piece.all Text.isBlank = true := by
        rw [← Text.trimChars_eq_nil_iff]
        unfold extensionOfPiece?
        split <;> simp_all
      rw [List.filter_cons, List.filterMap_cons, Function.comp_apply]
      cases hext : extensionOfPiece? (Text.trimChars piece) with
      | none => rwa [if_neg (by simp [hblank.mp hext])]
      | some ext =>
          have hsolid : (!piece.all Text.isBlank) = true := by
            rw [Bool.not_eq_true', ← Bool.not_eq_true, ← hblank, hext]
            exact nofun
          rw [if_pos hsolid]
          exact .cons (isDotted_of_piece hext) ih

/-- The name of a format is one of its names. -/
theorem parse?_name (format : Format) : Format.parse? format.name = some format := by
  cases format <;> decide

/-- The text that an entry shows means what the text meant by which it has been set. -/
theorem Sets.exists_shows (hsets : Sets config key value after) :
    ∃ shown, Shows key value shown ∧ after.get? key = some shown ∧
      ∀ other, enter key shown other = enter key value other := by
  cases hsets with
  | baseDir => exact ⟨value, .baseDir value, rfl, fun _ => rfl⟩
  | indexName => exact ⟨value, .indexName value, rfl, fun _ => rfl⟩
  | extensions =>
      refine ⟨_, .extensions (forall₂_extensionsOfText value), rfl, fun other => ?_⟩
      have hagain : Sets other "extensions" (",".intercalate (extensionsOfText value)) _ :=
        .extensions _
      rw [extensionsOfText_intercalate (fun ext hmem => isExtension_of_mem hmem)] at hagain
      exact hagain.enter_eq.trans (Sets.extensions value).enter_eq.symm
  | defaultFormat hformat =>
      refine ⟨_, .defaultFormat hformat, rfl, fun other => ?_⟩
      exact (Sets.defaultFormat (parse?_name _)).enter_eq.trans (Sets.defaultFormat hformat).enter_eq.symm

/-- **An entry shows what it was set by.**  An entry is set exactly when there is a text for it to show,
and otherwise the configuration stays as it was.  The text that it shows means the same in every
configuration, so that setting it again changes nothing; other entries show what they have shown; and the
extensions that are set have a dot in front, no comma and no blanks around them. -/
theorem entries_show_what_was_set (config : Config) (key value : String) :
    ((∃ shown, Shows key value shown) ↔ ∃ after, enter key value config = (.ok (), after)) ∧
    (∀ error after, enter key value config = (.error error, after) → after = config) ∧
    ∀ after, enter key value config = (.ok (), after) →
      (∃ shown, Shows key value shown ∧ after.get? key = some shown ∧
        enter key shown after = (.ok (), after) ∧
        ∀ other, enter key shown other = enter key value other) ∧
      (∀ other, other ≠ key → after.get? other = config.get? other) ∧
      (key = "extensions" → ∀ ext ∈ after.extensions, ext ≠ "" ∧ ext.toList.head? = some '.' ∧
        ',' ∉ ext.toList ∧ Text.trim ext = ext) := by
  refine ⟨⟨?_, ?_⟩, fun error after hfailed => ?_, fun after hok => ?_⟩
  · rintro ⟨shown, hshows⟩
    cases hshows with
    | baseDir => exact ⟨_, (Sets.baseDir value).enter_eq⟩
    | indexName => exact ⟨_, (Sets.indexName value).enter_eq⟩
    | extensions => exact ⟨_, (Sets.extensions value).enter_eq⟩
    | defaultFormat hformat => exact ⟨_, (Sets.defaultFormat hformat).enter_eq⟩
  · rintro ⟨after, hok⟩
    obtain ⟨shown, hshows, -⟩ := (enter_eq_ok_iff.mp hok).exists_shows
    exact ⟨shown, hshows⟩
  · rcases enter_cases config key value with ⟨found, hsets⟩ | ⟨_, hfailed'⟩
    · cases hfailed.symm.trans hsets.enter_eq
    · exact (Prod.mk.inj (hfailed.symm.trans hfailed')).2
  · have hsets := enter_eq_ok_iff.mp hok
    obtain ⟨shown, hshows, hget, hsame⟩ := hsets.exists_shows
    refine ⟨⟨shown, hshows, hget, (hsame after).trans hsets.again.enter_eq, hsame⟩,
      fun other hother => hsets.get?_ne hother, ?_⟩
    intro hkey ext hmem
    have hext := hsets.isExtension hkey ext hmem
    refine ⟨?_, hext.dot, hext.comma, ?_⟩
    · rintro rfl
      cases hext.dot
    · rw [Text.trim, Text.trimChars_eq_self_iff.mpr hext.trimmed, String.ofList_toList]

/-- Items lose their blanks and get their dots; empty items are left out. -/
example : ((standard.set "extensions" " mjs,, .js ,").toOption.bind (·.get? "extensions")) =
    some ".mjs,.js" := by
  decide

end Config

end Linkage
