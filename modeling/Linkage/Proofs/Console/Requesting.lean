import Linkage.Console.Dialogue
import Linkage.Proofs.Configuration.Entries
import Mathlib.Data.List.Infix

/-!
# What a line of the console asks for

A line is a command, or its text is imported, or it is refused.  A command begins with a dot and a
character that is no dot and no slash, so that no relative or absolute specifier is taken for one.  A text
without a dot in front is imported, and so is one that begins with `./`; a lone `.` or `..` and what begins
with `../` are relative specifiers too, but they are refused like a misspelt command.

* `Specifier.isRelative_iff` : the forms of a relative specifier.
* `Command.second_of_parse?` : what a command begins with, whatever its letters are.
* `Request.ofLine_eq_specifier`, `Request.ofLine_eq_unknown` : the lines that are no commands.
* `Dialogue.lines_are_told_apart` : all of it, for a dialogue in any state.
-/

namespace Linkage

namespace Specifier

/-- A relative specifier is a lone `.` or `..`, or begins with `./` or `../`. -/
theorem isRelative_iff {specifier : String} : isRelative specifier = true ↔
    ['.', '/'] <+: specifier.toList ∨ specifier = "." ∨ specifier = ".." ∨
      ['.', '.', '/'] <+: specifier.toList := by
  have hone : specifier = "." ↔ specifier.toList = ['.'] := by
    rw [← String.toList_inj]
    rfl
  have htwo : specifier = ".." ↔ specifier.toList = ['.', '.'] := by
    rw [← String.toList_inj]
    rfl
  rw [hone, htwo]
  unfold isRelative
  constructor
  · intro hrelative
    split at hrelative <;> simp_all
  · rintro (⟨rest, hrest⟩ | hone | htwo | ⟨rest, hrest⟩)
    · rw [← hrest]
      rfl
    · rw [hone]
      rfl
    · rw [htwo]
      rfl
    · rw [← hrest]
      rfl

/-- Behind the first dot of a lone `.` or `..` and of what begins with `../` there is no slash. -/
theorem front_of_dots {specifier : String} (hdots : specifier = "." ∨ specifier = ".." ∨
    ['.', '.', '/'] <+: specifier.toList) :
    specifier.toList.head? = some '.' ∧ ¬ ['.', '/'] <+: specifier.toList := by
  rcases hdots with rfl | rfl | ⟨rest, hrest⟩
  · exact ⟨rfl, by decide⟩
  · exact ⟨rfl, by decide⟩
  · rw [← hrest]
    refine ⟨rfl, ?_⟩
    rintro ⟨more, hmore⟩
    cases hmore

end Specifier

namespace Text

theorem trim_trim (s : String) : trim (trim s) = trim s := by
  unfold trim
  rw [String.toList_ofList, trimChars_eq_self_iff.mpr (trimmed_trimChars s.toList)]

/-- A character that stays as it is in lower case stays in front. -/
theorem head?_lowerCase {c : Char} (hsigma : c ≠ 'Σ') (hsame : lowerChar c = [c]) (cs : List Char) :
    (lowerCase (String.ofList (c :: cs))).toList.head? = some c := by
  rw [lowerCase, String.toList_ofList, String.toList_ofList, lowerChars, if_neg hsigma, hsame]
  rfl

end Text

namespace Console

/-! ## Commands -/

namespace Command

/-- No word of a command begins with a dot or a slash. -/
theorem head?_of_ofWord? {word : String} {command : Command} (hmeans : ofWord? word = some command) :
    ∃ c, word.toList.head? = some c ∧ c ≠ '.' ∧ c ≠ '/' := by
  have hhead : word.toList.head?.any (fun c => c ≠ '.' ∧ c ≠ '/') = true := by
    unfold ofWord? at hmeans
    split at hmeans
    all_goals first
      | decide
      | cases hmeans
  obtain ⟨c, hc, hne⟩ := (Option.any_eq_true _ _).mp hhead
  exact ⟨c, hc, of_decide_eq_true hne⟩

/-- A command begins with a dot, and neither a dot nor a slash follows. -/
theorem second_of_parse? {text : String} {found : Command × Option String}
    (hparse : parse? text = some found) :
    ∃ c rest, (Text.trim text).toList = '.' :: c :: rest ∧ c ≠ '.' ∧ c ≠ '/' := by
  unfold parse? at hparse
  split at hparse
  · rename_i rest hrest
    obtain ⟨command, hmeans, -⟩ := Option.map_eq_some_iff.mp hparse
    obtain ⟨first, hfirst, hdot, hslash⟩ := head?_of_ofWord? hmeans
    simp only [String.toList_ofList] at hfirst
    cases rest with
    | nil => cases hfirst
    | cons c rest =>
        -- neither of the two is a blank, and both stay as they are in lower case
        have hstays (hblank : Text.isBlank c = false) (hsigma : c ≠ 'Σ')
            (hsame : Text.lowerChar c = [c]) : c = first := by
          rw [List.takeWhile_cons_of_pos (by rw [hblank]; rfl), Text.head?_lowerCase hsigma hsame]
            at hfirst
          exact Option.some.inj hfirst
        refine ⟨c, rest, hrest, ?_, ?_⟩
        · rintro rfl
          exact hdot (hstays (by decide) (by decide) (by decide)).symm
        · rintro rfl
          exact hslash (hstays (by decide) (by decide) (by decide)).symm
  · cases hparse

/-- What is meant as a specifier is no command: one without a dot in front, and a relative one. -/
theorem parse?_eq_none {text : String} (htrim : Text.trim text = text)
    (hspecifier : text.toList.head? ≠ some '.' ∨ Specifier.isRelative text = true) :
    parse? text = none := by
  cases hparse : parse? text with
  | none => rfl
  | some found =>
      obtain ⟨c, rest, htext, hdot, hslash⟩ := second_of_parse? hparse
      rw [htrim] at htext
      rw [Specifier.isRelative_iff, ← String.toList_inj, ← String.toList_inj, htext] at hspecifier
      rcases hspecifier with hhead | ⟨_, hmore⟩ | hone | htwo | ⟨_, hmore⟩
      · exact absurd rfl hhead
      · exact absurd (List.cons.inj (List.cons.inj hmore).2).1.symm hslash
      · cases hone
      · exact absurd (List.cons.inj (List.cons.inj htwo).2).1 hdot
      · exact absurd (List.cons.inj (List.cons.inj hmore).2).1.symm hdot

end Command

/-! ## Lines -/

namespace Dialogue

variable {line : String}

/-- A text that is no command is a specifier if no dot stands in front, or a slash behind the dot. -/
theorem Request.ofLine_eq_specifier (hsome : Text.trim line ≠ "")
    (hnone : Command.parse? (Text.trim line) = none)
    (hfront : (Text.trim line).toList.head? ≠ some '.' ∨ ['.', '/'] <+: (Text.trim line).toList) :
    Request.ofLine line = .specifier (Text.trim line) := by
  simp only [Request.ofLine, if_neg hsome, hnone]
  rcases hfront with hhead | ⟨rest, hrest⟩
  · split
    · rfl
    · rename_i hdot
      exact absurd (by rw [hdot]; rfl) hhead
    · rfl
  · rw [← hrest]
    rfl

/-- Any other text that is no command is refused. -/
theorem Request.ofLine_eq_unknown (hnone : Command.parse? (Text.trim line) = none)
    (hhead : (Text.trim line).toList.head? = some '.')
    (hslash : ¬ ['.', '/'] <+: (Text.trim line).toList) :
    Request.ofLine line = .unknown (Text.trim line) := by
  have hsome : Text.trim line ≠ "" := by
    intro hempty
    rw [hempty] at hhead
    cases hhead
  simp only [Request.ofLine, if_neg hsome, hnone]
  split
  · rename_i rest hrest
    exact absurd ⟨rest, hrest.symm⟩ hslash
  · rfl
  · rename_i hdot
    obtain ⟨rest, hrest⟩ := List.head?_eq_some_iff.mp hhead
    exact absurd hrest (hdot rest)

/-- A line whose text is neither empty nor a command is imported under exactly its text, or it is refused
and the session stays as it is.  Absolute and bare specifiers without a dot in front are imported, bare
ones with a dot are refused, and of the relative ones those are imported that begin with `./`; a lone `.` or
`..` and what begins with `../` are refused. -/
theorem lines_are_told_apart (dialogue : Dialogue) (hsome : Text.trim line ≠ "") :
    let text := Text.trim line
    let imported := (true, sayReply sayValue dialogue (dialogue.session.evaluate text none))
    let refused := (true, { dialogue with
      err := dialogue.err ++ (bold (red "Error") ++ ": " ++ s!"unknown command '{cyan text}'") ++ "\n" })
    (Specifier.isRelative text = true → Command.parse? text = none ∧
      (['.', '/'] <+: text.toList ∧ dialogue.takeLine line = imported ∨
        (text = "." ∨ text = ".." ∨ ['.', '.', '/'] <+: text.toList) ∧
          dialogue.takeLine line = refused)) ∧
    (Specifier.isAbsolute text = true → Command.parse? text = none ∧
      dialogue.takeLine line = imported) ∧
    (Specifier.isRelative text = false → Specifier.isAbsolute text = false →
      (text.toList.head? ≠ some '.' → Command.parse? text = none ∧ dialogue.takeLine line = imported) ∧
      (text.toList.head? = some '.' → Command.parse? text = none →
        dialogue.takeLine line = refused)) := by
  intro text imported refused
  have htrim : Text.trim text = text := Text.trim_trim line
  have himported (hnone : Command.parse? text = none)
      (hfront : text.toList.head? ≠ some '.' ∨ ['.', '/'] <+: text.toList) :
      dialogue.takeLine line = imported := by
    rw [takeLine, Request.ofLine_eq_specifier hsome hnone hfront]
    rfl
  have hrefused (hnone : Command.parse? text = none) (hhead : text.toList.head? = some '.')
      (hslash : ¬ ['.', '/'] <+: text.toList) : dialogue.takeLine line = refused := by
    rw [takeLine, Request.ofLine_eq_unknown hnone hhead hslash]
    rfl
  refine ⟨fun hrelative => ?_, fun habsolute => ?_, fun hrelative _ => ⟨fun hhead => ?_, ?_⟩⟩
  · have hnone := Command.parse?_eq_none htrim (.inr hrelative)
    refine ⟨hnone, ?_⟩
    rcases Specifier.isRelative_iff.mp hrelative with hslash | hdots
    · exact .inl ⟨hslash, himported hnone (.inr hslash)⟩
    · obtain ⟨hhead, hslash⟩ := Specifier.front_of_dots hdots
      exact .inr ⟨hdots, hrefused hnone hhead hslash⟩
  · have hhead : text.toList.head? ≠ some '.' := by
      rw [of_decide_eq_true habsolute]
      decide
    have hnone := Command.parse?_eq_none htrim (.inl hhead)
    exact ⟨hnone, himported hnone (.inl hhead)⟩
  · have hnone := Command.parse?_eq_none htrim (.inl hhead)
    exact ⟨hnone, himported hnone (.inl hhead)⟩
  · intro hhead hnone
    refine hrefused hnone hhead (fun hslash => ?_)
    rw [Specifier.isRelative_iff.mpr (.inl hslash)] at hrelative
    cases hrelative

/-- A dialogue about one module, in the base directory. -/
def begun : Dialogue :=
  ⟨.new (.shelf (Shelf.empty.insert "/m.mjs" (Source.ofBody []))) .standard, "", ""⟩

/-- Blanks around a specifier do not matter. -/
theorem lines_are_told_apart_indented :
    Text.trim "\u3000./m \t" ≠ "" ∧
    begun.takeLine "\u3000./m \t" = (true, sayReply sayValue begun (begun.session.evaluate "./m" none)) ∧
    (begun.takeLine "\u3000./m \t").2.session.store.listed.map (·.status) = [.evaluated] := by
  have htrim : Text.trim "\u3000./m \t" = "./m" := by decide +kernel
  have hsome : Text.trim "\u3000./m \t" ≠ "" := by
    rw [htrim]
    decide
  obtain ⟨hrelative, -⟩ := lines_are_told_apart begun hsome
  rw [htrim] at hrelative
  obtain ⟨-, ⟨-, himported⟩ | ⟨hdots, -⟩⟩ := hrelative (by decide)
  · exact ⟨hsome, himported, by decide +kernel⟩
  · exact absurd hdots (by decide)

/-- A specifier that leads to the same module by way of the directory above is refused. -/
theorem way_up_is_refused :
    Text.trim "../m" ≠ "" ∧ Command.parse? (Text.trim "../m") = none ∧
    Specifier.isRelative (Text.trim "../m") = true ∧
    begun.takeLine "../m" ≠
      (true, sayReply sayValue begun (begun.session.evaluate (Text.trim "../m") none)) := by
  refine ⟨by decide +kernel, by decide +kernel, by decide +kernel, fun hsame => ?_⟩
  have herr := congrArg (fun taken => taken.2.err.isEmpty) hsame
  have hdiffer : (begun.takeLine "../m").2.err.isEmpty ≠
      (sayReply sayValue begun (begun.session.evaluate (Text.trim "../m") none)).err.isEmpty := by
    decide +kernel
  exact hdiffer herr

end Dialogue

end Console

end Linkage
