import Linkage.Text.CharClass

/-!
# Blank characters

The characters that separate words: those with the White_Space property of the character standard.
On top of the class stand trimming and the first word of a text.
-/

namespace Linkage.Text

/-- The characters with the White_Space property. -/
def blanks : CharClass :=
  [(0x9, 0xD), (0x20, 0x20), (0x85, 0x85), (0xA0, 0xA0), (0x1680, 0x1680), (0x2000, 0x200A),
    (0x2028, 0x2029), (0x202F, 0x202F), (0x205F, 0x205F), (0x3000, 0x3000)]

/-- Whether a character has the White_Space property. -/
def isBlank (c : Char) : Bool :=
  blanks.has c

/-- Every character that core counts as whitespace is blank. -/
theorem isBlank_of_isWhitespace {c : Char} (h : c.isWhitespace = true) : isBlank c = true := by
  simp only [Char.isWhitespace, Bool.or_eq_true, decide_eq_true_eq] at h
  rcases h with ((h | h) | h) | h <;> subst h <;> decide

/-- Drop the blanks at both ends of a list of characters. -/
def trimChars (cs : List Char) : List Char :=
  ((cs.dropWhile isBlank).reverse.dropWhile isBlank).reverse

/-- Drop the blanks at both ends. -/
def trim (s : String) : String :=
  String.ofList (trimChars s.toList)

/-- The text before the first blank, and the text after it if there is one. -/
def cutAtBlank (s : String) : String × Option String :=
  let cs := s.toList
  let rest := cs.dropWhile (fun c => !isBlank c)
  (String.ofList (cs.takeWhile (fun c => !isBlank c)), rest.tail?.map String.ofList)

end Linkage.Text
