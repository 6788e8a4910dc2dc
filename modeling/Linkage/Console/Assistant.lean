import Linkage.Console.Command
import Linkage.Console.Style
import Linkage.Identifier

/-!
# Help while typing

What the console offers for the word before the cursor, the rest of a command that is being typed,
and the colours of a line.  The cursor stands at a byte offset.  The word begins one byte behind the
last blank; behind a blank that takes more than one byte this is no place to cut, and then there is
no answer.
-/

namespace Linkage.Console

/-- The characters of the first `offset` bytes; none if the offset is inside a character or behind
the end. -/
def beforeOffset? : Nat → List Char → Option (List Char)
  | 0, _ => some []
  | _ + 1, [] => none
  | offset + 1, c :: rest =>
      if c.utf8Size ≤ offset + 1 then
        (beforeOffset? (offset + 1 - c.utf8Size) rest).map (c :: ·)
      else none

/-- The characters behind the first `offset` bytes; none if the offset is inside a character or behind
the end. -/
def behindOffset? : Nat → List Char → Option (List Char)
  | 0, cs => some cs
  | _ + 1, [] => none
  | offset + 1, c :: rest =>
      if c.utf8Size ≤ offset + 1 then behindOffset? (offset + 1 - c.utf8Size) rest else none

/-- The byte offset at which the last word of a text begins: one byte behind the place of the last
blank. -/
def wordStart (before : List Char) : Nat :=
  match before.reverse.dropWhile (fun c => !Text.isBlank c) with
  | [] => 0
  | _ :: front => (String.ofList front.reverse).utf8ByteSize + 1

/-- What can complete a word: the commands, then the modules, each that the word begins, with what
stands behind as many bytes as the word has. -/
def completions? (word : List Char) (ids : List ModuleId) : Option (List (String × String)) :=
  if word.isEmpty then some []
  else ((Command.names ++ ids.map (·.text)).filter (fun candidate =>
    word.isPrefixOf candidate.toList)).mapM (fun candidate =>
      (behindOffset? (String.ofList word).utf8ByteSize candidate.toList).map (fun rest =>
        (candidate, String.ofList rest)))

/-- The completions at a cursor: each candidate with what is still to be typed. -/
def complete? (line : String) (cursor : Nat) (ids : List ModuleId) :
    Option (List (String × String)) := do
  let before ← beforeOffset? cursor line.toList
  let word ← behindOffset? (wordStart before) before
  completions? word ids

/-- The rest of the first command that begins like the line, if the cursor is at its end. -/
def hint? (line : String) (cursor : Nat) : Option String :=
  let cs := line.toList
  if cursor < line.utf8ByteSize ∨ cs.head? ≠ some '.' ∨ cs.any Text.isBlank ∨
      line.utf8ByteSize < 2 then none
  else
    (Command.names.find? (fun name =>
      cs.isPrefixOf name.toList && line.utf8ByteSize < name.utf8ByteSize)).map (fun name =>
        dimmed (String.ofList (name.toList.drop cs.length)))

/-- A command in colours; any other line stays as it is. -/
def highlight (line : String) : String :=
  if line.toList.head? ≠ some '.' then line
  else match Text.cutAtBlank line with
    | (word, some rest) => magenta word ++ " " ++ green rest
    | (word, none) => magenta word

end Linkage.Console
