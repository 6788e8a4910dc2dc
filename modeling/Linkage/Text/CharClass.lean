/-!
# Classes of characters

A class is a list of ranges of code points with both ends included.
-/

namespace Linkage.Text

/-- A class of characters: ranges of code points, both ends included. -/
abbrev CharClass : Type := List (Nat × Nat)

/-- Whether a character is in a class. -/
def CharClass.has (members : CharClass) (c : Char) : Bool :=
  members.any (fun range => range.1 ≤ c.toNat && c.toNat ≤ range.2)

end Linkage.Text
