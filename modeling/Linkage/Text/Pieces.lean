/-!
# Cutting text at a character

`pieces sep cs` are the stretches of `cs` between occurrences of `sep`; there is always at least
one.  `beforeLast` and `afterLast` cut at the last occurrence.  Main statements: joining the pieces
gives the text back (`join_pieces`), and no piece holds the separator (`sep_not_mem_of_mem_pieces`).
-/

namespace Linkage.Text

/-- The stretches between occurrences of `sep`. -/
def pieces (sep : Char) : List Char → List (List Char)
  | [] => [[]]
  | c :: rest =>
      if c = sep then [] :: pieces sep rest
      else match pieces sep rest with
        | [] => [[c]]
        | head :: tail => (c :: head) :: tail

/-- Put `sep` between the pieces. -/
def join (sep : Char) : List (List Char) → List Char
  | [] => []
  | [piece] => piece
  | piece :: rest => piece ++ sep :: join sep rest

theorem pieces_ne_nil (sep : Char) (cs : List Char) : pieces sep cs ≠ [] := by
  cases cs with
  | nil => simp [pieces]
  | cons c rest =>
      unfold pieces
      split
      · simp
      · split <;> simp

theorem join_pieces (sep : Char) (cs : List Char) : join sep (pieces sep cs) = cs := by
  induction cs with
  | nil => rfl
  | cons c rest ih =>
      unfold pieces
      split
      · rename_i same
        cases found : pieces sep rest with
        | nil => exact absurd found (pieces_ne_nil sep rest)
        | cons head tail => simpa [join, found, same] using ih
      · cases found : pieces sep rest with
        | nil => exact absurd found (pieces_ne_nil sep rest)
        | cons head tail =>
            rw [found] at ih
            cases tail with
            | nil => simpa [join] using ih
            | cons next more => simpa [join] using ih

theorem sep_not_mem_of_mem_pieces {sep : Char} {cs piece : List Char}
    (member : piece ∈ pieces sep cs) : sep ∉ piece := by
  induction cs generalizing piece with
  | nil => simp_all [pieces]
  | cons c rest ih =>
      unfold pieces at member
      split at member
      · rcases List.mem_cons.mp member with rfl | member
        · simp
        · exact ih member
      · rename_i different
        cases found : pieces sep rest with
        | nil => exact absurd found (pieces_ne_nil sep rest)
        | cons head tail =>
            rw [found] at member ih
            rcases List.mem_cons.mp member with rfl | member
            · simpa [Ne.symm different] using ih List.mem_cons_self
            · exact ih (List.mem_cons_of_mem _ member)

/-- The text before the last `sep`, if there is one. -/
def beforeLast (sep : Char) (cs : List Char) : Option (List Char) :=
  match cs.reverse.dropWhile (· ≠ sep) with
  | [] => none
  | _ :: rest => some rest.reverse

/-- The text after the last `sep`, or all of it if there is none. -/
def afterLast (sep : Char) (cs : List Char) : List Char :=
  (cs.reverse.takeWhile (· ≠ sep)).reverse

/-- Drop every `sep` at the end. -/
def dropTrailing (sep : Char) (cs : List Char) : List Char :=
  (cs.reverse.dropWhile (· = sep)).reverse

/-- Write `replacement` for every `c`. -/
def substitute (c replacement : Char) (s : String) : String :=
  String.ofList (s.toList.map (fun x => if x = c then replacement else x))

end Linkage.Text
