import Linkage.Text.Pieces
import Mathlib.Data.List.Basic
import Mathlib.Data.List.Induction

/-!
# Pieces of texts

A text is cut into pieces at a separator, and pieces without the separator are got back from the text
that is put together from them.

* `Text.pieces_append_cons`, `Text.pieces_cases`, `Text.pieces_first` : the pieces of a text.
* `Text.pieces_join`, `Text.pieces_intercalate` : pieces put together.
* `Text.beforeLast_append_cons`, `Text.afterLast_append_cons` : the last separator.
-/

namespace Linkage.Text

variable {sep : Char}

theorem pieces_of_not_mem {cs : List Char} (hnone : sep ∉ cs) : pieces sep cs = [cs] := by
  induction cs with
  | nil => rfl
  | cons c rest ih =>
      rw [List.mem_cons, not_or] at hnone
      rw [pieces, if_neg (Ne.symm hnone.1), ih hnone.2]

/-- The pieces on the two sides of a separator. -/
theorem pieces_append_cons (front back : List Char) :
    pieces sep (front ++ sep :: back) = pieces sep front ++ pieces sep back := by
  induction front with
  | nil => simp [pieces]
  | cons c rest ih =>
      rw [List.cons_append, pieces, pieces, ih]
      split
      · rfl
      · cases hpieces : pieces sep rest with
        | nil => exact absurd hpieces (pieces_ne_nil sep rest)
        | cons head tail => rfl

theorem join_cons (part : List Char) {rest : List (List Char)} (hne : rest ≠ []) :
    join sep (part :: rest) = part ++ sep :: join sep rest := by
  cases rest with
  | nil => exact absurd rfl hne
  | cons next more => rfl

/-- Pieces without separators are got back. -/
theorem pieces_join {parts : List (List Char)} (hne : parts ≠ [])
    (hparts : ∀ part ∈ parts, sep ∉ part) : pieces sep (join sep parts) = parts := by
  induction parts with
  | nil => exact absurd rfl hne
  | cons part rest ih =>
      have hpart := pieces_of_not_mem (hparts part List.mem_cons_self)
      cases rest with
      | nil => exact hpart
      | cons next more =>
          rw [join_cons part (List.cons_ne_nil _ _), pieces_append_cons, hpart,
            ih (List.cons_ne_nil _ _) (fun part hmem => hparts part (List.mem_cons_of_mem _ hmem))]
          rfl

theorem join_concat {parts : List (List Char)} (hne : parts ≠ []) (last : List Char) :
    join sep (parts ++ [last]) = join sep parts ++ sep :: last := by
  induction parts with
  | nil => exact absurd rfl hne
  | cons part rest ih =>
      by_cases hrest : rest = []
      · rw [hrest]
        rfl
      · rw [List.cons_append, join_cons part (by simp), ih hrest, join_cons part hrest,
          List.append_assoc, List.cons_append]

theorem mem_join_of_mem {parts : List (List Char)} {part : List Char} {c : Char}
    (hpart : part ∈ parts) (hc : c ∈ part) : c ∈ join sep parts := by
  induction parts with
  | nil => cases hpart
  | cons first rest ih =>
      cases rest with
      | nil =>
          obtain rfl := List.mem_singleton.mp hpart
          exact hc
      | cons next more =>
          rw [join_cons first (List.cons_ne_nil _ _)]
          rcases List.mem_cons.mp hpart with rfl | hpart
          · exact List.mem_append_left _ hc
          · exact List.mem_append_right _ (List.mem_cons_of_mem _ (ih hpart))

theorem mem_join {parts : List (List Char)} {c : Char} (hmem : c ∈ join sep parts) :
    c = sep ∨ ∃ part ∈ parts, c ∈ part := by
  induction parts with
  | nil => cases hmem
  | cons part rest ih =>
      cases rest with
      | nil => exact .inr ⟨part, List.mem_cons_self, hmem⟩
      | cons next more =>
          rw [join_cons part (List.cons_ne_nil _ _)] at hmem
          rcases List.mem_append.mp hmem with hmem | hmem
          · exact .inr ⟨part, List.mem_cons_self, hmem⟩
          · rcases List.mem_cons.mp hmem with hsep | hmem
            · exact .inl hsep
            · refine (ih hmem).imp_right ?_
              rintro ⟨other, hother, hc⟩
              exact ⟨other, List.mem_cons_of_mem _ hother, hc⟩

/-- The last separator is the one that none follows. -/
theorem beforeLast_append_cons (front : List Char) {last : List Char} (hlast : sep ∉ last) :
    beforeLast sep (front ++ sep :: last) = some front := by
  have hnone : ∀ c ∈ last.reverse, decide (c ≠ sep) = true := fun c hc =>
    decide_eq_true (ne_of_mem_of_not_mem (List.mem_reverse.mp hc) hlast)
  unfold beforeLast
  rw [List.reverse_append, List.reverse_cons, List.append_assoc, List.singleton_append,
    List.dropWhile_append_of_pos hnone, List.dropWhile_cons_of_neg (by simp)]
  exact congrArg some front.reverse_reverse

theorem afterLast_append_cons (front : List Char) {last : List Char} (hlast : sep ∉ last) :
    afterLast sep (front ++ sep :: last) = last := by
  have hnone : ∀ c ∈ last.reverse, decide (c ≠ sep) = true := fun c hc =>
    decide_eq_true (ne_of_mem_of_not_mem (List.mem_reverse.mp hc) hlast)
  unfold afterLast
  rw [List.reverse_append, List.reverse_cons, List.append_assoc, List.singleton_append,
    List.takeWhile_append_of_pos hnone, List.takeWhile_cons_of_neg (by simp), List.append_nil,
    List.reverse_reverse]

theorem dropTrailing_concat (cs : List Char) (c : Char) :
    dropTrailing sep (cs ++ [c]) = if c = sep then dropTrailing sep cs else cs ++ [c] := by
  unfold dropTrailing
  rw [List.reverse_append, List.reverse_singleton, List.singleton_append, List.dropWhile_cons]
  split <;> rename_i hsame
  · rw [if_pos (of_decide_eq_true hsame)]
  · rw [if_neg (fun heq => hsame (decide_eq_true heq))]
    simp

/-- A text is one piece, or its first piece ends at a separator. -/
theorem pieces_cases (sep : Char) (cs : List Char) :
    sep ∉ cs ∨ ∃ first rest, sep ∉ first ∧ cs = first ++ sep :: rest := by
  by_cases hmem : sep ∈ cs
  · obtain ⟨first, rest, hcs, hfirst⟩ := List.eq_append_cons_of_mem hmem
    exact .inr ⟨first, rest, hfirst, hcs⟩
  · exact .inl hmem

theorem pieces_first {first : List Char} (hfirst : sep ∉ first) (rest : List Char) :
    pieces sep (first ++ sep :: rest) = first :: pieces sep rest := by
  rw [pieces_append_cons, pieces_of_not_mem hfirst, List.singleton_append]

theorem join_append {front back : List (List Char)} (hfront : front ≠ []) (hback : back ≠ []) :
    join sep (front ++ back) = join sep front ++ sep :: join sep back := by
  induction front with
  | nil => exact absurd rfl hfront
  | cons part rest ih =>
      by_cases hrest : rest = []
      · rw [hrest]
        exact join_cons part hback
      · rw [List.cons_append, join_cons part (by simp [hrest]), ih hrest, join_cons part hrest,
          List.append_assoc, List.cons_append]

theorem join_eq_intercalate (sep : Char) (parts : List (List Char)) :
    join sep parts = [sep].intercalate parts := by
  induction parts with
  | nil => rfl
  | cons part rest ih =>
      cases rest with
      | nil => simp [join]
      | cons next more =>
          rw [join_cons part (List.cons_ne_nil _ _), ih, List.intercalate_cons_cons,
            List.append_assoc, List.singleton_append]

/-- The pieces of a text that is put together from pieces without the separator. -/
theorem pieces_intercalate {parts : List String} (hne : parts ≠ [])
    (hparts : ∀ part ∈ parts, sep ∉ part.toList) :
    pieces sep ((String.singleton sep).intercalate parts).toList = parts.map String.toList := by
  have hjoined : ((String.singleton sep).intercalate parts).toList = join sep (parts.map String.toList) := by
    rw [String.toList_intercalate, join_eq_intercalate, String.toList_singleton]
  rw [hjoined, pieces_join (by simpa using hne)]
  intro part hpart
  obtain ⟨text, htext, rfl⟩ := List.mem_map.mp hpart
  exact hparts text htext

end Linkage.Text
