import Folio.Text.Lines
import Mathlib.Data.List.Basic

/-!
# Lines of what is put together

A line and what follows its line feed have their lines one after the other, and a text
without a line feed is one line unless it is empty.
-/

namespace Folio.Text

/-- A line that is ended stands before the lines behind it. -/
theorem lines_append_lineFeed {line : List Char} (single : '\n' ∉ line) (rest : List Char) :
    lines (line ++ '\n' :: rest) = dropReturn line :: lines rest := by
  have pieces := List.splitOn_append_cons_self_of_not_mem single rest
  rcases List.exists_cons_of_ne_nil (List.splitOn_ne_nil '\n' rest) with ⟨first, others, split⟩
  rw [split] at pieces
  simp only [lines, pieces, split, List.dropLast_cons_cons, List.map_cons, List.getLast?_cons_cons,
    List.cons_append]

/-- Lines that are all ended stand before the lines behind them. -/
theorem lines_append {front : List Char} (ended : ∀ c ∈ front.getLast?, c = '\n')
    (rest : List Char) : lines (front ++ rest) = lines front ++ lines rest := by
  rcases List.eq_nil_or_concat front with rfl | ⟨more, c, rfl⟩
  · rfl
  · have isFeed : c = '\n' := ended c (by simp)
    have split (behind : List Char) : lines (more ++ '\n' :: behind) =
        (more.splitOn '\n').map dropReturn ++ lines behind := by
      simp only [lines, List.splitOn_append_cons_self]
      rw [List.dropLast_append_of_ne_nil (List.splitOn_ne_nil '\n' behind),
        List.getLast?_append_of_ne_nil _ (List.splitOn_ne_nil '\n' behind), List.map_append,
        List.append_assoc]
    have nothing : lines [] = [] := rfl
    rw [List.concat_eq_append, List.append_assoc, isFeed, List.singleton_append, split, split,
      nothing, List.append_nil]

theorem lines_of_not_mem {piece : List Char} (single : '\n' ∉ piece) :
    lines piece = if piece = [] then [] else [piece] := by
  have pieces := List.splitOn_eq_singleton single
  cases piece with
  | nil => rfl
  | cons c rest => simp [lines, pieces]

end Folio.Text
