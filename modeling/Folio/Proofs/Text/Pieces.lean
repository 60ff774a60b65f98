import Mathlib.Data.List.Basic

/-!
# Pieces between separators

The pieces of a list together hold its elements without the separators, and the
list is determined by its pieces.
-/

namespace Folio.Text

variable {α : Type}

/-- The pieces one after the other are the list without its separators. -/
theorem flatten_splitOnP (separates : α → Bool) (list : List α) :
    (list.splitOnP separates).flatten = list.filter fun element => !separates element := by
  induction list with
  | nil => rfl
  | cons first rest ih =>
      rw [List.splitOnP_cons_eq_if_modifyHead]
      rcases List.exists_cons_of_ne_nil (List.splitOnP_ne_nil separates rest) with
        ⟨piece, pieces, split⟩
      rw [split, List.flatten_cons] at ih
      by_cases cut : separates first
      · simp [cut, split, ih]
      · simp [cut, split, ih]

theorem intercalate_cons (separator : α) (first : List α) (rest : List (List α)) :
    [separator].intercalate (first :: rest) = first ++ rest.flatMap (separator :: ·) := by
  induction rest generalizing first with
  | nil => simp
  | cons next rest ih =>
      rw [List.intercalate_cons_cons, ih, List.flatMap_cons, List.append_assoc]
      rfl

/-- What stands in pieces that are joined is a separator or stands in one of them. -/
theorem eq_or_exists_of_mem_intercalate {separator element : α} {pieces : List (List α)}
    (inside : element ∈ [separator].intercalate pieces) :
    element = separator ∨ ∃ piece ∈ pieces, element ∈ piece := by
  induction pieces with
  | nil => contradiction
  | cons first rest ih =>
      cases rest with
      | nil =>
          rw [List.intercalate_singleton] at inside
          exact .inr ⟨first, List.mem_singleton_self first, inside⟩
      | cons next rest =>
          rw [List.intercalate_cons_cons, List.mem_append, List.mem_append,
            List.mem_singleton] at inside
          rcases inside with (front | same) | behind
          · exact .inr ⟨first, List.mem_cons_self, front⟩
          · exact .inl same
          · rcases ih behind with same | ⟨piece, later, member⟩
            · exact .inl same
            · exact .inr ⟨piece, List.mem_cons_of_mem first later, member⟩

/-- What stands in a piece stands in the pieces that are joined. -/
theorem mem_intercalate_of_mem {separator element : α} {piece : List α} {pieces : List (List α)}
    (inside : piece ∈ pieces) (member : element ∈ piece) :
    element ∈ [separator].intercalate pieces := by
  induction pieces with
  | nil => contradiction
  | cons first rest ih =>
      cases rest with
      | nil =>
          rw [List.mem_singleton] at inside
          rw [List.intercalate_singleton, ← inside]
          exact member
      | cons next rest =>
          rw [List.intercalate_cons_cons, List.mem_append]
          rcases List.mem_cons.mp inside with rfl | later
          · exact .inl (List.mem_append_left _ member)
          · exact .inr (ih later)

variable [BEq α]

theorem flatten_splitOn (separator : α) (list : List α) :
    (list.splitOn separator).flatten = list.filter (· != separator) :=
  flatten_splitOnP (· == separator) list

variable [LawfulBEq α] {separator : α}

theorem not_mem_of_mem_splitOn {list piece : List α} (inside : piece ∈ list.splitOn separator) :
    separator ∉ piece := by
  intro member
  have kept : separator ∈ list.filter (· != separator) := by
    rw [← flatten_splitOn]
    exact List.mem_flatten.mpr ⟨piece, inside, member⟩
  simp at kept

theorem exists_mem_splitOn {list : List α} {element : α} (inside : element ∈ list)
    (different : element ≠ separator) : ∃ piece ∈ list.splitOn separator, element ∈ piece := by
  have kept : element ∈ (list.splitOn separator).flatten := by
    rw [flatten_splitOn, List.mem_filter]
    exact ⟨inside, by simpa using different⟩
  simpa using List.mem_flatten.mp kept

theorem splitOn_injective (separator : α) :
    Function.Injective (List.splitOn separator : List α → List (List α)) := by
  intro list other same
  have joined : [separator].intercalate (list.splitOn separator) = list :=
    List.intercalate_splitOn separator
  rw [← joined, same, List.intercalate_splitOn]

/-- A list has the pieces of a front and one more exactly when that one stands
behind the front and a separator. -/
theorem splitOn_eq_append_singleton_iff {list front piece : List α} :
    list.splitOn separator = front.splitOn separator ++ [piece] ↔
      list = front ++ separator :: piece ∧ separator ∉ piece := by
  have joined (absent : separator ∉ piece) :
      (front ++ separator :: piece).splitOn separator = front.splitOn separator ++ [piece] := by
    rw [List.splitOn_append_cons_self, List.splitOn_eq_singleton absent]
  constructor
  · intro pieces
    have inside : piece ∈ list.splitOn separator := by
      rw [pieces]
      exact List.mem_append_right _ (List.mem_singleton_self piece)
    have absent := not_mem_of_mem_splitOn inside
    exact ⟨splitOn_injective separator (pieces.trans (joined absent).symm), absent⟩
  · rintro ⟨rfl, absent⟩
    exact joined absent

end Folio.Text
