import Folio.Filter.Operator
import Folio.Proofs.Text.Front
import Folio.Proofs.Text.Pieces

/-!
# The table of operators

What an operator asks of two texts is said by putting texts together: a text is among
the pieces of a list, or it is what is wanted with something in front of it or behind it.
-/

namespace Folio

namespace Text

variable {separator : Char} {text part : String}

/-- A text is a piece of another one exactly when that one is made of pieces without
separators, the text among them, with separators in between. -/
theorem mem_piecesBetween_iff : part ∈ piecesBetween separator text ↔
    ∃ pieces : List String, (∀ piece ∈ pieces, separator ∉ piece.toList) ∧ part ∈ pieces ∧
      text = (String.singleton separator).intercalate pieces := by
  constructor
  · intro member
    refine ⟨piecesBetween separator text, ?_, member, ?_⟩
    · intro piece inside
      rcases List.mem_map.mp inside with ⟨chars, split, rfl⟩
      rw [String.toList_ofList]
      exact not_mem_of_mem_splitOn split
    · have chars : (piecesBetween separator text).map String.toList =
          text.toList.splitOn separator := by
        simp [piecesBetween, Function.comp_def]
      rw [← String.toList_inj, String.toList_intercalate, chars, String.toList_singleton,
        List.intercalate_splitOn]
  · rintro ⟨pieces, plain, member, rfl⟩
    have nonempty : pieces.map String.toList ≠ [] := by
      rw [ne_eq, List.map_eq_nil_iff]
      exact List.ne_nil_of_mem member
    have single : ∀ chars ∈ pieces.map String.toList, separator ∉ chars := by
      intro chars inside
      rcases List.mem_map.mp inside with ⟨piece, listed, rfl⟩
      exact plain piece listed
    have split : piecesBetween separator ((String.singleton separator).intercalate pieces) =
        pieces := by
      rw [piecesBetween, String.toList_intercalate, String.toList_singleton,
        List.splitOn_intercalate separator single nonempty]
      simp [Function.comp_def]
    rwa [split]

theorem startsWith_iff_append : startsWith part text ↔ ∃ behind, text = part ++ behind := by
  constructor
  · exact exists_eq_append_of_startsWith
  · rintro ⟨behind, rfl⟩
    exact startsWith_append part behind

theorem endsWith_iff_append : endsWith part text ↔ ∃ before, text = before ++ part := by
  rw [endsWith_iff]
  constructor
  · rintro ⟨before, same⟩
    refine ⟨String.ofList before, ?_⟩
    rw [← String.toList_inj, same, String.toList_append, String.toList_ofList]
  · rintro ⟨before, rfl⟩
    exact ⟨before.toList, String.toList_append⟩

theorem contains_iff_append :
    contains part text ↔ ∃ before behind, text = before ++ part ++ behind := by
  rw [contains_iff]
  constructor
  · rintro ⟨before, behind, same⟩
    refine ⟨String.ofList before, String.ofList behind, ?_⟩
    rw [← String.toList_inj, same, String.toList_append, String.toList_append,
      String.toList_ofList, String.toList_ofList]
  · rintro ⟨before, behind, rfl⟩
    exact ⟨before.toList, behind.toList, by rw [String.toList_append, String.toList_append]⟩

end Text

namespace Operator

open Text

/-- The table of operators: what the operator with a symbol asks of the text of a field
and the text that is wanted.  A symbol that is not in the table is never passed. -/
def Passes (symbol text wanted : String) : Prop :=
  match symbol with
  | "=" => text = wanted
  | "~" => ∃ pieces : List String, (∀ piece ∈ pieces, ',' ∉ piece.toList) ∧ text ∈ pieces ∧
      wanted = ",".intercalate pieces
  | "|" => text = wanted ∨ ∃ rest, text = wanted ++ "-" ++ rest
  | "*" => ∃ before behind, text = before ++ wanted ++ behind
  | "^" => ∃ behind, text = wanted ++ behind
  | "$" => ∃ before, text = before ++ wanted
  | _ => False

/-- The operators that have a symbol in the table. -/
def known : List Operator := [.equals, .oneOf, .languageTag, .contains, .startsWith, .endsWith]

theorem mem_known_iff {operator : Operator} :
    operator ∈ known ↔ ∃ c ∈ symbolChars, ofSymbol (String.singleton c) = operator := by
  have listed : known = symbolChars.map fun c => ofSymbol (String.singleton c) := by decide
  rw [listed, List.mem_map]

variable {symbol text wanted : String}

theorem test_oneOf_iff : test .oneOf text wanted = true ↔
    ∃ pieces : List String, (∀ piece ∈ pieces, ',' ∉ piece.toList) ∧ text ∈ pieces ∧
      wanted = ",".intercalate pieces := by
  rw [test, List.contains_iff_mem]
  exact mem_piecesBetween_iff

theorem test_languageTag_iff : test .languageTag text wanted = true ↔
    text = wanted ∨ ∃ rest, text = wanted ++ "-" ++ rest := by
  rw [test, Bool.or_eq_true, beq_iff_eq, startsWith_iff_append]

/-- The operator of a symbol does what the table says. -/
theorem test_ofSymbol_iff :
    (ofSymbol symbol).test text wanted = true ↔ Passes symbol text wanted := by
  unfold Passes
  split
  · exact beq_iff_eq
  · exact test_oneOf_iff
  · exact test_languageTag_iff
  · exact contains_iff_append
  · exact startsWith_iff_append
  · exact endsWith_iff_append
  · simp_all [ofSymbol, test]

end Operator

end Folio
