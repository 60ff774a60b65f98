import Folio.Proofs.Selection.Built
import Folio.Proofs.Selection.Reading

/-!
# Canonical texts read back

Reading the canonical text of a well-formed selection gives that selection, with the
same names, groups and order at every level.  A selection is therefore determined by
its canonical text.
-/

namespace Folio.Selection

/-- The tokens of the canonical text of a well-formed selection are those that spell
it. -/
theorem lex_text {selection : Selection} (wellFormed : WellFormed selection) :
    lex selection.text.toList = spelling selection := by
  have whole := lex_chars ends_nil selection wellFormed.2
  rw [List.append_nil, lex_nil, List.append_nil] at whole
  rw [text, String.toList_ofList, whole]

/-- The canonical text of a well-formed selection is read as that selection. -/
theorem read_text {selection : Selection} (wellFormed : WellFormed selection) :
    read selection.text = .ok selection := by
  rw [read_of_lex (lex_text wellFormed), meaning_of_wellFormed wellFormed]

/-- Selections that are built are read back from their canonical texts, so that these
texts tell them apart, and the canonical text of whatever a text is read as is read
and written as itself. -/
theorem text_roundTrip :
    (∀ selection, Built selection → read selection.text = .ok selection) ∧
    (∀ first second, Built first → Built second → first.text = second.text → first = second) ∧
    (∀ source selection, read source = .ok selection →
      (read selection.text).map text = .ok selection.text) := by
  have back : ∀ selection, Built selection → read selection.text = .ok selection :=
    fun selection built => read_text built.wellFormed
  refine ⟨back, ?_, ?_⟩
  · intro first second firstBuilt secondBuilt same
    have read := back first firstBuilt
    rw [same, back second secondBuilt] at read
    exact (Except.ok.inj read).symm
  · intro source selection found
    rw [back selection (.read found)]
    rfl

/-- A name with a blank inside and an empty group, both as a text gives them and as they
are added. -/
theorem text_roundTrip_emptyGroup :
    read (text [("a b", .leaf), ("tags", .group [])]) = .ok [("a b", .leaf), ("tags", .group [])] ∧
    (read (text [("a b", .leaf), ("tags", .group [])])).map text = .ok "a b,tags:()" ∧
    ∀ selection, Built selection → selection.text = "a b,tags:()" →
      selection = [("a b", .leaf), ("tags", .group [])] := by
  have named : insert [] "a b" .leaf = .ok [("a b", .leaf)] := rfl
  have grouped : insert [("a b", .leaf)] "tags" (.group []) =
      .ok [("a b", .leaf), ("tags", .group [])] := rfl
  have built : Built [("a b", .leaf), ("tags", .group [])] :=
    .group (.leaf .empty named) .empty grouped
  have found : read " a b ,tags : ()" = .ok [("a b", .leaf), ("tags", .group [])] := rfl
  refine ⟨text_roundTrip.1 _ built, text_roundTrip.2.2 _ _ found, ?_⟩
  intro selection otherBuilt same
  exact text_roundTrip.2.1 _ _ otherBuilt built same

end Folio.Selection
