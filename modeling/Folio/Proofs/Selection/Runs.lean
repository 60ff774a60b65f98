import Folio.Proofs.Attempt
import Folio.Selection.Reader

/-!
# Runs of the reader

A run over the tokens of a text takes them one after the other.  The text is read when
all of its tokens are taken and the selection may end behind them, and it is refused for
the first token that is not taken, or for its end.
-/

namespace Folio.Selection

namespace Reading

variable {state last : Reading} {found : Located} {rest : List Located} {cause : Malformation}

theorem run_cons_eq_ok_iff :
    state.run (found :: rest) = .ok last ↔
      ∃ next, state.step found = .ok next ∧ next.run rest = .ok last := by
  rw [run]
  cases state.step found <;> simp

theorem run_cons_eq_error_iff :
    state.run (found :: rest) = .error cause ↔
      state.step found = .error cause ∨
        ∃ next, state.step found = .ok next ∧ next.run rest = .error cause := by
  rw [run]
  cases state.step found <;> simp

end Reading

variable {text : String} {selection : Selection}

/-- A text is read when a run takes its tokens and may end. -/
theorem read_eq_ok_iff :
    read text = .ok selection ↔
      ∃ last, Reading.initial.run (tokens text) = .ok last ∧ last.finish = .ok selection := by
  rw [read, mapError_eq_ok_iff]
  exact bind_eq_ok_iff

/-- A text is refused for one of its tokens or for its end. -/
theorem read_eq_error_iff {refusal : Malformed} :
    read text = .error refusal ↔
      refusal.input = text ∧
        (Reading.initial.run (tokens text) = .error refusal.cause ∨
          ∃ last, Reading.initial.run (tokens text) = .ok last ∧
            last.finish = .error refusal.cause) := by
  rcases refusal with ⟨input, cause⟩
  have refused : ofTokens (tokens text) = .error cause ↔ _ := bind_eq_error_iff
  rw [read, mapError_eq_error_iff, ← refused]
  simp only [Malformed.mk.injEq, eq_comm (a := text)]
  constructor
  · rintro ⟨_, failed, same, rfl⟩
    exact ⟨same, failed⟩
  · rintro ⟨same, failed⟩
    exact ⟨cause, failed, same, rfl⟩

end Folio.Selection
