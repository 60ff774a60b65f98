import Folio.Proofs.Selection.Derivations
import Folio.Proofs.Selection.Reading

/-!
# Reading recognises the grammar

While a text is read, the tokens that have been taken at each level spell some fields,
and what they mean are the fields of that level.  So a run that ends well has taken the
tokens that spell what it gives the meaning of, and a text is read exactly when the
grammar derives it.
-/

namespace Folio.Selection

/-! ## What a level has taken -/

/-- The tokens of a level when its next field may start. -/
def opened (written : List (String × Field)) : List Token :=
  if written = [] then [] else spelling written ++ [.comma]

/-- One more field stands behind those before it. -/
theorem spelling_concat (written : List (String × Field)) (name : String) (field : Field) :
    spelling (written ++ [(name, field)]) = opened written ++ .name name :: field.spelling := by
  induction written with
  | nil => rfl
  | cons entry rest ih =>
      rw [List.cons_append, spelling_cons (by simp), ih]
      cases rest with
      | nil => simp [opened]
      | cons next others =>
          simp only [opened, reduceCtorEq, if_false]
          rw [spelling_cons (List.cons_ne_nil next others)]
          simp

/-- Whether the tokens taken at a level spell fields that mean the fields of the level,
up to what has just been read. -/
inductive Taken : Progress → Selection → List Token → Prop
  | start : Taken .start [] []
  | comma {written : List (String × Field)} (nonempty : written ≠ []) :
      Taken .comma (meaning written) (opened written)
  | name (text : String) (written : List (String × Field)) :
      Taken (.name text) (meaning written) (opened written ++ [.name text])
  | colon (text : String) (written : List (String × Field)) :
      Taken (.colon text) (meaning written) (opened written ++ [.name text, .colon])
  | group {written : List (String × Field)} (nonempty : written ≠ []) :
      Taken .group (meaning written) (spelling written)

/-- Whether the levels around the current one have taken some tokens. -/
inductive Around : List Level → List Token → Prop
  | outermost : Around [] []
  | inside {enclosing : List Level} {before : List Token} (around : Around enclosing before)
      (group : String) (written : List (String × Field)) :
      Around (⟨meaning written, group⟩ :: enclosing)
        (before ++ opened written ++ [.name group, .colon, .opening])

namespace Reading

/-- Whether all tokens so far are accounted for, level by level. -/
inductive Accounts : Reading → List Token → Prop
  | levels {enclosing : List Level} {fields : Selection} {progress : Progress}
      {before own : List Token} (around : Around enclosing before)
      (taken : Taken progress fields own) : Accounts ⟨enclosing, fields, progress⟩ (before ++ own)

variable {state next : Reading} {found : Located} {before tokens : List Token}

theorem accounts_initial : Accounts initial [] :=
  .levels .outermost .start

/-- Going on behind a field, or ending a group, accounts for its token. -/
theorem accounts_advance (written : List (String × Field)) (around : Around state.enclosing before)
    (settled : state.settled = meaning written) (some : written = [] → found.token = .closing)
    (taken : state.advance found = .ok next) :
    Accounts next (before ++ spelling written ++ [found.token]) := by
  unfold Reading.advance at taken
  split at taken
  · rename_i token
    cases taken
    have nonempty : written ≠ [] := by
      intro none
      rw [some none] at token
      contradiction
    rw [token, settled, List.append_assoc]
    have own : opened written = spelling written ++ [.comma] := if_neg nonempty
    exact own ▸ .levels around (.comma nonempty)
  · rename_i level enclosing token levels
    cases taken
    rw [levels] at around
    cases around with
    | inside around group outer =>
        rw [token, settled, ← meaning_group, ← meaning_concat]
        have own := spelling_concat outer group (.group written)
        rw [Field.spelling] at own
        have nonempty : outer ++ [(group, .group written)] ≠ [] := by simp
        have accounted := Accounts.levels around (.group nonempty)
        rw [own] at accounted
        simpa using accounted
  · contradiction

/-- Every token that is taken is accounted for. -/
theorem Accounts.step (accounts : Accounts state tokens) (taken : state.step found = .ok next) :
    Accounts next (tokens ++ [found.token]) := by
  rcases found with ⟨token, offset⟩
  cases accounts with
  | levels around sofar =>
      -- What has just been read decides which tokens are taken; the others are refused.
      cases sofar with
      | start =>
          cases token <;> try contradiction
          case name text =>
            cases taken
            rw [List.append_nil]
            exact .levels around (.name text [])
          case closing => exact accounts_advance [] around rfl (fun _ => rfl) taken
      | comma nonempty =>
          cases token <;> try contradiction
          case name text =>
            cases taken
            rw [List.append_assoc]
            exact .levels around (.name text _)
      | name text written =>
          cases token with
          | colon =>
              cases taken
              rw [List.append_assoc, List.append_assoc]
              exact .levels around (.colon text written)
          | _ =>
              have own := spelling_concat written text .leaf
              rw [Field.spelling] at own
              rw [← own]
              refine accounts_advance _ around ?_ (by simp) taken
              rw [meaning_concat]
              rfl
      | colon text written =>
          cases token <;> try contradiction
          case opening =>
            cases taken
            have inside := Accounts.levels (around.inside text written) .start
            simpa using inside
      | group nonempty =>
          exact accounts_advance _ around rfl (fun none => absurd none nonempty) taken

/-- A run accounts for all of its tokens. -/
theorem Accounts.run (accounts : Accounts state tokens) {located : List Located}
    (ran : state.run located = .ok next) :
    Accounts next (tokens ++ located.map Located.token) := by
  induction located generalizing state tokens with
  | nil =>
      cases ran
      simpa using accounts
  | cons found rest ih =>
      rcases run_cons_eq_ok_iff.mp ran with ⟨after, taken, onward⟩
      simpa using ih (accounts.step taken) onward

/-- When a run may end, its tokens spell fields that mean what it has read. -/
theorem Accounts.finish (accounts : Accounts state tokens) {selection : Selection}
    (finished : state.finish = .ok selection) :
    ∃ written, tokens = spelling written ∧ selection = meaning written := by
  cases accounts with
  | levels around sofar =>
      cases around with
      | inside => cases sofar <;> contradiction
      | outermost =>
          cases sofar with
          | start =>
              cases finished
              exact ⟨[], rfl, rfl⟩
          | name text written =>
              cases finished
              refine ⟨written ++ [(text, .leaf)], ?_, ?_⟩
              · rw [spelling_concat, Field.spelling, List.nil_append]
              · rw [meaning_concat]
                rfl
          | @group written nonempty =>
              cases finished
              exact ⟨written, rfl, rfl⟩
          | comma => contradiction
          | colon => contradiction

end Reading

/-! ## Texts -/

theorem lex_of_read {text : String} {selection : Selection} (found : read text = .ok selection) :
    ∃ written, lex text.toList = spelling written ∧ selection = meaning written := by
  rcases read_eq_ok_iff.mp found with ⟨last, ran, finished⟩
  exact (Reading.accounts_initial.run ran).finish finished

/-- A text is read as a selection exactly when the grammar derives fields from it that
mean the selection, and a text from which it derives none is refused as a whole. -/
theorem read_exact (text : String) :
    (∀ selection, read text = .ok selection ↔
      ∃ written, DerivesFields text.toList written ∧ meaning written = selection) ∧
    ((∃ cause, read text = .error ⟨text, cause⟩) ↔
      ¬∃ written, DerivesFields text.toList written) := by
  have reads : ∀ selection, read text = .ok selection ↔
      ∃ written, DerivesFields text.toList written ∧ meaning written = selection := by
    intro selection
    constructor
    · intro found
      rcases lex_of_read found with ⟨written, spelt, rfl⟩
      exact ⟨written, derivesFields_iff.mpr spelt, rfl⟩
    · rintro ⟨written, derives, rfl⟩
      exact read_of_lex (derivesFields_iff.mp derives)
  refine ⟨reads, ?_, ?_⟩
  · rintro ⟨cause, refused⟩ ⟨written, derives⟩
    rw [(reads (meaning written)).mpr ⟨written, derives, rfl⟩] at refused
    contradiction
  · intro underivable
    cases outcome : read text with
    | error refusal =>
        have whole : refusal.input = text := (read_eq_error_iff.mp outcome).1
        exact ⟨refusal.cause, by rw [← whole]⟩
    | ok selection =>
        rcases (reads selection).mp outcome with ⟨written, derives, _⟩
        exact absurd ⟨written, derives⟩ underivable

/-- A name keeps its first place and takes its last meaning. -/
example : read " b , a : ( x ) , b : ( )" =
    .ok [("b", .group []), ("a", .group [("x", .leaf)])] := rfl

end Folio.Selection
