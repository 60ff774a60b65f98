import Folio.Proofs.Selection.Layout
import Folio.Proofs.Selection.Recognition

/-!
# Where a text is refused

A refusal points at the first token that no selection can have in its place.  The
tokens before it are the beginning of a text that is read: a name behind a comma, or
an empty group behind a colon, and a closing parenthesis for every group that is open
complete them.  A refusal that points nowhere is one of a text that ends too early.
-/

namespace Folio.Selection

open Text

variable {text : String} {tokens : List Token}

/-! ## Tokens that are read -/

/-- Whether tokens are those of a text that is read. -/
def Accepted (tokens : List Token) : Prop :=
  ∃ text selection, lex text.toList = tokens ∧ read text = .ok selection

/-- Whether tokens can be continued to those of a text that is read. -/
def Viable (tokens : List Token) : Prop := ∃ onward, Accepted (tokens ++ onward)

namespace Reading

variable {state next : Reading} {found : Located}

/-- Whether tokens lead from a state to one in which a text may end. -/
def Completes (state : Reading) (tokens : List Token) : Prop :=
  ∃ after selection, state.take? tokens = some after ∧ after.finish = .ok selection

theorem completes_append_iff (taken : state.take? tokens = some next) (onward : List Token) :
    state.Completes (tokens ++ onward) ↔ next.Completes onward := by
  rw [Completes, Completes, take?_append, taken, Option.bind_some]

theorem not_completes_of_step {cause : Malformation} (refused : state.step found = .error cause)
    (onward : List Token) : ¬state.Completes (found.token :: onward) := by
  rintro ⟨after, selection, taken, -⟩
  rw [take?, step_toOption state found.token 0 found.offset, refused] at taken
  contradiction

end Reading

theorem exists_read_iff :
    (∃ selection, read text = .ok selection) ↔ Reading.initial.Completes (lex text.toList) := by
  simp only [read_eq_ok_iff, Reading.run_eq_ok_iff]
  exact exists_comm

theorem accepted_iff :
    Accepted tokens ↔
      (∃ text : String, lex text.toList = tokens) ∧ Reading.initial.Completes tokens := by
  constructor
  · rintro ⟨text, selection, rfl, found⟩
    exact ⟨⟨text, rfl⟩, exists_read_iff.mp ⟨selection, found⟩⟩
  · rintro ⟨⟨text, rfl⟩, completes⟩
    rcases exists_read_iff.mpr completes with ⟨selection, found⟩
    exact ⟨text, selection, rfl, found⟩

/-! ## Completing what has been read -/

theorem lex_closings (count : Nat) :
    lex (List.replicate count ')') = List.replicate count .closing := by
  have closing : Token.ofChar? ')' = some .closing := rfl
  induction count with
  | zero => rfl
  | succ count ih => rw [List.replicate_succ, lex_cons closing, ih, List.replicate_succ]

theorem lex_append_closings (front : List Char) (count : Nat) :
    lex (front ++ List.replicate count ')') = lex front ++ List.replicate count .closing := by
  have closing : Token.ofChar? ')' = some .closing := rfl
  cases count with
  | zero => rw [List.replicate_zero, List.replicate_zero, List.append_nil, List.append_nil]
  | succ count =>
      rw [List.replicate_succ, lex_append_cons closing, lex_closings, List.replicate_succ]

theorem lex_append_name {front rest : List Char} {before : List Token} {name : String}
    (comma : lex front = before ++ [.comma]) (isName : IsName name) (ends : Ends rest) :
    lex (front ++ (name.toList ++ rest)) = lex front ++ .name name :: lex rest := by
  have isComma : Token.ofChar? ',' = some .comma := rfl
  rcases exists_split_of_lex_eq isComma comma with ⟨earlier, blanks, rfl, rfl, blank⟩
  rw [comma, List.append_assoc, List.cons_append, lex_append_cons isComma,
    lex_blank_append (lex_eq_nil_iff.mp blank), lex_name isName ends, List.append_assoc]
  rfl

namespace Reading

variable {state : Reading}

theorem Accounts.exists_of_comma (accounts : Accounts state tokens)
    (behind : state.progress = .comma) : ∃ before, tokens = before ++ [.comma] := by
  cases accounts with
  | @levels enclosing fields progress before own around taken =>
      cases behind
      cases taken with
      | @comma written nonempty =>
          refine ⟨before ++ spelling written, ?_⟩
          rw [opened, if_neg nonempty, List.append_assoc]

/-- Where a level may end, closing parentheses end it and all those around it. -/
theorem completes_closings (enclosing : List Level) (fields : Selection) (progress : Progress)
    (comma : progress ≠ .comma) (colon : ∀ text, progress ≠ .colon text) :
    (⟨enclosing, fields, progress⟩ : Reading).Completes
      (List.replicate enclosing.length .closing) := by
  induction enclosing generalizing fields progress with
  | nil =>
      cases progress with
      | comma => exact absurd rfl comma
      | colon text => exact absurd rfl (colon text)
      | start => exact ⟨_, _, rfl, rfl⟩
      | name text => exact ⟨_, _, rfl, rfl⟩
      | group => exact ⟨_, _, rfl, rfl⟩
  | cons level enclosing ih =>
      have closed : ∀ inner, (⟨enclosing, inner, .group⟩ : Reading).Completes
          (List.replicate enclosing.length .closing) :=
        fun inner => ih inner .group (by simp) (by simp)
      cases progress with
      | comma => exact absurd rfl comma
      | colon text => exact absurd rfl (colon text)
      | start => exact closed _
      | name text => exact closed _
      | group => exact closed _

/-- Whatever has been read can be completed. -/
theorem exists_completion {front : List Char}
    (taken : initial.take? (lex front) = some state) :
    ∃ back onward, lex (front ++ back) = lex front ++ onward ∧ state.Completes onward := by
  rcases state with ⟨enclosing, fields, progress⟩
  have closings := lex_append_closings front enclosing.length
  cases progress with
  | start => exact ⟨_, _, closings, completes_closings enclosing fields _ (by simp) (by simp)⟩
  | name text => exact ⟨_, _, closings, completes_closings enclosing fields _ (by simp) (by simp)⟩
  | group => exact ⟨_, _, closings, completes_closings enclosing fields _ (by simp) (by simp)⟩
  | comma =>
      -- A comma cannot be the last token of a level: a name has to follow.
      have accounts := accounts_initial.run (run_eq_ok_iff.mpr taken)
      rcases accounts.exists_of_comma rfl with ⟨before, ending⟩
      have isName : IsName "x" := by decide
      have ends : Ends (List.replicate enclosing.length ')') := by
        cases enclosing with
        | nil => exact ends_nil
        | cons level enclosing => exact ends_cons rfl _
      have named := lex_append_name ending isName ends
      rw [lex_closings] at named
      exact ⟨_, _, named, completes_closings enclosing fields (.name "x") (by simp) (by simp)⟩
  | colon text =>
      -- The group that has to follow is opened first, so that one more is to be closed.
      have opening : Token.ofChar? '(' = some .opening := rfl
      have opened := lex_append_cons opening front (List.replicate (enclosing.length + 1) ')')
      rw [lex_closings] at opened
      exact ⟨_, _, opened,
        completes_closings (⟨fields, text⟩ :: enclosing) [] .start (by simp) (by simp)⟩

end Reading

theorem viable_of_take? {front : List Char} {after : Reading}
    (taken : Reading.initial.take? (lex front) = some after) : Viable (lex front) := by
  rcases Reading.exists_completion taken with ⟨back, onward, spelt, completes⟩
  refine ⟨onward, accepted_iff.mpr ⟨⟨String.ofList (front ++ back), ?_⟩, ?_⟩⟩
  · rw [String.toList_ofList, spelt]
  · exact (Reading.completes_append_iff taken onward).mpr completes

/-! ## Refusing a token -/

namespace Reading

variable {state : Reading} {found : Located} {cause : Malformation}

theorem offset?_of_step (refused : state.step found = .error cause) :
    cause.offset? = some found.offset := by
  rcases state with ⟨enclosing, fields, progress⟩
  rcases found with ⟨token, offset⟩
  cases progress <;> cases token <;> cases enclosing <;> cases refused <;> rfl

theorem offset?_of_finish (refused : state.finish = .error cause) : cause.offset? = none := by
  rcases state with ⟨enclosing, fields, progress⟩
  cases progress <;> cases enclosing <;> cases refused <;> rfl

theorem exists_of_run_error {located : List Located} (refused : state.run located = .error cause) :
    ∃ before found behind after, located = before ++ found :: behind ∧
      state.run before = .ok after ∧ after.step found = .error cause := by
  induction located generalizing state with
  | nil => contradiction
  | cons found rest ih =>
      rcases run_cons_eq_error_iff.mp refused with stepped | ⟨next, stepped, onward⟩
      · exact ⟨[], found, rest, state, rfl, rfl, stepped⟩
      · rcases ih onward with ⟨before, other, behind, after, rfl, ran, last⟩
        exact ⟨found :: before, other, behind, after, rfl,
          run_cons_eq_ok_iff.mpr ⟨next, stepped, ran⟩, last⟩

end Reading

/-- A cause that points at a byte names it. -/
theorem exists_reason_eq {cause : Malformation} {offset : Nat}
    (points : cause.offset? = some offset) :
    ∃ before behind, cause.reason = before ++ s!"at {offset}" ++ behind := by
  -- What stands around the byte does not matter, so it is put together as texts.
  cases cause with
  | nameExpected found =>
      cases points
      have around (place shown : String) : s!"expected field name at {place}, found {shown}" =
          "expected field name " ++ s!"at {place}" ++ s!", found {shown}" := by
        simp [← String.toList_inj, toString]
      exact ⟨_, _, around (toString found.offset) found.token.describe⟩
  | groupExpected name found =>
      cases points
      have around (group place shown : String) :
          s!"expected '(' after {group}: at {place}, found {shown}" =
            s!"expected '(' after {group}: " ++ s!"at {place}" ++ s!", found {shown}" := by
        simp [← String.toList_inj, toString]
      exact ⟨_, _, around (quoted name) (toString found.offset) found.token.describe⟩
  | closingExpected found =>
      cases points
      have around (place shown : String) : s!"expected ')' at {place}, found {shown}" =
          "expected ')' " ++ s!"at {place}" ++ s!", found {shown}" := by
        simp [← String.toList_inj, toString]
      exact ⟨_, _, around (toString found.offset) found.token.describe⟩
  | unopenedGroup start =>
      cases points
      have around (place : String) :
          s!"unbalanced ')' at {place}" = "unbalanced ')' " ++ s!"at {place}" ++ "" := by
        simp [← String.toList_inj, toString]
      exact ⟨_, _, around (toString offset)⟩
  | unexpected found =>
      cases points
      have around (place shown : String) :
          s!"unexpected {shown} at {place}" = s!"unexpected {shown} " ++ s!"at {place}" ++ "" := by
        simp [← String.toList_inj, toString]
      exact ⟨_, _, around (toString found.offset) found.token.describe⟩
  | _ => contradiction

/-- A token that is refused is the first one with which the text cannot go on. -/
theorem exists_of_run_tokens {cause : Malformation}
    (refused : Reading.initial.run (Selection.tokens text) = .error cause) :
    ∃ front token back, cause.offset? = some (width front) ∧
      text.toList = front ++ token.chars ++ back ∧
      lex text.toList = lex front ++ token :: lex back ∧
      Viable (lex front) ∧ ¬Viable (lex front ++ [token]) := by
  rcases Reading.exists_of_run_error refused with
    ⟨before, found, behind, after, located, taken, stepped⟩
  rcases exists_of_tokens_eq located with ⟨front, back, whole, place, earlier, later⟩
  have reached : Reading.initial.take? (lex front) = some after := by
    rw [earlier]
    exact Reading.run_eq_ok_iff.mp taken
  have spelt : lex text.toList = lex front ++ found.token :: lex back := by
    have tokens : lex text.toList = (Selection.tokens text).map Located.token := rfl
    rw [tokens, located, List.map_append, List.map_cons, earlier, later]
  have stuck : ¬Viable (lex front ++ [found.token]) := by
    rintro ⟨onward, accepted⟩
    have completes := (accepted_iff.mp accepted).2
    rw [List.append_assoc, Reading.completes_append_iff reached] at completes
    exact Reading.not_completes_of_step stepped onward completes
  have points := Reading.offset?_of_step stepped
  rw [← place] at points
  exact ⟨front, found.token, back, points, whole, spelt, viable_of_take? reached, stuck⟩

/-- A text that is refused where it ends could go on, but not end there. -/
theorem viable_of_finish {after : Reading} {cause : Malformation}
    (ran : Reading.initial.run (Selection.tokens text) = .ok after)
    (refused : after.finish = .error cause) :
    Viable (lex text.toList) ∧ ¬Accepted (lex text.toList) := by
  have reached : Reading.initial.take? (lex text.toList) = some after :=
    Reading.run_eq_ok_iff.mp ran
  constructor
  · exact viable_of_take? reached
  · intro accepted
    rcases (accepted_iff.mp accepted).2 with ⟨last, selection, taken, finished⟩
    cases reached.symm.trans taken
    rw [refused] at finished
    contradiction

/-- A refusal that points at a byte names it in its reason, and there a token starts up to
which the tokens of the text can be continued to those of a text that is read, and with
which they cannot.  If a refusal points nowhere, all tokens of the text can be continued,
but are not those of a text that is read. -/
theorem refused_at_first_offence {refusal : Malformed} (refused : read text = .error refusal) :
    (∀ offset, refusal.cause.offset? = some offset →
      (∃ before behind, refusal.cause.reason = before ++ s!"at {offset}" ++ behind) ∧
      ∃ front token back, text.toList = front ++ token.chars ++ back ∧ width front = offset ∧
        lex text.toList = lex front ++ token :: lex back ∧
        Viable (lex front) ∧ ¬Viable (lex front ++ [token])) ∧
    (refusal.cause.offset? = none →
      Viable (lex text.toList) ∧ ¬Accepted (lex text.toList)) := by
  rcases (read_eq_error_iff.mp refused).2 with ran | ⟨after, ran, finished⟩
  · rcases exists_of_run_tokens ran with ⟨front, token, back, points, whole, spelt, viable, stuck⟩
    constructor
    · intro offset named
      have same : width front = offset := Option.some.inj (points.symm.trans named)
      exact ⟨exists_reason_eq named, front, token, back, whole, same, spelt, viable, stuck⟩
    · intro nowhere
      rw [points] at nowhere
      contradiction
  · constructor
    · intro offset named
      rw [Reading.offset?_of_finish finished] at named
      contradiction
    · intro _
      exact viable_of_finish ran finished

/-- Inside a group no closing parenthesis follows a comma, and an open group has to be closed. -/
theorem refused_at_first_offence_nested :
    read " é:(b, )" = .error ⟨" é:(b, )", .nameExpected ⟨.closing, 8⟩⟩ ∧
    (∃ front token back, " é:(b, )".toList = front ++ token.chars ++ back ∧ width front = 8 ∧
      lex " é:(b, )".toList = lex front ++ token :: lex back ∧
      Viable (lex front) ∧ ¬Viable (lex front ++ [token])) ∧
    read "a:(b" = .error ⟨"a:(b", .unclosedGroup "a"⟩ ∧
    Viable [.name "a", .colon, .opening, .name "b"] ∧
    ¬Accepted [.name "a", .colon, .opening, .name "b"] := by
  have comma : read " é:(b, )" = .error ⟨" é:(b, )", .nameExpected ⟨.closing, 8⟩⟩ := rfl
  have unclosed : read "a:(b" = .error ⟨"a:(b", .unclosedGroup "a"⟩ := rfl
  have pointed := ((refused_at_first_offence comma).1 8 rfl).2
  exact ⟨comma, pointed, unclosed, (refused_at_first_offence unclosed).2 rfl⟩

end Folio.Selection
