import Folio.Proofs.Selection.Names
import Folio.Selection.Printer

/-!
# The tokens of a canonical text

The canonical text of a selection falls apart into the tokens that spell it.  A name
is one token only because the text goes on with punctuation behind it, or ends; for
the tokens it does not matter at which byte a text starts.
-/

namespace Folio

mutual

/-- The tokens that follow the name of a field. -/
def Field.spelling : Field → List Selection.Token
  | .leaf => []
  | .group sub => [.colon, .opening] ++ Selection.spelling sub ++ [.closing]
termination_by structural field => field

/-- The tokens that spell a selection. -/
def Selection.spelling : List (String × Field) → List Selection.Token
  | [] => []
  | [(name, field)] => .name name :: Field.spelling field
  | (name, field) :: next :: rest =>
      .name name :: Field.spelling field ++ .comma :: Selection.spelling (next :: rest)
termination_by structural selection => selection

end

namespace Selection

open Text

/-- The tokens of a list of characters, wherever they start. -/
def lex (chars : List Char) : List Token :=
  (tokensFrom 0 [] chars).map Located.token

/-- Whether a name would end here: the text ends, or punctuation follows. -/
def Ends (chars : List Char) : Prop :=
  ∀ c ∈ chars.head?, (Token.ofChar? c).isSome

theorem ends_nil : Ends [] := by
  simp [Ends]

theorem ends_cons {c : Char} (punctuation : (Token.ofChar? c).isSome) (rest : List Char) :
    Ends (c :: rest) := by
  simp [Ends, punctuation]

/-! ## Runs of characters -/

theorem nameIn_token (start other : Nat) (run : List Char) :
    (nameIn start run).map Located.token = (nameIn other run).map Located.token := by
  unfold nameIn
  split <;> rfl

/-- The tokens of a text do not depend on where it starts. -/
theorem tokensFrom_token (start other : Nat) (run chars : List Char) :
    (tokensFrom start run chars).map Located.token =
      (tokensFrom other run chars).map Located.token := by
  induction chars generalizing start other run with
  | nil => exact nameIn_token start other run.reverse
  | cons c rest ih =>
      rw [tokensFrom, tokensFrom]
      cases Token.ofChar? c with
      | none => exact ih start other (c :: run)
      | some punctuation =>
          simp only [List.map_append, List.map_cons]
          rw [nameIn_token start other, ih]

/-- Characters that are no punctuation are added to the run. -/
theorem tokensFrom_append {part : List Char} (plain : ∀ c ∈ part, Token.ofChar? c = none)
    (start : Nat) (run rest : List Char) :
    tokensFrom start run (part ++ rest) = tokensFrom start (part.reverse ++ run) rest := by
  induction part generalizing run with
  | nil => rfl
  | cons c part ih =>
      rw [List.forall_mem_cons] at plain
      rw [List.cons_append, tokensFrom, plain.1]
      simp only [List.reverse_cons, List.append_assoc, List.cons_append, List.nil_append]
      exact ih plain.2 (c :: run)

theorem tokensFrom_of_ends {chars : List Char} (ends : Ends chars) (run : List Char) :
    (tokensFrom 0 run chars).map Located.token =
      (nameIn 0 run.reverse).map Located.token ++ lex chars := by
  cases chars with
  | nil => simp [lex, tokensFrom, nameIn]
  | cons c rest =>
      rcases Option.isSome_iff_exists.mp (ends c rfl) with ⟨token, punctuation⟩
      simp only [lex, tokensFrom, punctuation, List.map_append, List.map_cons]
      rw [tokensFrom_token _ (0 + width [] + c.utf8Size)]
      rfl

/-! ## Tokens one after the other -/

@[simp]
theorem lex_nil : lex [] = [] := rfl

/-- Punctuation is a token by itself. -/
theorem lex_cons {c : Char} {token : Token} (punctuation : Token.ofChar? c = some token)
    (rest : List Char) : lex (c :: rest) = token :: lex rest := by
  simp only [lex, tokensFrom, punctuation, List.map_append, List.map_cons]
  rw [tokensFrom_token _ 0]
  rfl

/-- A name that ends is one token. -/
theorem lex_name {name : String} (isName : IsName name) {rest : List Char} (ends : Ends rest) :
    lex (name.toList ++ rest) = .name name :: lex rest := by
  rcases isName_iff.mp isName with ⟨nonempty, trimmed, plain⟩
  have one : (nameIn 0 name.toList).map Located.token = [.name name] := by
    unfold nameIn
    rw [trimmed]
    cases chars : name.toList with
    | nil => exact absurd chars nonempty
    | cons c tail =>
        have whole : String.ofList (c :: tail) = name := by
          rw [← chars, String.ofList_toList]
        simp [whole]
  rw [lex, tokensFrom_append plain, List.append_nil, tokensFrom_of_ends ends,
    List.reverse_reverse, one]
  rfl

/-! ## The canonical text -/

theorem ends_fieldChars {rest : List Char} (ends : Ends rest) (field : Field) :
    Ends (field.chars ++ rest) := by
  cases field with
  | leaf => exact ends
  | group sub => exact ends_cons rfl _

mutual

/-- The text behind the name of a field is spelt by the tokens behind the name. -/
theorem lex_fieldChars {rest : List Char} :
    (field : Field) → FieldWellFormed field →
      lex (field.chars ++ rest) = field.spelling ++ lex rest
  | .leaf, _ => rfl
  | .group sub, wellFormed => by
      have ends : Ends (')' :: rest) := ends_cons rfl rest
      simp only [Field.chars, Field.spelling, List.append_assoc, List.cons_append,
        List.nil_append]
      have colon : Token.ofChar? ':' = some .colon := rfl
      have opening : Token.ofChar? '(' = some .opening := rfl
      have closing : Token.ofChar? ')' = some .closing := rfl
      rw [lex_cons colon, lex_cons opening, lex_chars ends sub wellFormed.2, lex_cons closing]
termination_by structural field => field

/-- The canonical text of a selection is spelt by its tokens. -/
theorem lex_chars {rest : List Char} (ends : Ends rest) :
    (entries : List (String × Field)) → EntriesWellFormed entries →
      lex (chars entries ++ rest) = spelling entries ++ lex rest
  | [], _ => rfl
  | [(name, field)], wellFormed => by
      rcases wellFormed with ⟨isName, inner, _⟩
      rw [chars, spelling, List.append_assoc, lex_name isName (ends_fieldChars ends field),
        lex_fieldChars field inner, List.cons_append]
  | (name, field) :: next :: others, wellFormed => by
      rcases wellFormed with ⟨isName, inner, later⟩
      have comma : Token.ofChar? ',' = some .comma := rfl
      have nameEnds : Ends (',' :: (chars (next :: others) ++ rest)) := ends_cons rfl _
      rw [chars, spelling]
      simp only [List.append_assoc, List.cons_append]
      rw [lex_name isName (ends_fieldChars nameEnds field), lex_fieldChars field inner,
        lex_cons comma, lex_chars ends (next :: others) later]
termination_by structural entries => entries

end

end Selection

end Folio
