import Folio.Proofs.Selection.Grammar
import Folio.Proofs.Selection.Lexing

/-!
# Derivations and tokens

A text derives the fields that its tokens spell, and no others.  Punctuation cuts the
tokens of a text in two, and blanks at the ends of a text make no difference to them.
So the tokens of a derived text are put together symbol by symbol, and a text is taken
apart again at the punctuation among its tokens.
-/

namespace Folio.Selection

open Text

variable {chars : List Char}

/-! ## Runs without punctuation -/

/-- Whether no character is punctuation. -/
def Unpunctuated (run : List Char) : Prop := ∀ c ∈ run, Token.ofChar? c = none

theorem ofChar?_eq_none_iff {c : Char} :
    Token.ofChar? c = none ↔ c ∉ [',', ':', '(', ')'] := by
  unfold Token.ofChar?
  split <;> simp_all

/-- A blank is no punctuation. -/
theorem unpunctuated_of_blank {blanks : List Char} (blank : Blank blanks) :
    Unpunctuated blanks := by
  intro c member
  rw [ofChar?_eq_none_iff]
  intro punctuation
  have isBlank := blank c member
  simp only [List.mem_cons, List.not_mem_nil, or_false] at punctuation
  rcases punctuation with rfl | rfl | rfl | rfl <;> contradiction

/-- A text has no punctuation, or it has a first one. -/
theorem unpunctuated_or_split (chars : List Char) :
    Unpunctuated chars ∨ ∃ run c token rest,
      Unpunctuated run ∧ Token.ofChar? c = some token ∧ chars = run ++ c :: rest := by
  induction chars with
  | nil => exact .inl (by simp [Unpunctuated])
  | cons c chars ih =>
      cases punctuation : Token.ofChar? c with
      | some token => exact .inr ⟨[], c, token, chars, by simp [Unpunctuated], punctuation, rfl⟩
      | none =>
          rcases ih with plain | ⟨run, d, token, rest, plain, isToken, rfl⟩
          · exact .inl (List.forall_mem_cons.mpr ⟨punctuation, plain⟩)
          · exact .inr ⟨c :: run, d, token, rest, List.forall_mem_cons.mpr ⟨punctuation, plain⟩,
              isToken, rfl⟩

theorem lex_run {run : List Char} (plain : Unpunctuated run) :
    lex run = (nameIn 0 run).map Located.token := by
  have only := tokensFrom_append plain 0 [] []
  rw [List.append_nil, List.append_nil] at only
  rw [lex, only, tokensFrom, List.reverse_reverse]

/-! ## Tokens one after the other -/

theorem chars_of_ofChar? {c : Char} {token : Token} (isToken : Token.ofChar? c = some token) :
    token.chars = [c] := by
  unfold Token.ofChar? at isToken
  split at isToken <;> cases isToken <;> rfl

theorem ne_name_of_ofChar? {c : Char} {token : Token} (isToken : Token.ofChar? c = some token)
    (name : String) : token ≠ .name name := by
  unfold Token.ofChar? at isToken
  split at isToken <;> cases isToken <;> simp

theorem exists_name_of_mem_nameIn {start : Nat} {run : List Char} {token : Token}
    (member : token ∈ (nameIn start run).map Located.token) : ∃ name, token = .name name := by
  unfold nameIn at member
  split at member
  · simp at member
  · exact ⟨_, by simpa using member⟩

/-- Punctuation behind the names of a run does not stand among them. -/
theorem exists_of_nameIn_append_eq {symbol : Char} {token : Token} {start : Nat} {run : List Char}
    {onward front back : List Token} (isToken : Token.ofChar? symbol = some token)
    (equal : (nameIn start run).map Located.token ++ onward = front ++ token :: back) :
    ∃ others, front = (nameIn start run).map Located.token ++ others ∧
      onward = others ++ token :: back := by
  rcases List.append_eq_append_iff.mp equal with split | ⟨others, isNames, behind⟩
  · exact split
  · cases others with
    | nil => exact ⟨[], by simpa using isNames.symm, by simpa using behind.symm⟩
    | cons other others =>
        have member : token ∈ (nameIn start run).map Located.token := by
          rw [isNames, (List.cons.inj behind).1]
          simp
        rcases exists_name_of_mem_nameIn member with ⟨name, isName⟩
        exact absurd isName (ne_name_of_ofChar? isToken name)

/-- Punctuation cuts the tokens of a text in two. -/
theorem lex_append_cons {symbol : Char} {token : Token}
    (isToken : Token.ofChar? symbol = some token) (front back : List Char) :
    lex (front ++ symbol :: back) = lex front ++ token :: lex back := by
  -- The characters that may become a name are carried along in the run.
  suffices general : ∀ start run,
      (tokensFrom start run (front ++ symbol :: back)).map Located.token =
        (tokensFrom start run front).map Located.token ++ token :: lex back from general 0 []
  induction front with
  | nil =>
      intro start run
      simp only [List.nil_append, tokensFrom, isToken, List.map_append, List.map_cons]
      rw [lex, tokensFrom_token _ 0]
  | cons c front ih =>
      intro start run
      rw [List.cons_append, tokensFrom, tokensFrom]
      cases Token.ofChar? c with
      | none => exact ih start (c :: run)
      | some first =>
          simp only [List.map_append, List.map_cons]
          rw [ih, List.append_assoc, List.cons_append]

/-- Among the tokens of a text punctuation stands where it stands in the text, whatever run of
characters is in front of it. -/
theorem exists_split_of_tokensFrom_eq {symbol : Char} {token : Token} {front back : List Token}
    (isToken : Token.ofChar? symbol = some token) {start : Nat} {run : List Char}
    (equal : (tokensFrom start run chars).map Located.token = front ++ token :: back) :
    ∃ before behind, chars = before ++ symbol :: behind ∧
      (tokensFrom start run before).map Located.token = front ∧ lex behind = back := by
  induction chars generalizing start run front with
  | nil =>
      have member : token ∈ (nameIn start run.reverse).map Located.token := by
        rw [tokensFrom] at equal
        simp [equal]
      rcases exists_name_of_mem_nameIn member with ⟨name, isName⟩
      exact absurd isName (ne_name_of_ofChar? isToken name)
  | cons c chars ih =>
      rw [tokensFrom] at equal
      cases punctuation : Token.ofChar? c with
      | none =>
          rw [punctuation] at equal
          rcases ih equal with ⟨before, behind, rfl, isFront, isBack⟩
          refine ⟨c :: before, behind, rfl, ?_, isBack⟩
          rw [tokensFrom, punctuation]
          exact isFront
      | some first =>
          simp only [punctuation, List.map_append, List.map_cons] at equal
          rcases exists_of_nameIn_append_eq isToken equal with ⟨others, rfl, onward⟩
          cases others with
          | nil =>
              rw [List.nil_append, List.cons.injEq] at onward
              rcases onward with ⟨rfl, isBack⟩
              have same : [c] = [symbol] := by
                rw [← chars_of_ofChar? punctuation, chars_of_ofChar? isToken]
              refine ⟨[], chars, by simpa using same, by simp [tokensFrom], ?_⟩
              rw [← isBack, lex, tokensFrom_token]
          | cons other others =>
              rw [List.cons_append, List.cons.injEq] at onward
              rcases onward with ⟨rfl, later⟩
              rcases ih later with ⟨before, behind, rfl, isFront, isBack⟩
              refine ⟨c :: before, behind, rfl, ?_, isBack⟩
              simp only [tokensFrom, punctuation, List.map_append, List.map_cons, isFront]

theorem exists_split_of_lex_eq {symbol : Char} {token : Token} {front back : List Token}
    (isToken : Token.ofChar? symbol = some token) (equal : lex chars = front ++ token :: back) :
    ∃ before behind,
      chars = before ++ symbol :: behind ∧ lex before = front ∧ lex behind = back :=
  exists_split_of_tokensFrom_eq isToken equal

/-- The tokens of a run that is a name. -/
theorem Names.lex {run : List Char} {name : String} (named : Names run name) :
    lex run = [.name name] := by
  rw [lex_run fun c member => ofChar?_eq_none_iff.mpr (named.plain c member), nameIn,
    named.trimmed]
  cases letters : name.toList with
  | nil => exact absurd (String.toList_eq_nil_iff.mp letters) named.nonempty
  | cons c rest => simp [← letters]

/-- Names come from runs of characters, each of them from one name. -/
theorem names_of_lex {name : String} (one : lex chars = [.name name]) : Names chars name := by
  rcases unpunctuated_or_split chars with plain | ⟨run, c, token, rest, _, isToken, rfl⟩
  · rw [lex_run plain, nameIn] at one
    split at one
    · contradiction
    · rename_i c rest trimmed
      have same : String.ofList (c :: rest) = name := by simpa using one
      have letters : name.toList = c :: rest := by rw [← same, String.toList_ofList]
      refine ⟨fun d member => ofChar?_eq_none_iff.mp (plain d member), ?_, ?_⟩
      · rw [letters, trimmed]
      · rintro rfl
        contradiction
  · -- The punctuation would be among the tokens.
    rw [lex_append_cons isToken] at one
    have member : token ∈ [Token.name name] := by simp [← one]
    exact absurd (List.mem_singleton.mp member) (ne_name_of_ofChar? isToken name)

/-- Only a blank text has no tokens. -/
theorem lex_eq_nil_iff : lex chars = [] ↔ Blank chars := by
  constructor
  · intro none
    rcases unpunctuated_or_split chars with plain | ⟨run, c, token, rest, _, isToken, rfl⟩
    · rw [lex_run plain, nameIn] at none
      split at none
      · rename_i trimmed
        exact trim_eq_nil_iff.mp trimmed
      · contradiction
    · rw [lex_append_cons isToken] at none
      simp at none
  · intro blank
    rw [lex_run (unpunctuated_of_blank blank), nameIn, trim_eq_nil_iff.mpr blank]
    rfl

/-! ## Blanks -/

/-- Blanks behind a text make no difference to its tokens. -/
theorem lex_append_blank {blanks : List Char} (blank : Blank blanks) (front : List Char) :
    lex (front ++ blanks) = lex front := by
  suffices general : ∀ run, (tokensFrom 0 run (front ++ blanks)).map Located.token =
      (tokensFrom 0 run front).map Located.token from general []
  induction front with
  | nil =>
      intro run
      have only := tokensFrom_append (unpunctuated_of_blank blank) 0 run []
      rw [List.append_nil] at only
      rw [List.nil_append, only, tokensFrom, tokensFrom, List.reverse_append, List.reverse_reverse]
      unfold nameIn
      rw [trim_append_blank blank]
      split <;> rfl
  | cons c front ih =>
      intro run
      rw [List.cons_append, tokensFrom, tokensFrom]
      cases Token.ofChar? c with
      | none => exact ih (c :: run)
      | some first =>
          simp only [List.map_append, List.map_cons]
          rw [tokensFrom_token _ 0, ih, tokensFrom_token 0]

/-- Blanks in front of a text make no difference to its tokens. -/
theorem lex_blank_append {blanks : List Char} (blank : Blank blanks) (back : List Char) :
    lex (blanks ++ back) = lex back := by
  have plainCase {run : List Char} (plain : Unpunctuated run) : lex (blanks ++ run) = lex run := by
    have both : Unpunctuated (blanks ++ run) := by
      intro c member
      rcases List.mem_append.mp member with front | back
      · exact unpunctuated_of_blank blank c front
      · exact plain c back
    rw [lex_run both, lex_run plain, nameIn, nameIn, trim_append_of_blank blank]
    split <;> rfl
  rcases unpunctuated_or_split back with plain | ⟨run, c, token, rest, plain, isToken, rfl⟩
  · exact plainCase plain
  · rw [← List.append_assoc, lex_append_cons isToken, lex_append_cons isToken, plainCase plain]

theorem lex_append_padded {symbol : Char} {token : Token}
    (isToken : Token.ofChar? symbol = some token) {padded : List Char}
    (around : Padded symbol padded) (front back : List Char) :
    lex (front ++ padded ++ back) = lex front ++ token :: lex back := by
  rcases around with ⟨before, behind, blankBefore, blankBehind, rfl⟩
  rw [← List.append_assoc, List.append_assoc, List.cons_append, lex_append_cons isToken,
    lex_append_blank blankBefore, lex_blank_append blankBehind]

/-! ## Derived texts -/

theorem spelling_cons {entry : String × Field} {others : List (String × Field)}
    (nonempty : others ≠ []) :
    spelling (entry :: others) = spelling [entry] ++ .comma :: spelling others := by
  cases others with
  | nil => exact absurd rfl nonempty
  | cons next others => rfl

mutual

/-- The tokens of a derived text spell its fields. -/
theorem DerivesFields.lex {chars : List Char} {written : List (String × Field)}
    (derives : DerivesFields chars written) : Selection.lex chars = spelling written := by
  cases derives with
  | none blank => exact lex_eq_nil_iff.mpr blank
  | one field => exact field.lex
  | more field separator fields =>
      rw [lex_append_padded rfl separator, field.lex, fields.lex,
        spelling_cons (List.cons_ne_nil _ _)]

/-- The tokens of the text of a field spell it. -/
theorem DerivesField.lex {chars : List Char} {entry : String × Field}
    (derives : DerivesField chars entry) : Selection.lex chars = spelling [entry] := by
  cases derives with
  | leaf named => exact named.lex
  | @group run colon opening inner closing name sub named colons opens fields closes =>
      have inside : Selection.lex (inner ++ closing) = spelling sub ++ [.closing] := by
        simpa [fields.lex] using lex_append_padded rfl closes inner []
      have opened : Selection.lex (opening ++ (inner ++ closing)) =
          .opening :: (spelling sub ++ [.closing]) := by
        simpa [inside] using lex_append_padded rfl opens [] (inner ++ closing)
      have whole := lex_append_padded rfl colons run (opening ++ (inner ++ closing))
      rw [named.lex, opened] at whole
      simpa [spelling, Field.spelling] using whole

end

theorem padded_cons (symbol : Char) {behind : List Char} (blank : Blank behind) :
    Padded symbol (symbol :: behind) :=
  ⟨[], behind, blank_nil, blank, rfl⟩

theorem padded_concat (symbol : Char) {before : List Char} (blank : Blank before) :
    Padded symbol (before ++ [symbol]) :=
  ⟨before, [], blank, blank_nil, rfl⟩

mutual

/-- A text whose tokens spell a field derives it. -/
theorem derivesField_of_lex {name : String} : (field : Field) → {chars : List Char} →
    lex chars = .name name :: field.spelling → DerivesField chars (name, field)
  | .leaf, chars, spelt => .leaf (names_of_lex spelt)
  | .group sub, chars, spelt => by
      have colon : Token.ofChar? ':' = some .colon := rfl
      have opening : Token.ofChar? '(' = some .opening := rfl
      have closing : Token.ofChar? ')' = some .closing := rfl
      have named : lex chars =
          [.name name] ++ .colon :: ([] ++ .opening :: (spelling sub ++ .closing :: [])) := by
        rw [spelt, Field.spelling]
        simp
      obtain ⟨run, rest, rfl, isName, opened⟩ := exists_split_of_lex_eq colon named
      obtain ⟨blanks, rest, rfl, blankBefore, inside⟩ := exists_split_of_lex_eq opening opened
      obtain ⟨inner, behind, rfl, isSub, blankBehind⟩ := exists_split_of_lex_eq closing inside
      have derived := DerivesField.group (names_of_lex isName) (padded_cons ':' blank_nil)
        (padded_concat '(' (lex_eq_nil_iff.mp blankBefore)) (derivesFields_of_lex sub isSub)
        (padded_cons ')' (lex_eq_nil_iff.mp blankBehind))
      simpa using derived
termination_by structural field => field

/-- A text whose tokens spell fields derives them. -/
theorem derivesFields_of_lex : (written : List (String × Field)) → {chars : List Char} →
    lex chars = spelling written → DerivesFields chars written
  | [], chars, spelt => .none (lex_eq_nil_iff.mp spelt)
  | [(name, field)], chars, spelt => .one (derivesField_of_lex field spelt)
  | (name, field) :: next :: others, chars, spelt => by
      have comma : Token.ofChar? ',' = some .comma := rfl
      obtain ⟨first, later, rfl, isFirst, areOthers⟩ := exists_split_of_lex_eq comma spelt
      have derived := DerivesFields.more (derivesField_of_lex field isFirst)
        (padded_cons ',' blank_nil) (derivesFields_of_lex (next :: others) areOthers)
      simpa using derived
termination_by structural written => written

end

theorem derivesFields_iff {written : List (String × Field)} :
    DerivesFields chars written ↔ lex chars = spelling written :=
  ⟨DerivesFields.lex, derivesFields_of_lex written⟩

end Folio.Selection
