import Folio.Proofs.Selection.Derivations
import Mathlib.Data.List.Chain

/-!
# The layout of tokens

The tokens of a text stand in it one after the other, each of them at the byte that it
remembers, with nothing but blanks in front of them, between them and behind them.  No
name stands beside another one.  These two facts determine the tokens, so that nothing of
a text but blanks is lost when it falls apart.
-/

namespace Folio.Selection

open Text

variable {start : Nat} {run chars gap blanks ending back : List Char} {name : String}
  {found : Located} {located before behind : List Located}

/-- Whether tokens stand in characters that start at a byte, each of them at the byte that it
remembers, with nothing but blanks in front of them, between them and behind them. -/
inductive LaidOut : Nat → List Located → List Char → Prop
  | done {start : Nat} {blanks : List Char} (blank : Blank blanks) : LaidOut start [] blanks
  | token {start : Nat} {gap back : List Char} {found : Located} {behind : List Located}
      (blank : Blank gap) (place : found.offset = start + width gap)
      (onward : LaidOut (found.offset + width found.token.chars) behind back) :
      LaidOut start (found :: behind) (gap ++ found.token.chars ++ back)

/-- Whether two tokens are not both names. -/
def Apart (first second : Located) : Prop :=
  ∀ name other, first.token = .name name → second.token ≠ .name other

/-- Whether every name among tokens is one that can be expressed. -/
def Nameable (located : List Located) : Prop :=
  ∀ found ∈ located, ∀ name, found.token = .name name → IsName name

/-! ## One token -/

theorem name_or_punctuation (token : Token) :
    (∃ name, token = .name name) ∨
      ∃ c, Token.ofChar? c = some token ∧ token.chars = [c] := by
  cases token with
  | name name => exact .inl ⟨name, rfl⟩
  | comma => exact .inr ⟨',', rfl, rfl⟩
  | colon => exact .inr ⟨':', rfl, rfl⟩
  | opening => exact .inr ⟨'(', rfl, rfl⟩
  | closing => exact .inr ⟨')', rfl, rfl⟩

theorem width_chars_pos {token : Token} (isName : ∀ name, token = .name name → IsName name) :
    0 < width token.chars := by
  rcases name_or_punctuation token with ⟨name, rfl⟩ | ⟨c, -, single⟩
  · have nonempty := (isName_iff.mp (isName name rfl)).1
    rcases List.exists_cons_of_ne_nil nonempty with ⟨c, rest, letters⟩
    rw [Token.chars, letters, width_cons]
    exact Nat.add_pos_left c.utf8Size_pos _
  · rw [single, width_cons]
    exact Nat.add_pos_left c.utf8Size_pos _

theorem takeWhile_isBlank_name (isName : IsName name) (rest : List Char) :
    (name.toList ++ rest).takeWhile isBlank = [] := by
  rcases isName_iff.mp isName with ⟨nonempty, trimmed, -⟩
  rcases List.exists_cons_of_ne_nil nonempty with ⟨c, letters, spelt⟩
  have kept : trimStart name.toList = name.toList := by
    rw [← trimmed]
    exact trimStart_trimEnd_trimStart name.toList
  have solid := head?_trimStart_not_blank name.toList
  rw [kept, spelt, List.head?_cons, Option.any_some] at solid
  rw [spelt, List.cons_append, List.takeWhile_cons, solid]
  rfl

/-! ## Runs -/

/-- A run is blank, or it is a name between blanks. -/
theorem nameIn_cases (start : Nat) (run : List Char) :
    Blank run ∧ nameIn start run = [] ∨
      ∃ gap name blanks, Blank gap ∧ Blank blanks ∧ run = gap ++ name.toList ++ blanks ∧
        nameIn start run = [⟨.name name, start + width gap⟩] := by
  unfold nameIn
  split
  · rename_i nothing
    exact .inl ⟨trim_eq_nil_iff.mp nothing, rfl⟩
  · rename_i c rest trimmed
    rcases exists_eq_append_trim run with ⟨blanks, blank, whole⟩
    refine .inr ⟨run.takeWhile isBlank, String.ofList (c :: rest), blanks, blank_takeWhile run,
      blank, ?_, rfl⟩
    rw [String.toList_ofList, ← trimmed]
    exact whole

theorem tokensFrom_run (plain : Unpunctuated run) (ends : Ends ending) (start : Nat) :
    tokensFrom start [] (run ++ ending) =
      nameIn start run ++ tokensFrom (start + width run) [] ending := by
  rw [tokensFrom_append plain, List.append_nil]
  cases ending with
  | nil => simp [tokensFrom, nameIn]
  | cons c rest =>
      rcases Option.isSome_iff_exists.mp (ends c rfl) with ⟨token, isToken⟩
      simp [tokensFrom, isToken, nameIn]

theorem nameIn_padded (isName : IsName name) (blankBefore : Blank gap) (blankBehind : Blank blanks)
    (start : Nat) :
    nameIn start (gap ++ name.toList ++ blanks) = [⟨.name name, start + width gap⟩] := by
  rcases isName_iff.mp isName with ⟨nonempty, trimmed, -⟩
  rcases List.exists_cons_of_ne_nil nonempty with ⟨c, letters, spelt⟩
  have whole : trim (gap ++ name.toList ++ blanks) = c :: letters := by
    rw [trim_append_blank blankBehind, trim_append_of_blank blankBefore, trimmed, spelt]
  have inFront : (gap ++ name.toList ++ blanks).takeWhile isBlank = gap := by
    rw [List.append_assoc, List.takeWhile_append_of_pos blankBefore,
      takeWhile_isBlank_name isName, List.append_nil]
  rw [nameIn, whole]
  simp only [inFront, ← spelt, String.ofList_toList]

theorem nameIn_blank (blank : Blank blanks) (start : Nat) : nameIn start blanks = [] := by
  rw [nameIn, trim_eq_nil_iff.mpr blank]

/-! ## The tokens of a text are laid out in it -/

/-- A token may follow behind a run. -/
theorem laidOut_nameIn_append (place : found.offset = start + width run)
    (onward : LaidOut (found.offset + width found.token.chars) behind back) :
    LaidOut start (nameIn start run ++ found :: behind) (run ++ found.token.chars ++ back) := by
  rcases nameIn_cases start run with
    ⟨blank, none⟩ | ⟨gap, name, blanks, blankBefore, blankBehind, rfl, one⟩
  · rw [none]
    exact .token blank place onward
  · have place : found.offset = start + width gap + width name.toList + width blanks := by
      rw [place, width_append, width_append, ← Nat.add_assoc, ← Nat.add_assoc]
    have named : LaidOut start (⟨.name name, start + width gap⟩ :: found :: behind)
        (gap ++ name.toList ++ (blanks ++ found.token.chars ++ back)) :=
      .token blankBefore rfl (.token blankBehind place onward)
    rw [one]
    simpa using named

/-- The tokens of a run and of what follows are laid out in them. -/
theorem laidOut_tokensFrom (start : Nat) (run chars : List Char) :
    LaidOut start (tokensFrom start run chars) (run.reverse ++ chars) := by
  induction chars generalizing start run with
  | nil =>
      rw [tokensFrom, List.append_nil]
      rcases nameIn_cases start run.reverse with
        ⟨blank, none⟩ | ⟨gap, name, blanks, blankBefore, blankBehind, whole, one⟩
      · rw [none]
        exact .done blank
      · rw [one, whole]
        exact .token blankBefore rfl (.done blankBehind)
  | cons c rest ih =>
      rw [tokensFrom]
      cases punctuation : Token.ofChar? c with
      | none => simpa using ih start (c :: run)
      | some token =>
          let here : Located := ⟨token, start + width run⟩
          have single : here.token.chars = [c] := chars_of_ofChar? punctuation
          have place : here.offset = start + width run.reverse := by rw [width_reverse]
          have onward : LaidOut (here.offset + width here.token.chars)
              (tokensFrom (here.offset + c.utf8Size) [] rest) rest := by
            rw [single, width_cons, width_nil, Nat.add_zero]
            exact ih _ []
          have whole := laidOut_nameIn_append place onward
          rw [single, List.append_assoc, List.singleton_append] at whole
          exact whole

theorem isChain_nameIn (start : Nat) (run : List Char) : (nameIn start run).IsChain Apart := by
  rcases nameIn_cases start run with ⟨-, none⟩ | ⟨gap, name, blanks, -, -, -, one⟩
  · rw [none]
    exact .nil
  · rw [one]
    exact .singleton _

/-- No two neighbours among the tokens of a text are names. -/
theorem isChain_tokensFrom (start : Nat) (run chars : List Char) :
    (tokensFrom start run chars).IsChain Apart := by
  induction chars generalizing start run with
  | nil => exact isChain_nameIn start run.reverse
  | cons c rest ih =>
      rw [tokensFrom]
      cases punctuation : Token.ofChar? c with
      | none => exact ih start (c :: run)
      | some token =>
          have apart := ne_name_of_ofChar? punctuation
          rw [List.isChain_append, List.isChain_cons]
          refine ⟨isChain_nameIn start run.reverse, ⟨?_, ih _ []⟩, ?_⟩
          · intro second _ name _ isName
            exact absurd isName (apart name)
          · intro first _ second isHead name other _
            cases isHead
            exact apart other

/-! ## Nothing else is laid out in a text -/

theorem LaidOut.exists_ends (laid : LaidOut start behind back)
    (noName : ∀ found ∈ behind.head?, ∀ name, found.token ≠ .name name) :
    ∃ blanks ending, Blank blanks ∧ Ends ending ∧ back = blanks ++ ending := by
  cases laid with
  | done blank => exact ⟨back, [], blank, ends_nil, (List.append_nil back).symm⟩
  | @token _ gap back found behind blank place onward =>
      rcases name_or_punctuation found.token with ⟨name, isName⟩ | ⟨c, isToken, single⟩
      · exact absurd isName (noName found rfl name)
      · refine ⟨gap, c :: back, blank, ends_cons (by simp [isToken]) back, ?_⟩
        simp [single]

theorem tokensFrom_blank (blank : Blank blanks) (ends : Ends ending) (start : Nat) :
    tokensFrom start [] (blanks ++ ending) = tokensFrom (start + width blanks) [] ending := by
  rw [tokensFrom_run (unpunctuated_of_blank blank) ends, nameIn_blank blank, List.nil_append]

/-- A name and the blanks in front of it are taken off where it ends behind blanks. -/
theorem tokensFrom_name (isName : IsName name) (blank : Blank gap) (blankBehind : Blank blanks)
    (ends : Ends ending) (start : Nat) :
    tokensFrom start [] (gap ++ name.toList ++ (blanks ++ ending)) =
      ⟨.name name, start + width gap⟩ ::
        tokensFrom (start + width gap + width name.toList) [] (blanks ++ ending) := by
  have plain : Unpunctuated (gap ++ name.toList ++ blanks) := by
    intro c member
    rcases List.mem_append.mp member with front | behind
    · rcases List.mem_append.mp front with inGap | inName
      · exact unpunctuated_of_blank blank c inGap
      · exact (isName_iff.mp isName).2.2 c inName
    · exact unpunctuated_of_blank blankBehind c behind
  rw [← List.append_assoc, tokensFrom_run plain ends, nameIn_padded isName blank blankBehind,
    tokensFrom_blank blankBehind ends, width_append, width_append, ← Nat.add_assoc, ← Nat.add_assoc]
  rfl

theorem tokensFrom_punctuation {c : Char} {token : Token} (isToken : Token.ofChar? c = some token)
    (start : Nat) (back : List Char) :
    tokensFrom start [] (c :: back) =
      ⟨token, start⟩ :: tokensFrom (start + c.utf8Size) [] back := by
  simp [tokensFrom, isToken, nameIn]

/-- Tokens that are laid out in a text, without neighbours that are names, are its tokens. -/
theorem tokensFrom_of_laidOut (laid : LaidOut start located chars) (nameable : Nameable located)
    (apart : located.IsChain Apart) : tokensFrom start [] chars = located := by
  induction laid with
  | @done start blanks blank =>
      rw [← List.append_nil blanks, tokensFrom_blank blank ends_nil]
      rfl
  | @token start gap back found behind blank place onward ih =>
      rcases found with ⟨token, offset⟩
      obtain rfl : offset = start + width gap := place
      rcases List.forall_mem_cons.mp nameable with ⟨isName, nameableBehind⟩
      rw [List.isChain_cons] at apart
      have later := ih nameableBehind apart.2
      rcases name_or_punctuation token with ⟨name, rfl⟩ | ⟨c, isToken, single⟩
      · -- What follows a name is no name, so the name ends there.
        have noName : ∀ next ∈ behind.head?, ∀ other, next.token ≠ .name other :=
          fun next isNext other => apart.1 next isNext name other rfl
        rcases onward.exists_ends noName with ⟨blanks, ending, blankBehind, ends, rfl⟩
        rw [Token.chars] at later ⊢
        rw [tokensFrom_name (isName name rfl) blank blankBehind ends, later]
      · have ends : Ends (c :: back) := ends_cons (by simp [isToken]) back
        rw [single, width_cons, width_nil, Nat.add_zero] at later
        rw [single, List.append_assoc, List.singleton_append, tokensFrom_blank blank ends,
          tokensFrom_punctuation isToken, later]

/-! ## Where each token stands -/

/-- Tokens that are laid out can be taken apart at each of them. -/
theorem exists_of_laidOut_append (laid : LaidOut start (before ++ found :: behind) chars) :
    ∃ front back, chars = front ++ found.token.chars ++ back ∧
      found.offset = start + width front ∧ LaidOut start before front ∧
      LaidOut (found.offset + width found.token.chars) behind back := by
  induction before generalizing start chars with
  | nil =>
      cases laid with
      | @token _ gap back _ _ blank place onward =>
          exact ⟨gap, back, rfl, place, .done blank, onward⟩
  | cons first before ih =>
      cases laid with
      | @token _ gap back _ _ blank place onward =>
          rcases ih onward with ⟨front, last, rfl, placeInside, earlier, later⟩
          refine ⟨gap ++ first.token.chars ++ front, last, by simp, ?_, .token blank place earlier,
            later⟩
          rw [placeInside, place, width_append, width_append, ← Nat.add_assoc, ← Nat.add_assoc]

theorem LaidOut.le_offset (laid : LaidOut start located chars) (member : found ∈ located) :
    start ≤ found.offset := by
  rcases List.append_of_mem member with ⟨before, behind, rfl⟩
  rcases exists_of_laidOut_append laid with ⟨front, back, -, place, -⟩
  rw [place]
  exact Nat.le_add_right start (width front)

/-- Tokens that are laid out stand at increasing bytes. -/
theorem LaidOut.ascending (laid : LaidOut start located chars) (nameable : Nameable located) :
    located.Pairwise fun first second => first.offset < second.offset := by
  induction laid with
  | done blank => exact .nil
  | @token start gap back found behind blank place onward ih =>
      rcases List.forall_mem_cons.mp nameable with ⟨isName, nameableBehind⟩
      apply List.Pairwise.cons _ (ih nameableBehind)
      intro second member
      calc found.offset < found.offset + width found.token.chars :=
            Nat.lt_add_of_pos_right (width_chars_pos isName)
        _ ≤ second.offset := onward.le_offset member

/-! ## The tokens of a text -/

theorem laidOut_tokens (text : String) : LaidOut 0 (tokens text) text.toList :=
  laidOut_tokensFrom 0 [] text.toList

theorem nameable_tokens (text : String) : Nameable (tokens text) :=
  fun _ member _ isText => isName_of_mem_tokensFrom (by simp) member isText

theorem lex_of_laidOut (laid : LaidOut start located chars) (nameable : Nameable located)
    (apart : located.IsChain Apart) : lex chars = located.map Located.token := by
  rw [lex, tokensFrom_token 0 start, tokensFrom_of_laidOut laid nameable apart]

/-- Every token of a text stands in it where it says, between the tokens before it and the
tokens after it. -/
theorem exists_of_tokens_eq {text : String} (isWhole : tokens text = before ++ found :: behind) :
    ∃ front back, text.toList = front ++ found.token.chars ++ back ∧ width front = found.offset ∧
      lex front = before.map Located.token ∧ lex back = behind.map Located.token := by
  have laid := laidOut_tokens text
  have nameable := nameable_tokens text
  have apart := isChain_tokensFrom 0 [] text.toList
  rw [← tokens, isWhole] at apart
  rw [isWhole] at laid nameable
  rcases exists_of_laidOut_append laid with ⟨front, back, whole, place, earlier, later⟩
  rcases List.forall_mem_append.mp nameable with ⟨nameableBefore, nameableThence⟩
  rcases List.isChain_append.mp apart with ⟨apartBefore, apartThence, -⟩
  refine ⟨front, back, whole, ?_, lex_of_laidOut earlier nameableBefore apartBefore, ?_⟩
  · rw [place, Nat.zero_add]
  · exact lex_of_laidOut later (List.forall_mem_cons.mp nameableThence).2 apartThence.tail

/-- What the tokens of a text are: they stand at increasing bytes, the text at each of these
bytes is the token's own, nothing but blanks stands in front of them, between them and behind
them, the names are neither empty nor padded nor punctuated, and no two neighbours are names. -/
structure Tokenizes (located : List Located) (text : String) : Prop where
  ascending : located.Pairwise fun first second => first.offset < second.offset
  standing : ∀ found ∈ located, ∃ front back,
    text.toList = front ++ found.token.chars ++ back ∧ width front = found.offset
  laidOut : LaidOut 0 located text.toList
  named : ∀ found ∈ located, ∀ name, found.token = .name name →
    name ≠ "" ∧ trim name.toList = name.toList ∧ ∀ c ∈ name.toList, c ∉ [',', ':', '(', ')']
  apart : located.IsChain Apart

/-- The tokens of a text are the only ones that lose nothing of it. -/
theorem tokens_eq_iff_tokenizes {text : String} :
    tokens text = located ↔ Tokenizes located text := by
  have named (located : List Located) : Nameable located ↔ ∀ found ∈ located, ∀ name,
      found.token = .name name → name ≠ "" ∧ trim name.toList = name.toList ∧
        ∀ c ∈ name.toList, c ∉ [',', ':', '(', ')'] := by
    simp only [Nameable, isName_iff, ofChar?_eq_none_iff, ne_eq, String.toList_eq_nil_iff]
  constructor
  · rintro rfl
    have laid := laidOut_tokens text
    have nameable := nameable_tokens text
    refine ⟨laid.ascending nameable, ?_, laid, (named _).mp nameable,
      isChain_tokensFrom 0 [] text.toList⟩
    intro found member
    rcases List.append_of_mem member with ⟨before, behind, isWhole⟩
    rcases exists_of_tokens_eq isWhole with ⟨front, back, whole, place, -⟩
    exact ⟨front, back, whole, place⟩
  · intro tokenizes
    exact tokensFrom_of_laidOut tokenizes.laidOut ((named _).mpr tokenizes.named) tokenizes.apart

end Folio.Selection
