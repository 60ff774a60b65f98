import Folio.Proofs.Json.Accepted
import Mathlib.Data.List.TakeWhile

/-!
# Brackets in what is read

A scan counts the brackets that are open and leaves those inside strings out of account.
Whatever the reader takes from the front of a text leaves the count as it was, and on the
way there no bracket is closed that was opened before.  So a value between brackets ends
with the first bracket that closes it, and no front of it is a value.
-/

namespace Folio.Json.Reader

/-! ## Scanning -/

/-- Where a scan is: outside of strings, inside of one, or there behind a backslash. -/
inductive Mode where
  | outside
  | inside
  | escaped
deriving DecidableEq, Repr

/-- The state of a scan: how many brackets are open, and where it is. -/
structure Scan where
  depth : Nat
  mode : Mode
deriving DecidableEq, Repr

/-- Scan a character.  Only a bracket that closes too much is not passed. -/
def Scan.step (state : Scan) (c : Char) : Option Scan :=
  match state.mode with
  | .inside =>
      some ⟨state.depth,
        if c = '"' then .outside else if c = '\\' then .escaped else .inside⟩
  | .escaped => some ⟨state.depth, .inside⟩
  | .outside =>
      if c = '"' then some ⟨state.depth, .inside⟩
      else if c = '[' ∨ c = '{' then some ⟨state.depth + 1, .outside⟩
      else if c = ']' ∨ c = '}' then
        if state.depth = 0 then none else some ⟨state.depth - 1, .outside⟩
      else some state

/-- Scan characters one after the other. -/
def Scan.through (state : Scan) (chars : List Char) : Option Scan := chars.foldlM Scan.step state

theorem Scan.through_append (state : Scan) (first second : List Char) :
    state.through (first ++ second) =
      (state.through first).bind fun next => next.through second :=
  List.foldlM_append

/-- Whether a scan of characters leads from one mode to another and leaves as many
brackets open as there were, however many that is. -/
def Scans (start finish : Mode) (chars : List Char) : Prop :=
  ∀ depth, (⟨depth, start⟩ : Scan).through chars = some ⟨depth, finish⟩

section Scans

variable {start middle finish : Mode} {first second : List Char}

theorem scans_nil (mode : Mode) : Scans mode mode [] := fun _ => rfl

theorem Scans.append (front : Scans start middle first) (back : Scans middle finish second) :
    Scans start finish (first ++ second) := by
  intro depth
  rw [Scan.through_append, front depth]
  exact back depth

/-- A bracket that is opened is closed behind what is between. -/
theorem Scans.between (inner : Scans .outside .outside first) {opening closing : Char}
    (opens : opening = '[' ∨ opening = '{') (closes : closing = ']' ∨ closing = '}') :
    Scans .outside .outside (opening :: first ++ [closing]) := by
  intro depth
  have opened : (⟨depth, .outside⟩ : Scan).through [opening] = some ⟨depth + 1, .outside⟩ := by
    rcases opens with rfl | rfl <;> rfl
  have closed : (⟨depth + 1, .outside⟩ : Scan).through [closing] = some ⟨depth, .outside⟩ := by
    rcases closes with rfl | rfl <;> rfl
  have split : opening :: first ++ [closing] = [opening] ++ (first ++ [closing]) := rfl
  rw [split, Scan.through_append, opened, Option.bind_some, Scan.through_append, inner,
    Option.bind_some, closed]

theorem Scans.not_append_closing (front : Scans .outside .outside first) :
    ¬ Scans .outside .outside (first ++ '}' :: second) := by
  intro whole
  have none := whole 0
  rw [Scan.through_append, front 0] at none
  contradiction

/-- The characters that a scan outside of strings takes notice of. -/
def marks : List Char := ['"', '[', ']', '{', '}']

/-- Outside of strings other characters do not count. -/
theorem scans_of_unmarked {chars : List Char} (unmarked : ∀ c ∈ chars, c ∉ marks) :
    Scans .outside .outside chars := by
  induction chars with
  | nil => exact scans_nil .outside
  | cons c rest ih =>
      rw [List.forall_mem_cons] at unmarked
      have single : Scans .outside .outside [c] := by
        intro depth
        have other : ∀ mark ∈ marks, c ≠ mark := fun mark member same =>
          unmarked.1 (same ▸ member)
        simp only [marks, List.forall_mem_cons] at other
        simp [Scan.through, Scan.step, other]
      exact single.append (ih unmarked.2)

end Scans

/-! ## Characters that are taken -/

/-- Whether the characters in front of a rest lead a scan from one mode to another. -/
def Took (start finish : Mode) (chars rest : List Char) : Prop :=
  ∃ front, chars = front ++ rest ∧ Scans start finish front

section Took

variable {start middle finish : Mode} {chars onward rest : List Char}

theorem Took.refl (mode : Mode) (chars : List Char) : Took mode mode chars chars :=
  ⟨[], rfl, scans_nil mode⟩

theorem Took.trans (first : Took start middle chars onward)
    (second : Took middle finish onward rest) : Took start finish chars rest := by
  rcases first with ⟨front, rfl, scanned⟩
  rcases second with ⟨more, rfl, later⟩
  exact ⟨front ++ more, (List.append_assoc _ _ _).symm, scanned.append later⟩

theorem took_cons {c : Char} (single : Scans start finish [c]) (rest : List Char) :
    Took start finish (c :: rest) rest :=
  ⟨[c], rfl, single⟩

theorem took_unmarked {c : Char} (unmarked : c ∉ marks) (rest : List Char) :
    Took .outside .outside (c :: rest) rest :=
  took_cons (scans_of_unmarked (by simpa using unmarked)) rest

/-- What is taken up to a closing bracket is taken with both brackets. -/
theorem Took.between {opening closing : Char}
    (inner : Took .outside .outside chars (closing :: rest))
    (opens : opening = '[' ∨ opening = '{') (closes : closing = ']' ∨ closing = '}') :
    Took .outside .outside (opening :: chars) rest := by
  rcases inner with ⟨front, rfl, scanned⟩
  exact ⟨opening :: front ++ [closing], by simp, scanned.between opens closes⟩

theorem took_dropWhile {taken : Char → Bool} (unmarked : marks.all (!taken ·) = true)
    (chars : List Char) : Took .outside .outside chars (chars.dropWhile taken) := by
  refine ⟨chars.takeWhile taken, List.takeWhile_append_dropWhile.symm, scans_of_unmarked ?_⟩
  intro c member mark
  have stays := List.all_eq_true.mp unmarked c mark
  rw [List.mem_takeWhile_imp member] at stays
  contradiction

theorem took_blanks (start : skipBlanks chars = onward) : Took .outside .outside chars onward :=
  start ▸ took_dropWhile (by decide) chars

theorem took_dropDigits (chars : List Char) :
    Took .outside .outside chars (chars.dropWhile Decimal.isDigit) :=
  took_dropWhile (by decide) chars

end Took

/-! ## Words and numbers -/

/-- Whether a reader leaves the brackets paired in what it takes. -/
def Balances {α : Type} (read : List Char → Attempt (Parsed α)) : Prop :=
  ∀ chars value rest, read chars = .ok (value, rest) → Took .outside .outside chars rest

theorem word_balances {α : Type} (value : α) {letters : List Char}
    (unmarked : ∀ letter ∈ letters, letter ∉ marks) : Balances (word value letters) := by
  induction letters with
  | nil =>
      intro chars found rest read
      cases read
      exact .refl .outside _
  | cons letter letters ih =>
      rw [List.forall_mem_cons] at unmarked
      intro chars found rest read
      cases chars with
      | nil => contradiction
      | cons c chars =>
          rw [word] at read
          split at read
          · rename_i same
            exact (took_unmarked (same ▸ unmarked.1) chars).trans (ih unmarked.2 _ _ _ read)
          · contradiction

theorem unmarked_of_isDigit {c : Char} (digit : Decimal.isDigit c = true) : c ∉ marks := by
  intro mark
  have none : marks.all (!Decimal.isDigit ·) = true := by decide
  have noDigit := List.all_eq_true.mp none c mark
  rw [digit] at noDigit
  contradiction

theorem wholeDigits_balances : Balances wholeDigits := by
  intro chars digits rest read
  cases chars with
  | nil => contradiction
  | cons c chars =>
      rw [wholeDigits] at read
      split at read
      · rename_i zero
        split at read
        · contradiction
        · cases read
          exact took_unmarked (by rw [zero]; decide) _
      · split at read
        · rename_i digit
          cases read
          exact (took_unmarked (unmarked_of_isDigit digit) chars).trans (took_dropDigits chars)
        · contradiction

theorem fractionDigits_balances : Balances fractionDigits := by
  intro chars digits rest read
  unfold fractionDigits at read
  split at read
  · split at read
    · split at read <;> contradiction
    · cases read
      exact (took_unmarked (by decide) _).trans (took_dropDigits _)
  · cases read
    exact .refl .outside _

theorem exponentPart_balances : Balances exponentPart := by
  intro chars exponent rest read
  cases chars with
  | nil =>
      cases read
      exact .refl .outside _
  | cons c chars =>
      rw [exponentPart] at read
      split at read
      · rename_i letter
        have unmarked : c ∉ marks := by rcases letter with rfl | rfl <;> decide
        have sign : Took .outside .outside chars (exponentSign chars).2 := by
          unfold exponentSign
          split
          · exact took_unmarked (by decide) _
          · exact took_unmarked (by decide) _
          · exact .refl .outside _
        refine (took_unmarked unmarked chars).trans (sign.trans ?_)
        dsimp only at read
        unfold exponentDigits at read
        split at read
        · contradiction
        · rename_i first others digits
          rw [digits]
          split at read
          · rename_i digit
            cases read
            exact (took_unmarked (unmarked_of_isDigit digit) _).trans (took_dropDigits _)
          · contradiction
      · cases read
        exact .refl .outside _

theorem literal_balances (negative : Bool) : Balances (literal negative) := by
  intro chars parts rest read
  rcases bind_eq_ok_iff.mp read with ⟨⟨whole, first⟩, wholeRead, read⟩
  rcases bind_eq_ok_iff.mp read with ⟨⟨fraction, second⟩, fractionRead, read⟩
  rcases bind_eq_ok_iff.mp read with ⟨⟨exponent, third⟩, exponentRead, same⟩
  cases same
  exact (wholeDigits_balances _ _ _ wholeRead).trans
    ((fractionDigits_balances _ _ _ fractionRead).trans
      (exponentPart_balances _ _ _ exponentRead))

theorem number_balances (care : Care) (negative : Bool) : Balances (number care negative) := by
  intro chars value rest read
  rcases bind_eq_ok_iff.mp read with ⟨⟨parts, onward⟩, inner, read⟩
  have taken := literal_balances negative _ _ _ inner
  cases care with
  | skim =>
      cases read
      exact taken
  | keep =>
      rcases bind_eq_ok_iff.mp read with ⟨number, _, same⟩
      cases same
      exact taken

/-! ## Strings -/

theorem took_inside {c : Char} (notQuote : c ≠ '"') (notBackslash : c ≠ '\\') (rest : List Char) :
    Took .inside .inside (c :: rest) rest := by
  refine took_cons (fun depth => ?_) rest
  simp [Scan.through, Scan.step, notQuote, notBackslash]

theorem took_hexDigit {c : Char} {value : Nat} (digit : Text.hexValue? c = some value)
    (rest : List Char) : Took .inside .inside (c :: rest) rest := by
  apply took_inside
  · rintro rfl
    contradiction
  · rintro rfl
    contradiction

theorem hexWord_took {chars rest : List Char} {value : Nat}
    (read : hexWord chars = .ok (value, rest)) :
    Took .inside .inside chars rest := by
  have fails {α : Type} (chars : List Char) (result : α) : failInHex chars ≠ .ok result := by
    unfold failInHex
    split <;> nofun
  unfold hexWord at read
  split at read
  · split at read
    · rename_i first second third fourth
      cases read
      exact (took_hexDigit first _).trans ((took_hexDigit second _).trans
        ((took_hexDigit third _).trans (took_hexDigit fourth _)))
    · exact absurd read (fails _ _)
  · exact absurd read (fails _ _)

theorem pairChar_eq {expected : Char} {chars rest : List Char}
    (read : pairChar expected chars = .ok rest) : chars = expected :: rest := by
  unfold pairChar at read
  split at read
  · contradiction
  · split at read
    · rename_i same
      cases read
      rw [same]
    · contradiction

theorem unicodeEscape_took {care : Care} {chars rest : List Char} {value : Char}
    (read : unicodeEscape care chars = .ok (value, rest)) : Took .inside .inside chars rest := by
  rcases bind_eq_ok_iff.mp read with ⟨⟨high, onward⟩, first, read⟩
  have taken := hexWord_took first
  cases care with
  | skim =>
      cases read
      exact taken
  | keep =>
      dsimp only at read
      split at read
      · contradiction
      split at read
      · cases read
        exact taken
      · -- A second escape follows.
        rcases bind_eq_ok_iff.mp read with ⟨behind, backslash, onwards⟩
        rcases bind_eq_ok_iff.mp onwards with ⟨digits, letter, onwards⟩
        rcases bind_eq_ok_iff.mp onwards with ⟨⟨low, last⟩, second, paired⟩
        cases pairChar_eq backslash
        cases pairChar_eq letter
        split at paired
        · contradiction
        · have left : last = rest := (Prod.mk.inj (Except.ok.inj paired)).2
          rw [← left]
          have opens : Took .inside .escaped ('\\' :: 'u' :: digits) ('u' :: digits) :=
            took_cons (fun _ => rfl) _
          have named : Took .escaped .inside ('u' :: digits) digits := took_cons (fun _ => rfl) _
          exact taken.trans (opens.trans (named.trans (hexWord_took second)))

theorem escape_took {care : Care} {chars rest : List Char} {value : Char}
    (read : escape care chars = .ok (value, rest)) : Took .escaped .inside chars rest := by
  cases chars with
  | nil => contradiction
  | cons c chars =>
      have letter : Took .escaped .inside (c :: chars) chars := took_cons (fun _ => rfl) chars
      rw [escape] at read
      iterate 6
        split at read
        · cases read
          exact letter
      split at read
      · exact letter.trans (unicodeEscape_took read)
      · contradiction

theorem stringChars_took {care : Care} {steps : Nat} {chars rest : List Char}
    {value : List Char} (read : stringChars care steps chars = .ok (value, rest)) :
    Took .inside .outside chars rest := by
  induction steps generalizing chars value with
  | zero => contradiction
  | succ steps ih =>
      cases chars with
      | nil => contradiction
      | cons c chars =>
          rw [stringChars] at read
          split at read
          · rename_i quote
            cases read
            cases quote
            exact took_cons (fun _ => rfl) _
          · rename_i notQuote
            split at read
            · rename_i backslash
              cases backslash
              rcases bind_eq_ok_iff.mp read with ⟨⟨first, onward⟩, escaped, read⟩
              rcases bind_eq_ok_iff.mp read with ⟨⟨others, behind⟩, more, same⟩
              cases same
              have opens : Took .inside .escaped ('\\' :: chars) chars := took_cons (fun _ => rfl) _
              exact opens.trans ((escape_took escaped).trans (ih more))
            · rename_i notBackslash
              split at read
              · contradiction
              · rcases bind_eq_ok_iff.mp read with ⟨⟨others, behind⟩, more, same⟩
                cases same
                exact (took_inside notQuote notBackslash chars).trans (ih more)

/-- A string is taken with both of its quotes. -/
theorem string_took {care : Care} {chars rest : List Char} {text : String}
    (read : string care chars = .ok (text, rest)) :
    Took .outside .outside ('"' :: chars) rest := by
  rcases bind_eq_ok_iff.mp read with ⟨⟨value, onward⟩, inner, same⟩
  cases same
  have opens : Took .outside .inside ('"' :: chars) chars := took_cons (fun _ => rfl) _
  exact opens.trans (stringChars_took inner)

/-! ## Arrays and objects -/

section Items

variable {α : Type} {item : List Char → Attempt (Parsed α)}

theorem moreItems_took (each : Balances item) {steps : Nat} {chars rest : List Char}
    {values : List α} (read : moreItems item steps chars = .ok (values, rest)) :
    Took .outside .outside chars (']' :: rest) := by
  induction steps generalizing chars values with
  | zero => contradiction
  | succ steps ih =>
      rw [moreItems] at read
      split at read
      · contradiction
      rename_i c behind start
      split at read
      · rename_i closing
        cases read
        exact closing ▸ took_blanks start
      split at read
      · rename_i comma
        have separated := (took_blanks start).trans (took_unmarked (by rw [comma]; decide) behind)
        split at read
        · contradiction
        · contradiction
        · rcases bind_eq_ok_iff.mp read with ⟨⟨value, onward⟩, first, read⟩
          rcases bind_eq_ok_iff.mp read with ⟨⟨others, last⟩, more, same⟩
          cases same
          have next := separated.trans (took_blanks rfl)
          exact next.trans ((each _ _ _ first).trans (ih more))
      · contradiction

theorem items_took (each : Balances item) {chars rest : List Char} {values : List α}
    (read : items item chars = .ok (values, rest)) :
    Took .outside .outside chars (']' :: rest) := by
  rw [items] at read
  split at read
  · contradiction
  · rename_i start
    cases read
    exact took_blanks start
  · rcases bind_eq_ok_iff.mp read with ⟨⟨value, onward⟩, first, read⟩
    rcases bind_eq_ok_iff.mp read with ⟨⟨others, behind⟩, more, same⟩
    cases same
    exact (took_blanks rfl).trans ((each _ _ _ first).trans (moreItems_took each more))

end Items

theorem colon_took {chars rest : List Char} (read : colon chars = .ok rest) :
    Took .outside .outside chars rest := by
  rw [colon] at read
  split at read
  · contradiction
  · rename_i start
    split at read
    · rename_i colon
      cases read
      exact (took_blanks start).trans (took_unmarked (by rw [colon]; decide) _)
    · contradiction

section Members

variable {α : Type} {value : String → List Char → Attempt (Parsed α)} {care : Care}

theorem namedMember_took (each : ∀ name, Balances (value name)) {chars rest : List Char}
    {entry : String × α} (read : namedMember care value chars = .ok (entry, rest)) :
    Took .outside .outside ('"' :: chars) rest := by
  rcases bind_eq_ok_iff.mp read with ⟨⟨name, first⟩, named, read⟩
  rcases bind_eq_ok_iff.mp read with ⟨second, parted, read⟩
  rcases bind_eq_ok_iff.mp read with ⟨⟨result, third⟩, inner, same⟩
  cases same
  exact (string_took named).trans ((colon_took parted).trans (each _ _ _ _ inner))

theorem moreMembers_took (each : ∀ name, Balances (value name)) {steps : Nat}
    {chars rest : List Char} {entries : List (String × α)}
    (read : moreMembers care value steps chars = .ok (entries, rest)) :
    Took .outside .outside chars ('}' :: rest) := by
  induction steps generalizing chars entries with
  | zero => contradiction
  | succ steps ih =>
      rw [moreMembers] at read
      split at read
      · contradiction
      rename_i c behind start
      split at read
      · rename_i closing
        cases read
        exact closing ▸ took_blanks start
      split at read
      · rename_i comma
        have separated := (took_blanks start).trans (took_unmarked (by rw [comma]; decide) behind)
        split at read
        · contradiction
        · rename_i quote
          have next := separated.trans (took_blanks quote)
          rcases bind_eq_ok_iff.mp read with ⟨⟨entry, onward⟩, first, read⟩
          rcases bind_eq_ok_iff.mp read with ⟨⟨others, last⟩, more, same⟩
          cases same
          exact next.trans ((namedMember_took each first).trans (ih more))
        · contradiction
        · contradiction
      · contradiction

theorem members_took (each : ∀ name, Balances (value name)) {chars rest : List Char}
    {entries : List (String × α)} (read : members care value chars = .ok (entries, rest)) :
    Took .outside .outside chars ('}' :: rest) := by
  rw [members] at read
  split at read
  · contradiction
  · rename_i start
    cases read
    exact took_blanks start
  · rename_i start
    rcases bind_eq_ok_iff.mp read with ⟨⟨entry, onward⟩, first, read⟩
    rcases bind_eq_ok_iff.mp read with ⟨⟨others, behind⟩, more, same⟩
    cases same
    have named := (took_blanks start).trans (namedMember_took each first)
    exact named.trans (moreMembers_took each more)
  · contradiction

end Members

/-! ## Values -/

theorem scalar_balances (care : Care) : Balances (scalar care) := by
  intro chars value rest read
  cases chars with
  | nil => contradiction
  | cons c chars =>
      have wordCase {letters : List Char} {found : Json} (letter : c ∉ marks)
          (letters_unmarked : ∀ letter ∈ letters, letter ∉ marks)
          (read : word found letters chars = .ok (value, rest)) :
          Took .outside .outside (c :: chars) rest :=
        (took_unmarked letter chars).trans (word_balances found letters_unmarked _ _ _ read)
      rw [scalar] at read
      split at read
      · rename_i letter
        exact wordCase (by rw [letter]; decide) (by simp [marks]) read
      split at read
      · rename_i letter
        exact wordCase (by rw [letter]; decide) (by simp [marks]) read
      split at read
      · rename_i letter
        exact wordCase (by rw [letter]; decide) (by simp [marks]) read
      split at read
      · rename_i sign
        exact (took_unmarked (by rw [sign]; decide) chars).trans
          (number_balances care true _ _ _ read)
      split at read
      · exact number_balances care false _ _ _ read
      split at read
      · rename_i quote
        rcases bind_eq_ok_iff.mp read with ⟨⟨text, onward⟩, inner, same⟩
        cases same
        exact quote ▸ string_took inner
      · contradiction

theorem embedding?_took {chars onward : List Char} (embeds : embedding? chars = some onward) :
    Took .outside .outside chars onward := by
  unfold embedding? at embeds
  split at embeds
  · rename_i start
    split at embeds
    · rename_i name
      split at embeds
      · cases embeds
        exact (took_blanks start).trans (string_took name)
      · contradiction
    · contradiction
  · contradiction

theorem embeddedText_balances : Balances embeddedText := by
  intro chars text rest read
  unfold embeddedText at read
  split at read
  · rename_i start
    exact (took_blanks start).trans (string_took read)
  · contradiction
  · contradiction
  · rcases bind_eq_ok_iff.mp read with ⟨_, _, refused⟩
    contradiction

theorem lastBrace_took {chars rest : List Char} (closed : lastBrace chars = .ok rest) :
    Took .outside .outside chars ('}' :: rest) := by
  unfold lastBrace at closed
  split at closed
  · contradiction
  · rename_i start
    split at closed
    · rename_i closing
      cases closed
      exact closing ▸ took_blanks start
    · split at closed <;> contradiction

theorem embedded_took {whole : String → Attempt Json} {chars onward rest : List Char}
    {value : Json} (embeds : embedding? chars = some onward)
    (read : embedded whole onward = .ok (value, rest)) :
    Took .outside .outside chars ('}' :: rest) := by
  rcases exists_of_embedded_eq_ok read with ⟨first, text, second, parted, quoted, _, closed⟩
  have named := (embedding?_took embeds).trans (colon_took parted)
  exact (named.trans (embeddedText_balances _ _ _ quoted)).trans (lastBrace_took closed)

theorem valueWith_balances (whole : String → Attempt Json) (care : Care) (levels : Nat) :
    Balances (valueWith whole care levels) := by
  induction levels with
  | zero =>
      intro chars value rest read
      rw [valueWith] at read
      split at read
      · contradiction
      · contradiction
      · exact (took_blanks rfl).trans (scalar_balances care _ _ _ read)
  | succ levels ih =>
      intro chars value rest read
      rw [valueWith] at read
      split at read
      · rename_i start
        rcases bind_eq_ok_iff.mp read with ⟨⟨values, onward⟩, inner, same⟩
        cases same
        have between := (items_took ih inner).between (.inl rfl) (.inl rfl)
        exact (took_blanks start).trans between
      · rename_i start
        split at read
        · rename_i embeds
          have between := (embedded_took embeds read).between (.inr rfl) (.inr rfl)
          exact (took_blanks start).trans between
        · rcases bind_eq_ok_iff.mp read with ⟨⟨entries, onward⟩, inner, same⟩
          cases same
          have between := (members_took (fun _ => ih) inner).between (.inr rfl) (.inr rfl)
          exact (took_blanks start).trans between
      · exact (took_blanks rfl).trans (scalar_balances care _ _ _ read)

theorem value_balances (care : Care) (levels : Nat) : Balances (value care levels) :=
  fun _ _ _ read => valueWith_balances _ care levels _ _ _ read

theorem skim_balances : Balances skim := by
  intro chars value rest read
  rcases bind_eq_ok_iff.mp read with ⟨⟨found, onward⟩, inner, same⟩
  cases same
  exact value_balances _ _ _ _ _ inner

end Folio.Json.Reader
