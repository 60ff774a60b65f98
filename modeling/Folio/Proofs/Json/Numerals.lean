import Folio.Json.Printer
import Folio.Proofs.Attempt
import Folio.Proofs.Decimal.Digits
import Folio.Proofs.Json.Values

/-!
# Numerals that are written and read

The text of a number is a numeral: digits, possibly a point and more digits, possibly
an exponent.  In front of a character that no numeral contains, a numeral is read as a
whole or not at all, so that what becomes of a number does not depend on where it
stands.  A literal that stands for an integer stands for one in range.
-/

namespace Folio.Json.Reader

open Decimal Text

/-! ## Numerals -/

/-- The characters of the digits behind the point, with the point. -/
def fractionChars : Option (List Char) → List Char
  | some digits => '.' :: digits
  | none => []

/-- The characters of an exponent with its letter and sign. -/
def exponentChars : Option (Bool × List Char) → List Char
  | some (negative, digits) => 'e' :: (if negative then '-' else '+') :: digits
  | none => []

/-- The characters of a numeral behind its sign. -/
def Literal.spelling (parts : Literal) : List Char :=
  parts.whole ++ fractionChars parts.fraction ++ exponentChars parts.exponent

/-- Whether a numeral is made of digits, with at least one before the point. -/
structure Literal.Spelt (parts : Literal) : Prop where
  nonempty : parts.whole ≠ []
  whole : ∀ c ∈ parts.whole, isDigit c = true
  fraction : ∀ digits ∈ parts.fraction, ∀ c ∈ digits, isDigit c = true
  exponent : ∀ exponent ∈ parts.exponent, ∀ c ∈ exponent.2, isDigit c = true

/-- Digits alone are a numeral. -/
theorem Literal.Spelt.digits {negative : Bool} {whole : List Char} (nonempty : whole ≠ [])
    (all : ∀ c ∈ whole, isDigit c = true) : Spelt ⟨negative, whole, none, none⟩ where
  nonempty := nonempty
  whole := all
  fraction _ absent := by contradiction
  exponent _ absent := by contradiction

/-- A numeral may have digits behind its point. -/
theorem Literal.Spelt.withFraction {parts : Literal} (spelt : parts.Spelt) {digits : List Char}
    (all : ∀ c ∈ digits, isDigit c = true) : Spelt { parts with fraction := some digits } where
  nonempty := spelt.nonempty
  whole := spelt.whole
  fraction _ present := Option.some.inj present ▸ all
  exponent := spelt.exponent

/-- A numeral may have an exponent. -/
theorem Literal.Spelt.withExponent {parts : Literal} (spelt : parts.Spelt) (negative : Bool)
    {digits : List Char} (all : ∀ c ∈ digits, isDigit c = true) :
    Spelt { parts with exponent := some (negative, digits) } where
  nonempty := spelt.nonempty
  whole := spelt.whole
  fraction := spelt.fraction
  exponent _ present := Option.some.inj present ▸ all

/-- Whether a numeral is one that can be read: no zero in front of other digits, and at
least one digit wherever digits belong. -/
def Literal.Readable (parts : Literal) : Prop :=
  (parts.whole.head? = some '0' → parts.whole = ['0']) ∧ parts.fraction ≠ some [] ∧
    parts.exponent.map Prod.snd ≠ some []

instance (parts : Literal) : Decidable parts.Readable :=
  inferInstanceAs (Decidable (_ ∧ _ ∧ _))

/-- Whether a text cannot go on with a numeral. -/
def Delimited (rest : List Char) : Prop :=
  ∀ c ∈ rest.head?, isDigit c = false ∧ c ∉ ['.', 'e', 'E']

theorem delimited_nil : Delimited [] := by
  simp [Delimited]

/-! ## Digits -/

section Digits

variable {digits rest : List Char}

/-- A run of digits ends in front of anything else. -/
theorem takeWhile_digits (all : ∀ c ∈ digits, isDigit c = true)
    (ends : ∀ c ∈ rest.head?, isDigit c = false) :
    (digits ++ rest).takeWhile isDigit = digits ∧ (digits ++ rest).dropWhile isDigit = rest := by
  induction digits with
  | nil =>
      cases rest with
      | nil => exact ⟨rfl, rfl⟩
      | cons c rest =>
          have other := ends c rfl
          simp [other]
  | cons c digits ih =>
      rw [List.forall_mem_cons] at all
      rcases ih all.2 with ⟨taken, left⟩
      rw [List.cons_append, List.takeWhile_cons, List.dropWhile_cons, if_pos all.1, if_pos all.1,
        taken, left]
      exact ⟨rfl, rfl⟩

/-- Digits before the point are read unless they start with a needless zero. -/
theorem wholeDigits_toOption (nonempty : digits ≠ []) (all : ∀ c ∈ digits, isDigit c = true)
    (ends : ∀ c ∈ rest.head?, isDigit c = false) :
    (wholeDigits (digits ++ rest)).toOption =
      if digits.head? = some '0' → digits = ['0'] then some (digits, rest) else none := by
  cases digits with
  | nil => exact absurd rfl nonempty
  | cons c digits =>
      rw [List.forall_mem_cons] at all
      rw [List.cons_append, wholeDigits]
      by_cases zero : c = '0'
      · subst zero
        rw [if_pos rfl]
        cases digits with
        | nil =>
            have stops : rest.head?.any isDigit = false := by
              cases rest with
              | nil => rfl
              | cons next rest => exact ends next rfl
            simp [stops, Except.toOption]
        | cons next digits =>
            have digit : isDigit next = true := all.2 next List.mem_cons_self
            simp [digit, failAt, Except.toOption]
      · rcases takeWhile_digits all.2 ends with ⟨taken, left⟩
        rw [if_neg zero, if_pos all.1, taken, left]
        simp [zero, Except.toOption]

/-- Digits behind a point are read if there are any, and none without a point. -/
theorem fractionDigits_toOption {fraction : Option (List Char)}
    (all : ∀ digits ∈ fraction, ∀ c ∈ digits, isDigit c = true)
    (ends : ∀ c ∈ rest.head?, isDigit c = false ∧ c ≠ '.') :
    (fractionDigits (fractionChars fraction ++ rest)).toOption =
      if fraction ≠ some [] then some (fraction, rest) else none := by
  cases fraction with
  | none =>
      rw [fractionChars, List.nil_append]
      unfold fractionDigits
      split
      · exact absurd rfl (ends '.' rfl).2
      · rfl
  | some digits =>
      obtain ⟨taken, left⟩ := takeWhile_digits (all digits rfl) fun c head => (ends c head).1
      rw [fractionChars, List.cons_append]
      cases digits with
      | nil =>
          simp only [fractionDigits, taken]
          cases rest <;> rfl
      | cons c digits =>
          simp only [fractionDigits, taken, left]
          rfl

/-- The digits of an exponent are read if there are any, and none without its letter. -/
theorem exponentPart_toOption {exponent : Option (Bool × List Char)}
    (all : ∀ parts ∈ exponent, ∀ c ∈ parts.2, isDigit c = true) (delimited : Delimited rest) :
    (exponentPart (exponentChars exponent ++ rest)).toOption =
      if exponent.map Prod.snd ≠ some [] then some (exponent, rest) else none := by
  cases exponent with
  | none =>
      rw [exponentChars, List.nil_append]
      cases rest with
      | nil => rfl
      | cons c rest =>
          have other := (delimited c rfl).2
          have noLetter : ¬ (c = 'e' ∨ c = 'E') := by
            rintro (rfl | rfl) <;> simp at other
          rw [exponentPart, if_neg noLetter]
          rfl
  | some parts =>
      rcases parts with ⟨negative, digits⟩
      have sign : exponentSign ((if negative then '-' else '+') :: (digits ++ rest)) =
          (negative, digits ++ rest) := by
        cases negative <;> rfl
      rw [exponentChars, List.cons_append, List.cons_append, exponentPart, if_pos (.inl rfl), sign]
      cases digits with
      | nil =>
          cases rest with
          | nil => rfl
          | cons c rest =>
              have other := (delimited c rfl).1
              simp [exponentDigits, other, failAt, Except.toOption]
      | cons c digits =>
          have digit := all _ rfl
          rw [List.forall_mem_cons] at digit
          obtain ⟨taken, left⟩ := takeWhile_digits digit.2 fun next head => (delimited next head).1
          simp only [List.cons_append, exponentDigits, if_pos digit.1, taken, left]
          rfl

end Digits

/-! ## Whole numerals -/

theorem head?_exponentChars {rest : List Char} (delimited : Delimited rest)
    (exponent : Option (Bool × List Char)) :
    ∀ c ∈ (exponentChars exponent ++ rest).head?, isDigit c = false ∧ c ≠ '.' := by
  intro c head
  cases exponent with
  | none =>
      rcases delimited c head with ⟨other, absent⟩
      exact ⟨other, fun point => absent (by simp [point])⟩
  | some parts =>
      cases head
      constructor <;> decide

theorem head?_fractionChars {rest : List Char}
    (ends : ∀ c ∈ rest.head?, isDigit c = false ∧ c ≠ '.') (fraction : Option (List Char)) :
    ∀ c ∈ (fractionChars fraction ++ rest).head?, isDigit c = false := by
  intro c head
  cases fraction with
  | none => exact (ends c head).1
  | some digits =>
      cases head
      decide

/-- A numeral is read as a whole or not at all. -/
theorem literal_toOption {parts : Literal} (spelt : parts.Spelt) {rest : List Char}
    (delimited : Delimited rest) :
    (literal parts.negative (parts.spelling ++ rest)).toOption =
      if parts.Readable then some (parts, rest) else none := by
  have behindFraction := head?_exponentChars delimited parts.exponent
  have behindWhole := head?_fractionChars behindFraction parts.fraction
  have split : parts.spelling ++ rest = parts.whole ++
      (fractionChars parts.fraction ++ (exponentChars parts.exponent ++ rest)) := by
    simp [Literal.spelling]
  rw [split, literal, toOption_bind, wholeDigits_toOption spelt.nonempty spelt.whole behindWhole]
  simp only [toOption_bind]
  by_cases whole : parts.whole.head? = some '0' → parts.whole = ['0']
  · rw [if_pos whole, Option.bind_some, fractionDigits_toOption spelt.fraction behindFraction]
    by_cases fraction : parts.fraction ≠ some []
    · rw [if_pos fraction, Option.bind_some, exponentPart_toOption spelt.exponent delimited]
      by_cases exponent : parts.exponent.map Prod.snd ≠ some []
      · have readable : parts.Readable := ⟨whole, fraction, exponent⟩
        rw [if_pos exponent, if_pos readable]
        rfl
      · have unreadable : ¬ parts.Readable := fun readable => exponent readable.2.2
        rw [if_neg exponent, if_neg unreadable]
        rfl
    · have unreadable : ¬ parts.Readable := fun readable => fraction readable.2.1
      rw [if_neg fraction, if_neg unreadable]
      rfl
  · have unreadable : ¬ parts.Readable := fun readable => whole readable.1
    rw [if_neg whole, if_neg unreadable]
    rfl

/-! ## Values of literals -/

theorem significand_le (parts : Literal) : parts.significand.1 ≤ maxSignificand :=
  absorb_le (absorb_le (Nat.zero_le _) _) _

/-- What a magnitude is rounded to is in range, or there is no such number anywhere. -/
theorem rounded_cases (negative : Bool) (magnitude? : Option Binary64) :
    (∃ number : Number, number.InRange ∧ ∀ rest : List Char,
      (match magnitude? with
        | some magnitude => (.ok (.float negative magnitude) : Attempt Number)
        | none => failBefore .numberOutOfRange rest) = .ok number) ∨
    ∀ rest : List Char, ∃ error : SyntaxError,
      (match magnitude? with
        | some magnitude => (.ok (.float negative magnitude) : Attempt Number)
        | none => failBefore .numberOutOfRange rest) = .error error := by
  cases magnitude? with
  | none => exact .inr fun _ => ⟨_, rfl⟩
  | some magnitude => exact .inl ⟨.float negative magnitude, trivial, fun _ => rfl⟩

/-- A literal stands for the same number in range wherever it stands, or for none
anywhere. -/
theorem value_cases (parts : Literal) :
    (∃ number : Number, number.InRange ∧ ∀ rest, parts.value rest = .ok number) ∨
      ∀ rest, ∃ error, parts.value rest = .error error := by
  have small := significand_le parts
  -- The roundings are named apart from what they are: nothing is to be computed here.
  obtain ⟨round, round_eq⟩ : ∃ round, round = Binary64.ofLiteral := ⟨_, rfl⟩
  obtain ⟨overflow, overflow_eq⟩ : ∃ overflow, overflow = exponentOverflow 0 := ⟨_, rfl⟩
  obtain ⟨bound, bound_eq⟩ : ∃ bound, bound = twoTo 63 := ⟨_, rfl⟩
  obtain ⟨significant, significant_eq⟩ : ∃ significant, significant = parts.significand :=
    ⟨_, rfl⟩
  unfold Literal.value
  rw [← round_eq, ← overflow_eq, ← bound_eq, ← significant_eq]
  rw [← significant_eq] at small
  dsimp only
  split
  case h_1 =>
    split
    · split
      · exact .inr fun _ => ⟨_, rfl⟩
      · exact .inl ⟨.float parts.negative _, trivial, fun _ => rfl⟩
    · exact rounded_cases _ _
  case h_2 => exact rounded_cases _ _
  case h_3 =>
    split
    · exact rounded_cases _ _
    split
    · refine .inl ⟨.integer significant.1, ?_, fun _ => rfl⟩
      rw [Number.InRange]
      omega
    split
    · exact rounded_cases _ _
    · rename_i near
      rw [bound_eq] at near
      refine .inl ⟨.integer (-significant.1), ?_, fun _ => rfl⟩
      rw [Number.InRange]
      omega

end Folio.Json.Reader
