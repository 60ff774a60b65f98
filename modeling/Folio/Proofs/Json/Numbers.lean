import Folio.Proofs.Json.Numerals

/-!
# What numbers are read back as

The text of every number is a numeral, so that a reader takes all of it, whatever follows,
and the number that it makes of it depends on the text alone.
-/

namespace Folio

open Decimal Json.Reader

/-! ## The text of a number -/

namespace Number

/-- Whether characters are a numeral with its sign. -/
def IsNumeral (chars : List Char) : Prop :=
  ∃ parts : Literal, parts.Spelt ∧ chars = (if parts.negative then ['-'] else []) ++ parts.spelling

theorem isDigit_of_mem_naturalText {n : Nat} {c : Char} (member : c ∈ naturalText n) :
    isDigit c = true :=
  isDigit_of_mem_toDigits member

theorem isDigit_of_mem_significantDigits {n : Nat} {c : Char} (member : c ∈ significantDigits n) :
    isDigit c = true := by
  have inside := (List.dropWhile_suffix _).subset (List.mem_reverse.mp member)
  exact isDigit_of_mem_naturalText (List.mem_reverse.mp inside)

theorem isDigit_of_mem_replicate {n : Nat} {c : Char} (member : c ∈ List.replicate n '0') :
    isDigit c = true := by
  rw [List.eq_of_mem_replicate member]
  decide

theorem exponentText_eq (exponent : Int) :
    exponentText standard exponent =
      exponentChars (some (decide (exponent < 0), naturalText exponent.natAbs)) := by
  unfold exponentText exponentChars
  by_cases below : exponent < 0 <;> simp [below, standard]

theorem isDigit_zero : isDigit '0' = true := by
  decide

theorem spelt_singleton {digit : Char} (isDigit_digit : isDigit digit = true) (negative : Bool) :
    Literal.Spelt ⟨negative, [digit], none, none⟩ :=
  .digits (List.cons_ne_nil _ _) (by simpa using isDigit_digit)

theorem spelt_naturalText (n : Nat) (negative : Bool) :
    Literal.Spelt ⟨negative, naturalText n, none, none⟩ :=
  .digits Nat.toDigits_ne_nil fun _ => isDigit_of_mem_naturalText

/-- Digits with an exponent behind them are a numeral. -/
theorem exists_spelt_exponent (digits : List Char) (negative : Bool) (exponent : Int) :
    (∀ c ∈ digits, isDigit c = true) →
      ∃ parts : Literal, parts.Spelt ∧ parts.negative = negative ∧
        (match digits with
          | [] => ['0']
          | [single] => [single]
          | first :: rest => first :: '.' :: rest) ++ exponentText standard exponent =
            parts.spelling := by
  intro all
  have exponentDigits : ∀ c ∈ naturalText exponent.natAbs, isDigit c = true :=
    fun _ => isDigit_of_mem_naturalText
  rw [exponentText_eq]
  cases digits with
  | nil =>
      exact ⟨_, (spelt_singleton isDigit_zero negative).withExponent _ exponentDigits, rfl, rfl⟩
  | cons first rest =>
      rw [List.forall_mem_cons] at all
      have single := spelt_singleton all.1 negative
      cases rest with
      | nil => exact ⟨_, single.withExponent _ exponentDigits, rfl, rfl⟩
      | cons second rest =>
          refine ⟨_, (single.withFraction all.2).withExponent (decide (exponent < 0))
            exponentDigits, rfl, ?_⟩
          simp [Literal.spelling, fractionChars]

section Place

variable {digits : List Char} (all : ∀ c ∈ digits, isDigit c = true) (negative : Bool)
include all

theorem exists_spelt_fraction (zeros : Nat) :
    ∃ parts : Literal, parts.Spelt ∧ parts.negative = negative ∧
      '0' :: '.' :: List.replicate zeros '0' ++ digits = parts.spelling := by
  have behind : ∀ c ∈ List.replicate zeros '0' ++ digits, isDigit c = true :=
    List.forall_mem_append.mpr ⟨fun _ => isDigit_of_mem_replicate, all⟩
  refine ⟨_, (spelt_singleton isDigit_zero negative).withFraction behind, rfl, ?_⟩
  simp [Literal.spelling, fractionChars, exponentChars]

/-- Digits with a point behind some of them, which zeros fill up, are a numeral. -/
theorem exists_spelt_point {point : Nat} (above : 0 < point) :
    ∃ parts : Literal, parts.Spelt ∧ parts.negative = negative ∧
      digits.take point ++ List.replicate (point - (digits.take point).length) '0' ++
          '.' :: (if (digits.drop point).isEmpty then ['0'] else digits.drop point) =
        parts.spelling := by
  have whole : ∀ c ∈ digits.take point ++
      List.replicate (point - (digits.take point).length) '0', isDigit c = true :=
    List.forall_mem_append.mpr ⟨fun c member => all c (List.mem_of_mem_take member),
      fun _ => isDigit_of_mem_replicate⟩
  have nonempty : digits.take point ++
      List.replicate (point - (digits.take point).length) '0' ≠ [] := by
    rw [← List.length_pos_iff, List.length_append, List.length_replicate]
    omega
  have behind : ∀ c ∈ (if (digits.drop point).isEmpty then ['0'] else digits.drop point),
      isDigit c = true := by
    split
    · simpa using isDigit_zero
    · exact fun c member => all c (List.mem_of_mem_drop member)
  have spelt : Literal.Spelt ⟨negative, _, none, none⟩ := .digits nonempty whole
  refine ⟨_, spelt.withFraction behind, rfl, ?_⟩
  simp [Literal.spelling, fractionChars, exponentChars]

theorem exists_spelt_place (point : Int) :
    ∃ parts : Literal, parts.Spelt ∧ parts.negative = negative ∧
      place standard digits point = parts.spelling := by
  unfold place
  split
  · exact exists_spelt_exponent digits negative (point - 1) all
  split
  · exact exists_spelt_fraction all negative point.natAbs
  · rename_i above
    exact exists_spelt_point all negative (by omega)

end Place

/-- The text of every number is a numeral. -/
theorem isNumeral_chars (number : Number) : IsNumeral number.chars := by
  cases number with
  | integer value =>
      cases value with
      | ofNat n =>
          refine ⟨_, spelt_naturalText n false, ?_⟩
          simp [chars, integerText, Literal.spelling, fractionChars, exponentChars]
      | negSucc n =>
          refine ⟨_, spelt_naturalText (n + 1) true, ?_⟩
          simp [chars, integerText, Literal.spelling, fractionChars, exponentChars]
  | float negative magnitude =>
      have placed : ∃ parts : Literal, parts.Spelt ∧ parts.negative = negative ∧
          magnitudeText standard magnitude = parts.spelling := by
        unfold magnitudeText
        split
        · have tenths : ∀ c ∈ ['0'], isDigit c = true := by simpa using isDigit_zero
          exact ⟨_, (spelt_singleton isDigit_zero negative).withFraction tenths, rfl, rfl⟩
        · exact exists_spelt_place (fun _ => isDigit_of_mem_significantDigits) negative _
      rcases placed with ⟨parts, spelt, rfl, text⟩
      exact ⟨parts, spelt, by rw [chars, text]⟩

/-- The text of a number holds no line feed. -/
theorem lineFeed_not_mem_chars (number : Number) : '\n' ∉ number.chars := by
  rcases isNumeral_chars number with ⟨parts, spelt, text⟩
  have noDigit {digits : List Char} (all : ∀ c ∈ digits, isDigit c = true) : '\n' ∉ digits := by
    intro member
    exact absurd (all _ member) (by decide)
  have whole := noDigit spelt.whole
  have fraction : '\n' ∉ fractionChars parts.fraction := by
    cases present : parts.fraction with
    | none => simp [fractionChars]
    | some digits => simpa [fractionChars] using noDigit (spelt.fraction digits present)
  have exponent : '\n' ∉ exponentChars parts.exponent := by
    cases present : parts.exponent with
    | none => simp [exponentChars]
    | some signed =>
        have digits := noDigit (spelt.exponent signed present)
        rcases signed with ⟨negative, _⟩
        cases negative <;> simpa [exponentChars] using digits
  rw [text, Literal.spelling]
  cases parts.negative <;> simp [whole, fraction, exponent]

/-! ## Reading a number -/

/-- What a literal stands for, if it stands for a number, does not depend on what
follows it. -/
theorem value_toOption (parts : Literal) (rest other : List Char) :
    (parts.value rest).toOption = (parts.value other).toOption := by
  rcases value_cases parts with ⟨number, _, worth⟩ | failed
  · rw [worth, worth]
  · rcases failed rest with ⟨first, here⟩
    rcases failed other with ⟨second, there⟩
    rw [here, there]
    rfl

/-- What the text of a number is read as. -/
def reread? (number : Number) : Option Number :=
  match (scalar .keep number.chars).toOption with
  | some (.number value, []) => some value
  | _ => none

theorem number_toOption {parts : Literal} (spelt : parts.Spelt) {rest : List Char}
    (delimited : Delimited rest) :
    (Json.Reader.number .keep parts.negative (parts.spelling ++ rest)).toOption =
      if parts.Readable then (parts.value []).toOption.map fun value => (.number value, rest)
      else none := by
  rw [Json.Reader.number, toOption_bind, literal_toOption spelt delimited]
  split
  · rw [Option.bind_some, toOption_bind, value_toOption parts rest []]
    cases (parts.value []).toOption <;> rfl
  · rfl

/-- A numeral is read as a number or not at all. -/
theorem scalar_toOption {parts : Literal} (spelt : parts.Spelt) {rest : List Char}
    (delimited : Delimited rest) :
    (scalar .keep ((if parts.negative then ['-'] else []) ++ parts.spelling ++ rest)).toOption =
      if parts.Readable then (parts.value []).toOption.map fun value => (.number value, rest)
      else none := by
  have behindSign := number_toOption spelt delimited
  cases sign : parts.negative with
  | true =>
      rw [sign] at behindSign
      exact behindSign
  | false =>
      rw [sign] at behindSign
      -- Without a sign a numeral starts with a digit, which starts nothing else.
      have front : ∃ c digits, parts.spelling ++ rest = c :: digits ∧ isDigit c = true := by
        cases whole : parts.whole with
        | nil => exact absurd whole spelt.nonempty
        | cons c digits =>
            have digit := spelt.whole c (by simp [whole])
            exact ⟨c, _, by simp [Literal.spelling, whole]; rfl, digit⟩
      rcases front with ⟨c, digits, text, digit⟩
      have apart {other : Char} (noDigit : isDigit other = false) : c ≠ other := by
        rintro rfl
        rw [noDigit] at digit
        contradiction
      rw [text] at behindSign
      rw [if_neg Bool.false_ne_true, List.nil_append, text, scalar, if_neg (apart (by decide)),
        if_neg (apart (by decide)), if_neg (apart (by decide)), if_neg (apart (by decide)),
        if_pos digit]
      exact behindSign

/-- What becomes of a number that is written and read does not depend on what follows
it. -/
theorem scalar_chars (number : Number) {rest : List Char} (delimited : Delimited rest) :
    (scalar .keep (number.chars ++ rest)).toOption =
      number.reread?.map fun value => (.number value, rest) := by
  rcases isNumeral_chars number with ⟨parts, spelt, text⟩
  have alone := scalar_toOption spelt delimited_nil
  rw [List.append_nil, ← text] at alone
  rw [reread?, alone, text, scalar_toOption spelt delimited]
  split
  · cases (parts.value []).toOption <;> rfl
  · rfl

end Number

end Folio
