import Folio.Proofs.Json.Reread

/-!
# The first member of an object

The text of an object that starts with a string member tells the name and the string of
that member: whatever object has the same text starts with it too.
-/

namespace Folio.Json

open Reader

/-- A quoted text ends where its quotes say. -/
theorem quote_append_inj {first second : String} {rest more : List Char}
    (same : quote first ++ rest = quote second ++ more) : first = second ∧ rest = more := by
  rw [quote_append, quote_append] at same
  have read := string_quote first rest
  rw [(List.cons.inj same).2, string_quote second more] at read
  cases read
  exact ⟨rfl, rfl⟩

theorem number_chars_ne {number : Number} {c : Char} (others : startsNumber c = false)
    (rest more : List Char) : number.chars ++ rest ≠ c :: more := by
  rcases exists_number_chars number with ⟨first, tail, chars, starts⟩
  rw [chars]
  intro same
  exact ne_of_startsNumber starts others (List.cons.inj same).1

theorem eq_string_of_chars {value : Json} {text : String} {rest more : List Char}
    (same : value.chars ++ rest = quote text ++ more) : value = .string text := by
  cases value with
  | string other => rw [(quote_append_inj same).1]
  | number number => exact absurd same (number_chars_ne (by decide) _ _)
  | null => cases same
  | bool truth => cases truth <;> cases same
  | array items => cases same
  | object members => cases same

theorem exists_object_of_chars {value : Json} {rest : List Char}
    (same : value.chars = '{' :: rest) : ∃ members, value = .object members := by
  cases value with
  | object members => exact ⟨members, rfl⟩
  | number number =>
      rw [← List.append_nil (Json.chars _)] at same
      exact absurd same (number_chars_ne (by decide) _ _)
  | null => cases same
  | bool truth => cases truth <;> cases same
  | string text => cases same
  | array items => cases same

/-- An object with the text of an object that starts with a string member starts with
that member. -/
theorem exists_first_of_text_eq {value : Json} {name text : String}
    {members : List (String × Json)}
    (same : value.text = (Json.object ((name, .string text) :: members)).text) :
    ∃ others, value = .object ((name, .string text) :: others) := by
  have chars : value.chars = '{' :: (quote name ++ ':' :: (quote text ++
      (charsMoreMembers members ++ ['}']))) := by
    have inner := congrArg String.toList same
    simpa [Json.text, Json.chars, charsMembers_cons, charsMember] using inner
  rcases exists_object_of_chars chars with ⟨entries, rfl⟩
  cases entries with
  | nil => cases chars
  | cons entry others =>
      rcases entry with ⟨other, value⟩
      have inner : quote other ++ ':' :: (value.chars ++ (charsMoreMembers others ++ ['}'])) =
          quote name ++ ':' :: (quote text ++ (charsMoreMembers members ++ ['}'])) := by
        simpa [Json.chars, charsMembers_cons, charsMember] using chars
      rcases quote_append_inj inner with ⟨rfl, behind⟩
      rw [eq_string_of_chars (List.cons.inj behind).2]
      exact ⟨others, rfl⟩

end Folio.Json
