import Folio.Json.Printer
import Folio.Json.Reader

/-!
# Strings that are written and read

A string between quotes is read as the string that was written, whatever follows the
closing quote.  Nothing that is written between the quotes is a line feed.
-/

namespace Folio.Json

open Text

namespace Reader

/-! ## One character -/

theorem hexValue?_digitChar {value : Nat} (small : value < 16) :
    hexValue? (Nat.digitChar value) = some value := by
  have every : ∀ value < 16, hexValue? (Nat.digitChar value) = some value := by decide
  exact every value small

/-- The escape of a control character is read as that character. -/
theorem unicodeEscape_control {c : Char} (control : c.toNat < 0x20) (rest : List Char) :
    unicodeEscape .keep ('0' :: '0' :: hexDigit (c.toNat / 16) :: hexDigit c.toNat :: rest) =
      .ok (c, rest) := by
  have high : hexValue? (hexDigit (c.toNat / 16)) = some (c.toNat / 16) := by
    rw [hexDigit, Nat.mod_eq_of_lt (by omega)]
    exact hexValue?_digitChar (by omega)
  have low : hexValue? (hexDigit c.toNat) = some (c.toNat % 16) :=
    hexValue?_digitChar (Nat.mod_lt _ (by decide))
  have zero : hexValue? '0' = some 0 := by decide
  have word : hexWord ('0' :: '0' :: hexDigit (c.toNat / 16) :: hexDigit c.toNat :: rest) =
      .ok (c.toNat, rest) := by
    simp only [hexWord, zero, high, low]
    have whole : ((0 * 16 + 0) * 16 + c.toNat / 16) * 16 + c.toNat % 16 = c.toNat := by omega
    rw [whole]
  have below : ¬ (0xDC00 ≤ c.toNat ∧ c.toNat ≤ 0xDFFF) := by omega
  have single : c.toNat < 0xD800 ∨ 0xDBFF < c.toNat := by omega
  simp only [unicodeEscape, word, bind, Except.bind, if_neg below, if_pos single,
    Char.ofNat_toNat]
  rfl

/-- A character that is written inside a string is read back in one step. -/
theorem stringChars_escapeChar (c : Char) (steps : Nat) (rest : List Char) :
    stringChars .keep (steps + 1) (escapeChar c ++ rest) =
      (stringChars .keep steps rest).map fun parsed => (c :: parsed.1, parsed.2) := by
  have onward {escaped : List Char}
      (read : escape .keep (escaped ++ rest) = .ok (c, rest)) :
      stringChars .keep (steps + 1) ('\\' :: escaped ++ rest) =
        (stringChars .keep steps rest).map fun parsed => (c :: parsed.1, parsed.2) := by
    rw [List.cons_append, stringChars, if_neg (by decide), if_pos rfl, read]
    simp only [bind, Except.bind]
    cases stringChars .keep steps rest <;> rfl
  unfold escapeChar
  -- The seven characters that have an escape of their own.
  iterate 7
    split
    · rename_i equal
      subst equal
      exact onward rfl
  split
  · rename_i control
    exact onward (unicodeEscape_control control rest)
  · rename_i notQuote notBackslash _ _ _ _ _ notControl
    rw [List.singleton_append, stringChars, if_neg notQuote, if_neg notBackslash,
      if_neg notControl]
    cases stringChars .keep steps rest <;> rfl

/-! ## Whole strings -/

theorem stringChars_escaped (value : List Char) {steps : Nat} (enough : value.length < steps)
    (rest : List Char) :
    stringChars .keep steps (value.flatMap escapeChar ++ '"' :: rest) = .ok (value, rest) := by
  induction value generalizing steps with
  | nil =>
      obtain ⟨fewer, rfl⟩ := Nat.exists_eq_add_one_of_ne_zero (Nat.ne_zero_of_lt enough)
      rfl
  | cons c value ih =>
      obtain ⟨fewer, rfl⟩ := Nat.exists_eq_add_one_of_ne_zero (Nat.ne_zero_of_lt enough)
      rw [List.flatMap_cons, List.append_assoc, stringChars_escapeChar,
        ih (Nat.lt_of_succ_lt_succ enough)]
      rfl

theorem escapeChar_ne_nil (c : Char) : escapeChar c ≠ [] := by
  unfold escapeChar
  repeat' split
  all_goals exact List.cons_ne_nil _ _

/-- A list is no longer than what its elements are written as, if each is written as
something. -/
theorem length_le_length_flatMap {α β : Type} {write : α → List β} (nonempty : ∀ a, write a ≠ [])
    (elements : List α) : elements.length ≤ (elements.flatMap write).length := by
  induction elements with
  | nil => exact Nat.le_refl 0
  | cons element elements ih =>
      have some := List.length_pos_iff.mpr (nonempty element)
      simp only [List.flatMap_cons, List.length_append, List.length_cons]
      omega

/-- A string is written between quotes. -/
theorem quote_append (value : String) (rest : List Char) :
    quote value ++ rest = '"' :: (value.toList.flatMap escapeChar ++ '"' :: rest) := by
  simp [quote]

/-- A string is read as it was written. -/
theorem string_quote (value : String) (rest : List Char) :
    string .keep (value.toList.flatMap escapeChar ++ '"' :: rest) = .ok (value, rest) := by
  have long := length_le_length_flatMap escapeChar_ne_nil value.toList
  have enough : value.toList.length <
      (value.toList.flatMap escapeChar ++ '"' :: rest).length + 1 := by
    simp only [List.length_append, List.length_cons]
    omega
  rw [string, stringChars_escaped value.toList enough]
  simp only [bind, Except.bind, String.ofList_toList]
  rfl

end Reader

/-! ## Line feeds -/

theorem lineFeed_not_mem_escapeChar (c : Char) : '\n' ∉ escapeChar c := by
  have digit (value : Nat) : hexDigit value ≠ '\n' := by
    have every : ∀ value < 16, Nat.digitChar value ≠ '\n' := by decide
    exact every _ (Nat.mod_lt _ (Nat.succ_pos 15))
  unfold escapeChar
  iterate 7
    split
    · decide
  rename_i notLineFeed _ _
  split
  · simp [(digit (c.toNat / 16)).symm, (digit c.toNat).symm]
  · simpa using Ne.symm notLineFeed

/-- No string is written with a line feed. -/
theorem lineFeed_not_mem_quote (value : String) : '\n' ∉ quote value := by
  simp only [quote, List.cons_append, List.mem_cons, List.mem_append, List.mem_flatMap,
    List.not_mem_nil, or_false, not_or, not_exists, not_and]
  constructor
  · decide
  · constructor
    · intro c _
      exact lineFeed_not_mem_escapeChar c
    · decide

end Folio.Json
