import Folio.Decimal.Literal

/-!
# Numbers in decimal

The decimal digits of a number read back as the number, and what a reader absorbs of digits
stays in range.
-/

namespace Folio.Decimal

theorem isDigit_of_mem_toDigits {n : Nat} {c : Char} (member : c ∈ Nat.toDigits 10 n) :
    isDigit c = true := by
  have digit := Nat.isDigit_of_mem_toDigits (by decide) (by decide) member
  simpa [isDigit, Char.isDigit, Char.le_def] using digit

theorem all_isDigit_toDigits (n : Nat) : (Nat.toDigits 10 n).all isDigit = true :=
  List.all_eq_true.mpr fun _ => isDigit_of_mem_toDigits

theorem not_mem_toDigits {c : Char} (other : isDigit c = false) (n : Nat) :
    c ∉ Nat.toDigits 10 n := by
  intro member
  rw [isDigit_of_mem_toDigits member] at other
  contradiction

theorem foldl_toDigits (n : Nat) :
    (Nat.toDigits 10 n).foldl (fun value digit => value * 10 + digitValue digit) 0 = n := by
  have read := Nat.ofDigitChars_ten_toDigits (n := n)
  rw [Nat.ofDigitChars_eq_foldl] at read
  simpa only [Nat.mul_comm 10, digitValue] using read

theorem toDigits_injective {first second : Nat}
    (same : Nat.toDigits 10 first = Nat.toDigits 10 second) : first = second := by
  rw [← foldl_toDigits first, same, foldl_toDigits]

/-- What is absorbed stays in range. -/
theorem absorb_le {significand : Nat} (small : significand ≤ maxSignificand) (digits : List Char) :
    (absorb significand digits).1 ≤ maxSignificand := by
  induction digits generalizing significand with
  | nil => exact small
  | cons digit rest ih =>
      rw [absorb]
      split
      · rename_i fits
        exact ih fits
      · exact small

end Folio.Decimal
