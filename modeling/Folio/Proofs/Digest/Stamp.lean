import Folio.Digest.Blake3

/-!
# The form of a stamp

Whatever a digest is taken of, a stamp is made of eight lower-case hexadecimal
digits.
-/

namespace Folio.Digest

/-- The sixteen hexadecimal digits in lower case. -/
def hexDigits : List Char := "0123456789abcdef".toList

/-- Whether a text is made of eight hexadecimal digits in lower case. -/
def IsStamp (text : String) : Prop :=
  text.toList.length = 8 ∧ ∀ c ∈ text.toList, c ∈ hexDigits

theorem digitChar_mem_hexDigits {value : Nat} (small : value < 16) :
    Nat.digitChar value ∈ hexDigits := by
  have every : ∀ value < 16, Nat.digitChar value ∈ hexDigits := by decide
  exact every value small

theorem mem_hexDigits_of_mem_byteHex {byte : UInt8} {c : Char} (member : c ∈ byteHex byte) :
    c ∈ hexDigits := by
  have bound : byte.toNat < 256 := byte.toNat_lt
  simp only [byteHex, List.mem_cons, List.not_mem_nil, or_false] at member
  rcases member with rfl | rfl
  · exact digitChar_mem_hexDigits (by omega)
  · exact digitChar_mem_hexDigits (by omega)

theorem mem_hexDigits_of_mem_blake3Hex {bytes : List UInt8} {c : Char}
    (member : c ∈ blake3Hex bytes) : c ∈ hexDigits := by
  rcases List.mem_flatMap.mp member with ⟨word, _, digit⟩
  simp only [wordHex, List.mem_append] at digit
  rcases digit with ((digit | digit) | digit) | digit
  all_goals exact mem_hexDigits_of_mem_byteHex digit

theorem isStamp_stamp (text : String) : IsStamp (stamp text) := by
  constructor
  · simp [stamp, length_blake3Hex]
  · intro c member
    rw [stamp, String.toList_ofList] at member
    exact mem_hexDigits_of_mem_blake3Hex (List.mem_of_mem_take member)

end Folio.Digest
