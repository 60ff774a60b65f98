import Folio.Proofs.Text.Utf8
import Folio.Text.Percent

/-!
# Decoding percent signs

Decoding leaves bytes as they are unless something is escaped in them, and makes them
fewer then.  So a front of a text that is decoded to the whole text is all of it.
-/

namespace Folio.Text

/-- Decoding never gives more bytes. -/
theorem length_percentDecode_le (bytes : List UInt8) :
    (percentDecode bytes).length ≤ bytes.length := by
  fun_induction percentDecode bytes with
  | case1 high low rest byte _ ih =>
      simp only [List.length_cons]
      omega
  | case2 high low rest _ ih =>
      simp only [List.length_cons] at ih ⊢
      omega
  | case3 byte rest _ ih =>
      simp only [List.length_cons]
      omega
  | case4 => exact Nat.le_refl 0

/-- Whether a percent sign with two hexadecimal digits stands somewhere in bytes. -/
def Escaped (bytes : List UInt8) : Prop :=
  ∃ front high low rest, bytes = front ++ 0x25 :: high :: low :: rest ∧
    (hexByte? high low).isSome

/-- An escape stands in front or behind the first byte. -/
theorem escaped_cons_iff {byte : UInt8} {rest : List UInt8} :
    Escaped (byte :: rest) ↔
      (∃ high low behind, byte = 0x25 ∧ rest = high :: low :: behind ∧
        (hexByte? high low).isSome) ∨ Escaped rest := by
  constructor
  · rintro ⟨front, high, low, behind, bytes, escape⟩
    cases front with
    | nil =>
        cases bytes
        exact .inl ⟨high, low, behind, rfl, rfl, escape⟩
    | cons first front =>
        cases bytes
        exact .inr ⟨front, high, low, behind, rfl, escape⟩
  · rintro (⟨high, low, behind, rfl, rfl, escape⟩ | ⟨front, high, low, behind, rfl, escape⟩)
    · exact ⟨[], high, low, behind, rfl, escape⟩
    · exact ⟨byte :: front, high, low, behind, rfl, escape⟩

/-- Decoding shortens bytes with an escape. -/
theorem length_percentDecode_lt {bytes : List UInt8} (escaped : Escaped bytes) :
    (percentDecode bytes).length < bytes.length := by
  fun_induction percentDecode bytes with
  | case1 high low rest byte _ _ =>
      have short := length_percentDecode_le rest
      simp only [List.length_cons]
      omega
  | case2 high low rest none ih =>
      rcases escaped_cons_iff.mp escaped with ⟨_, _, _, _, bytes, escape⟩ | later
      · cases bytes
        simp [none] at escape
      · exact Nat.succ_lt_succ (ih later)
  | case3 byte rest other ih =>
      rcases escaped_cons_iff.mp escaped with ⟨high, low, behind, rfl, rfl, _⟩ | later
      · exact absurd rfl (other high low behind rfl)
      · exact Nat.succ_lt_succ (ih later)
  | case4 =>
      rcases escaped with ⟨front, _, _, _, bytes, _⟩
      simp at bytes

/-- Decoding leaves bytes as they are exactly when nothing is escaped in them. -/
theorem percentDecode_eq_self_iff {bytes : List UInt8} :
    percentDecode bytes = bytes ↔ ¬ Escaped bytes := by
  constructor
  · intro same escaped
    have shorter := length_percentDecode_lt escaped
    rw [same] at shorter
    exact Nat.lt_irrefl _ shorter
  · intro plain
    fun_induction percentDecode bytes with
    | case1 high low rest byte found _ =>
        exact absurd ⟨[], high, low, rest, rfl, by rw [found]; rfl⟩ plain
    | case2 high low rest _ ih => rw [ih fun later => plain (escaped_cons_iff.mpr (.inr later))]
    | case3 byte rest _ ih => rw [ih fun later => plain (escaped_cons_iff.mpr (.inr later))]
    | case4 => rfl

theorem eq_of_percentDecode {part rest : String}
    (decoded : percentDecode (bytesOf part) = bytesOf (part ++ rest)) : rest = "" := by
  have short := length_percentDecode_le (bytesOf part)
  rw [decoded, bytesOf_append, List.length_append] at short
  have none : bytesOf rest = [] := List.length_eq_zero_iff.mp (by omega)
  have same := ofBytes?_bytesOf rest
  rw [none] at same
  exact (Option.some.inj (same.symm.trans (ofBytes?_bytesOf "")))

end Folio.Text
