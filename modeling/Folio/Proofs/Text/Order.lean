import Folio.Proofs.Text.Utf8
import Mathlib.Tactic.SplitIfs

/-!
# The order of texts

Texts are ordered by their code points.  Their bytes are in the same order: of two
characters the one with the smaller code point has the smaller byte where their bytes
first differ, also when one takes more bytes than the other.
-/

namespace Folio.Text

theorem bytesOf_eq_flatMap (text : String) :
    bytesOf text = text.toList.flatMap String.utf8EncodeChar := by
  rw [bytesOf, String.toUTF8, ← String.utf8Encode_toList, List.utf8Encode]
  simp

theorem ofNat_cons_lt_iff {low high : Nat} (lowBound : low < 256) (highBound : high < 256)
    {rest others : List UInt8} :
    UInt8.ofNat low :: rest < UInt8.ofNat high :: others ↔
      low < high ∨ low = high ∧ rest < others := by
  rw [List.cons_lt_cons_iff, UInt8.lt_iff_toNat_lt, ← UInt8.toNat_inj,
    UInt8.toNat_ofNat_of_lt' lowBound, UInt8.toNat_ofNat_of_lt' highBound]

/-- Where two characters differ first, the one with the smaller code point has the smaller
byte. -/
theorem utf8EncodeChar_append_lt {first second : Char} (below : first < second)
    (rest others : List UInt8) :
    String.utf8EncodeChar first ++ rest < String.utf8EncodeChar second ++ others := by
  have less : first.val.toNat < second.val.toNat := below
  have bound : second.val.toNat < 0x110000 := by
    rcases second.valid with low | high <;> omega
  simp only [String.utf8EncodeChar]
  generalize first.val.toNat = low at *
  generalize second.val.toNat = high at *
  have dropTwo (value : Nat) : value / 4096 = value / 64 / 64 := by omega
  have dropThree (value : Nat) : value / 262144 = value / 64 / 64 / 64 := by omega
  -- Longer characters start with larger bytes and have larger code points; the bytes of
  -- two that are equally long are the digits of their code points.
  split_ifs
  all_goals
    simp (disch := omega) only [List.cons_append, List.nil_append, ofNat_cons_lt_iff, dropTwo,
      dropThree]
    omega

theorem flatMap_utf8EncodeChar_lt {first second : List Char} (below : first < second) :
    first.flatMap String.utf8EncodeChar < second.flatMap String.utf8EncodeChar := by
  induction first generalizing second with
  | nil =>
      cases second with
      | nil => exact absurd below (List.not_lt_nil _)
      | cons d second =>
          rw [List.flatMap_nil, List.flatMap_cons]
          rcases List.exists_cons_of_ne_nil (String.utf8EncodeChar_ne_nil (c := d)) with
            ⟨byte, more, bytes⟩
          rw [bytes, List.cons_append]
          exact List.nil_lt_cons _ _
  | cons c first ih =>
      cases second with
      | nil => exact absurd below (List.not_lt_nil _)
      | cons d second =>
          rw [List.flatMap_cons, List.flatMap_cons]
          rcases List.cons_lt_cons_iff.mp below with less | ⟨rfl, later⟩
          · exact utf8EncodeChar_append_lt less _ _
          · exact List.append_left_lt (ih later)

/-- Texts are in the order of their bytes. -/
theorem bytesOf_lt_iff {first second : String} :
    bytesOf first < bytesOf second ↔ first < second := by
  have onward {a b : String} (below : a < b) : bytesOf a < bytesOf b := by
    rw [bytesOf_eq_flatMap, bytesOf_eq_flatMap]
    exact flatMap_utf8EncodeChar_lt (String.lt_iff.mp below)
  refine ⟨fun below => ?_, onward⟩
  by_cases less : first < second
  · exact less
  · by_cases greater : second < first
    · exact absurd below (List.lt_asymm (onward greater))
    · have equal : first = second :=
        String.le_antisymm (String.not_lt.mp greater) (String.not_lt.mp less)
      rw [equal] at below
      exact absurd below (List.lt_irrefl _)

end Folio.Text
