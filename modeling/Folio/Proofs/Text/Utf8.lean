import Folio.Text.Utf8

/-!
# Texts and their bytes

The bytes of a text hold that text and no other.
-/

namespace Folio.Text

theorem fromUTF8?_toByteArray (text : String) : String.fromUTF8? text.toByteArray = some text := by
  rw [String.fromUTF8?, dif_pos text.isValidUTF8]
  rfl

/-- Bytes are read as no text but the one whose bytes they are. -/
theorem fromUTF8?_eq_some_iff {bytes : ByteArray} {text : String} :
    String.fromUTF8? bytes = some text ↔ bytes = text.toByteArray := by
  constructor
  · intro holds
    rw [String.fromUTF8?] at holds
    split at holds
    · cases holds
      rfl
    · contradiction
  · rintro rfl
    exact fromUTF8?_toByteArray text

@[simp]
theorem ofBytes?_bytesOf (text : String) : ofBytes? (bytesOf text) = some text := by
  rw [ofBytes?, bytesOf, Array.toArray_toList]
  exact fromUTF8?_toByteArray text

theorem bytesOf_of_ofBytes? {bytes : List UInt8} {text : String}
    (holds : ofBytes? bytes = some text) : bytesOf text = bytes := by
  rw [bytesOf, String.toUTF8, ← fromUTF8?_eq_some_iff.mp holds]

theorem bytesOf_append (front rest : String) :
    bytesOf (front ++ rest) = bytesOf front ++ bytesOf rest := by
  simp [bytesOf]

end Folio.Text
