import Folio.Text.Hex
import Folio.Text.Search
import Folio.Text.Utf8

/-!
# Percent signs and forms

Behind a percent sign two hexadecimal digits stand for a byte; a percent sign
without them stands for itself.  A form is a text of fields between ampersands,
each with a name and a value around its first equals sign, in which a plus sign
stands for a blank.
-/

namespace Folio.Text

/-- The byte that two hexadecimal digits stand for. -/
def hexByte? (high low : UInt8) : Option UInt8 := do
  let high ← hexValue? (Char.ofNat high.toNat)
  let low ← hexValue? (Char.ofNat low.toNat)
  return UInt8.ofNat (high * 16 + low)

/-- Put bytes in the place of percent signs with two hexadecimal digits. -/
def percentDecode : List UInt8 → List UInt8
  | 0x25 :: high :: low :: rest =>
      match hexByte? high low with
      | some byte => byte :: percentDecode rest
      | none => 0x25 :: percentDecode (high :: low :: rest)
  | byte :: rest => byte :: percentDecode rest
  | [] => []

/-- Put blanks in the place of plus signs. -/
def plusToBlank (bytes : List UInt8) : List UInt8 :=
  bytes.map fun byte => if byte = 0x2B then 0x20 else byte

/-- The text of the name or of the value of a form field. -/
def formText (chars : List Char) : String :=
  ofBytesLenient (percentDecode (plusToBlank (bytesOf (String.ofList chars))))

/-- The name and the value of a form field; without an equals sign the value is
empty. -/
def formField (chars : List Char) : String × String :=
  match cutAt? '=' chars with
  | some (name, value) => (formText name, formText value)
  | none => (formText chars, "")

/-- The fields of a form; nothing between two ampersands is no field. -/
def formFields (form : List Char) : List (String × String) :=
  ((form.splitOn '&').filter fun piece => !piece.isEmpty).map formField

example : formFields "a=1&&b%3d+c=%zz%41=&d".toList =
    [("a", "1"), ("b= c", "%zzA="), ("d", "")] := by
  decide +kernel

end Folio.Text
