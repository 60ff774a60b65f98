/-!
# Text in bytes

Bytes that should hold UTF-8 are read in one of two ways.  A strict reader
refuses bytes that are no UTF-8.  A lenient reader puts the replacement character
in the place of each stretch that cannot be continued to a character: such a
stretch is as long as it could still have become one.
-/

namespace Folio.Text

/-- The bytes of a text. -/
def bytesOf (text : String) : List UInt8 := text.toUTF8.data.toList

/-- The text that bytes hold, if they are UTF-8. -/
def ofBytes? (bytes : List UInt8) : Option String := String.fromUTF8? ⟨bytes.toArray⟩

/-- The character that stands for bytes that hold none. -/
def replacement : Char := '\ufffd'

/-- What is known of a character before its last byte: how many bytes follow the
next one, the bounds of the next one, and the bits so far. -/
inductive Pending where
  | nothing
  | character (more : Nat) (low high : UInt8) (bits : Nat)
deriving DecidableEq, Repr

/-- What a byte gives where a character may start: the characters that are
complete, and what is pending.  The bounds of the second byte keep out long
forms, surrogates and code points that are too large. -/
def startingByte (byte : UInt8) : List Char × Pending :=
  if byte < 0x80 then ([Char.ofNat byte.toNat], .nothing)
  else if byte < 0xC2 then ([replacement], .nothing)
  else if byte < 0xE0 then ([], .character 0 0x80 0xBF (byte.toNat - 0xC0))
  else if byte = 0xE0 then ([], .character 1 0xA0 0xBF 0)
  else if byte = 0xED then ([], .character 1 0x80 0x9F 13)
  else if byte < 0xF0 then ([], .character 1 0x80 0xBF (byte.toNat - 0xE0))
  else if byte = 0xF0 then ([], .character 2 0x90 0xBF 0)
  else if byte < 0xF4 then ([], .character 2 0x80 0xBF (byte.toNat - 0xF0))
  else if byte = 0xF4 then ([], .character 2 0x80 0x8F 4)
  else ([replacement], .nothing)

/-- What a byte gives after what is pending. -/
def nextByte (pending : Pending) (byte : UInt8) : List Char × Pending :=
  match pending with
  | .nothing => startingByte byte
  | .character more low high bits =>
      if low ≤ byte ∧ byte ≤ high then
        let extended := bits * 64 + (byte.toNat - 0x80)
        match more with
        | 0 => ([Char.ofNat extended], .nothing)
        | more + 1 => ([], .character more 0x80 0xBF extended)
      else
        let (chars, next) := startingByte byte
        (replacement :: chars, next)

/-- Read bytes leniently after what is pending. -/
def lenientFrom : Pending → List UInt8 → List Char
  | .nothing, [] => []
  | .character .., [] => [replacement]
  | pending, byte :: rest =>
      let (chars, next) := nextByte pending byte
      chars ++ lenientFrom next rest

/-- The text that bytes hold, with replacement characters where they hold none.
-/
def ofBytesLenient (bytes : List UInt8) : String :=
  String.ofList (lenientFrom .nothing bytes)

example : lenientFrom .nothing [0x66, 0xE2, 0x82, 0x41, 0xED, 0xA0, 0x80, 0xC3, 0xA9] =
    ['f', replacement, 'A', replacement, replacement, replacement, 'é'] := by decide

example : lenientFrom .nothing [0xF0, 0x9F, 0x98, 0x80, 0xF0, 0x9F] = ['😀', replacement] := by
  decide

end Folio.Text
