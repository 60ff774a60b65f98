import Folio.Text.Unshown

/-!
# Text quoted in a message

A message that names a piece of text puts it between double quotes.  Quotes,
backslashes and the usual control characters have an escape of one letter;
every other character without a shape of its own is shown by its code point.
-/

namespace Folio.Text

/-- A code point in lower-case hexadecimal between braces. -/
def codePointEscape (c : Char) : List Char :=
  ['\\', 'u', '{'] ++ Nat.toDigits 16 c.toNat ++ ['}']

/-- How a character is shown between quotes. -/
def showChar (c : Char) : List Char :=
  if c = '\x00' then ['\\', '0']
  else if c = '\t' then ['\\', 't']
  else if c = '\r' then ['\\', 'r']
  else if c = '\n' then ['\\', 'n']
  else if c = '\\' then ['\\', '\\']
  else if c = '"' then ['\\', '"']
  else if isUnshown c then codePointEscape c
  else [c]

/-- A text between double quotes. -/
def quoted (text : String) : String :=
  String.ofList ('"' :: text.toList.flatMap showChar ++ ['"'])

example : quoted "a'b\"\n" = "\"a'b\\\"\\n\"" := by decide +kernel

example : quoted "e\u0301" = "\"e\\u\x7b301\x7d\"" := by decide +kernel

end Folio.Text
