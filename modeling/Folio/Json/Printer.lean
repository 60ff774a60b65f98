import Folio.Json.Basic

/-!
# Writing JSON

There are two forms.  The compact form has no blanks; the indented form gives
every item and member a line of its own, two blanks deeper than what encloses
it.  Quotes, backslashes and control characters are escaped, and every other
character is written as it is.
-/

namespace Folio.Json

/-- The lower-case hexadecimal digit of a number below sixteen. -/
def hexDigit (n : Nat) : Char := Nat.digitChar (n % 16)

/-- How a character is written inside a string. -/
def escapeChar (c : Char) : List Char :=
  if c = '"' then ['\\', '"']
  else if c = '\\' then ['\\', '\\']
  else if c = '\x08' then ['\\', 'b']
  else if c = '\x09' then ['\\', 't']
  else if c = '\x0a' then ['\\', 'n']
  else if c = '\x0c' then ['\\', 'f']
  else if c = '\x0d' then ['\\', 'r']
  else if c.toNat < 0x20 then
    ['\\', 'u', '0', '0', hexDigit (c.toNat / 16), hexDigit c.toNat]
  else [c]

/-- A string between quotes. -/
def quote (value : String) : List Char :=
  '"' :: value.toList.flatMap escapeChar ++ ['"']

mutual

/-- The compact form. -/
def chars : Json → List Char
  | .null => ['n', 'u', 'l', 'l']
  | .bool true => ['t', 'r', 'u', 'e']
  | .bool false => ['f', 'a', 'l', 's', 'e']
  | .number value => value.chars
  | .string value => quote value
  | .array items => '[' :: charsItems items ++ [']']
  | .object members => '{' :: charsMembers members ++ ['}']
termination_by structural value => value

/-- Items with commas between them. -/
def charsItems : List Json → List Char
  | [] => []
  | [item] => chars item
  | item :: next :: rest => chars item ++ ',' :: charsItems (next :: rest)
termination_by structural items => items

/-- Members with commas between them. -/
def charsMembers : List (String × Json) → List Char
  | [] => []
  | [(name, value)] => quote name ++ ':' :: chars value
  | (name, value) :: next :: rest =>
      quote name ++ ':' :: chars value ++ ',' :: charsMembers (next :: rest)
termination_by structural members => members

end

/-- The compact form as a string. -/
def text (value : Json) : String := String.ofList value.chars

/-- A new line at a depth. -/
def newline (depth : Nat) : List Char := '\n' :: List.replicate (2 * depth) ' '

mutual

/-- The indented form of a value that stands at a depth. -/
def indented (depth : Nat) : Json → List Char
  | .array [] => ['[', ']']
  | .array items => '[' :: indentedItems (depth + 1) items ++ newline depth ++ [']']
  | .object [] => ['{', '}']
  | .object members => '{' :: indentedMembers (depth + 1) members ++ newline depth ++ ['}']
  | .null => chars .null
  | .bool value => chars (.bool value)
  | .number value => chars (.number value)
  | .string value => chars (.string value)
termination_by structural value => value

/-- Items on lines of their own. -/
def indentedItems (depth : Nat) : List Json → List Char
  | [] => []
  | [item] => newline depth ++ indented depth item
  | item :: next :: rest =>
      newline depth ++ indented depth item ++ ',' :: indentedItems depth (next :: rest)
termination_by structural items => items

/-- Members on lines of their own. -/
def indentedMembers (depth : Nat) : List (String × Json) → List Char
  | [] => []
  | [(name, value)] => newline depth ++ quote name ++ ':' :: ' ' :: indented depth value
  | (name, value) :: next :: rest =>
      newline depth ++ quote name ++ ':' :: ' ' :: indented depth value ++
        ',' :: indentedMembers depth (next :: rest)
termination_by structural members => members

end

/-- The indented form as a string. -/
def indentedText (value : Json) : String := String.ofList (value.indented 0)

end Folio.Json
