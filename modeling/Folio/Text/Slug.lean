import Folio.Text.Alphanumeric
import Folio.Text.LowerCase

/-!
# Slugs

A slug is written in one pass over the characters of a text.  Letters and numbers are put
in lower case; the first of the other characters behind them is put as a hyphen, which is
taken back if nothing but such characters follows.
-/

namespace Folio.Text

/-- A slug that is being written, and whether it ends with a hyphen. -/
structure SlugDraft where
  written : List Char := []
  hyphen : Bool := false

namespace SlugDraft

/-- Write on at the next character of a text. -/
def add (draft : SlugDraft) (c : Char) : SlugDraft :=
  if isAlphanumeric c then ⟨draft.written ++ lowerCase c, false⟩
  else if !draft.hyphen && !draft.written.isEmpty then ⟨draft.written ++ ['-'], true⟩
  else draft

/-- What is written at the end of a text. -/
def finish (draft : SlugDraft) : List Char :=
  if draft.hyphen then draft.written.dropLast else draft.written

end SlugDraft

/-- The slug of a text. -/
def slug (text : String) : String :=
  String.ofList (text.toList.foldl SlugDraft.add {}).finish

example : slug "  Foo -- Bar! " = "foo-bar" := by decide +kernel

example : slug "--" = "" := by decide +kernel

end Folio.Text
