import Folio.Text.Span

/-!
# Blanks

A blank is a character with the Unicode property `White_Space`.  Trimming takes
blanks away at both ends of a text and nowhere else.
-/

namespace Folio.Text

/-- The spans of blanks. -/
def blankSpans : List (Nat × Nat) := [
  (0x9, 0xD), (0x20, 0x20), (0x85, 0x85), (0xA0, 0xA0), (0x1680, 0x1680), (0x2000, 0x200A),
  (0x2028, 0x2029), (0x202F, 0x202F), (0x205F, 0x205F), (0x3000, 0x3000)]

/-- Whether a character is a blank. -/
def isBlank (c : Char) : Bool := within c.toNat blankSpans

/-- Take the blanks at the front away. -/
def trimStart (chars : List Char) : List Char := chars.dropWhile isBlank

/-- Take the blanks at the end away. -/
def trimEnd (chars : List Char) : List Char := (chars.reverse.dropWhile isBlank).reverse

/-- Take the blanks at both ends away. -/
def trim (chars : List Char) : List Char := trimEnd (trimStart chars)

@[simp] theorem trimStart_nil : trimStart [] = [] := rfl

@[simp] theorem trim_nil : trim [] = [] := rfl

theorem head?_trimStart_not_blank (chars : List Char) :
    (trimStart chars).head?.any isBlank = false := by
  induction chars with
  | nil => rfl
  | cons c rest ih =>
      cases blank : isBlank c with
      | true => simpa [trimStart, blank] using ih
      | false => simp [trimStart, blank]

example : isBlank '\u00a0' ∧ isBlank '\u1680' ∧ ¬ isBlank '\u200b' ∧ ¬ isBlank '\u180e' := by
  decide

end Folio.Text
