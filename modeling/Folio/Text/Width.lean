/-!
# Widths of text in bytes

Places in a text are told in bytes of its UTF-8 encoding.
-/

namespace Folio.Text

/-- The number of bytes that a list of characters takes. -/
def width : List Char → Nat
  | [] => 0
  | c :: rest => c.utf8Size + width rest

@[simp] theorem width_nil : width [] = 0 := rfl

@[simp] theorem width_cons (c : Char) (rest : List Char) :
    width (c :: rest) = c.utf8Size + width rest := rfl

/-- The width of a text is the sum of the widths of its parts. -/
@[simp] theorem width_append (first second : List Char) :
    width (first ++ second) = width first + width second := by
  induction first with
  | nil => simp
  | cons c rest ih => simp [ih, Nat.add_assoc]

@[simp] theorem width_reverse (chars : List Char) : width chars.reverse = width chars := by
  induction chars with
  | nil => rfl
  | cons c rest ih => simp [ih, Nat.add_comm]

end Folio.Text
