/-!
# Lines of a text

A line ends with a line feed, which does not belong to it, and neither does a
carriage return right before the line feed.  What follows the last line feed is
a line of its own unless it is empty.
-/

namespace Folio.Text

/-- Take a carriage return away at the end of a line. -/
def dropReturn (line : List Char) : List Char :=
  match line.getLast? with
  | some '\r' => line.dropLast
  | _ => line

/-- The lines of a text. -/
def lines (chars : List Char) : List (List Char) :=
  let pieces := chars.splitOn '\n'
  pieces.dropLast.map dropReturn ++ pieces.getLast?.toList.filter fun piece => !piece.isEmpty

example : lines "a\r\n\nb".toList = [['a'], [], ['b']] := by decide

end Folio.Text
