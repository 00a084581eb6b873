/-!
# Lines

A place in a text is told as a line and a column, both counted from one, in characters; only the
line feed ends a line. Files may end their lines in a carriage return, with or without a line feed;
they are read with line feeds alone.
-/

namespace ComponentSpec.Text

/-- A place in a text: how many characters stand before it, and where that is. -/
structure Position where
  offset : Nat
  line : Nat
  column : Nat
deriving DecidableEq

/-- The place after the given characters. -/
def Position.after (before : List Char) : Position where
  offset := before.length
  line := before.count '\n' + 1
  column := (before.reverse.takeWhile (· ≠ '\n')).length + 1

/-- The text with every line ended by a line feed alone. -/
def unifyLines : List Char → List Char
  | [] => []
  | '\r' :: '\n' :: cs => '\n' :: unifyLines cs
  | '\r' :: cs => '\n' :: unifyLines cs
  | c :: cs => c :: unifyLines cs

end ComponentSpec.Text
