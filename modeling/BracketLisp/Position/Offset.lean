import BracketLisp.Position
import BracketLisp.Text.Line

/-!
# `BracketLisp.Position.Offset`: positions as character offsets

`Position.offsetIn` turns a line and a column into the number of characters before
that place. Lines are the pieces of the text here, so a carriage return counts as a
character of its line, and a place outside of the text is drawn to its end.
-/

set_option autoImplicit false

namespace BracketLisp

/-- The number of characters of `text` before `position`. Line and column zero stand
for the first, and what lies past the text counts as its end. -/
def Position.offsetIn (position : Position) (text : List Char) : Nat :=
  let earlier := (Text.pieces text).take (position.line - 1)
  min (earlier.flatten.length + (position.column - 1)) text.length

end BracketLisp
