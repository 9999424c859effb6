/-!
# `BracketLisp.Text.Line`: texts as lines

A text is cut into *pieces*, each ending in its line feed; only the last piece may
lack one. A *line* is what a piece holds besides its terminator, which is a line
feed or a carriage return followed by one. A carriage return anywhere else is an
ordinary character, also at the very end of the text.

`flatten_pieces` states that cutting loses nothing.
-/

set_option autoImplicit false

namespace BracketLisp.Text

/-- The pieces of a text, each ending in its line feed. The last one may lack it,
and no piece is empty. -/
def pieces : List Char → List (List Char)
  | [] => []
  | c :: rest =>
    if c = '\n' then
      [c] :: pieces rest
    else
      match pieces rest with
      | [] => [[c]]
      | piece :: others => (c :: piece) :: others

/-- The characters of a piece without its terminator. -/
def body : List Char → List Char
  | [] => []
  | ['\n'] => []
  | ['\r', '\n'] => []
  | c :: rest => c :: body rest

/-- The lines of a text. Nothing follows a final line feed, so it ends no empty line. -/
def lines (text : List Char) : List (List Char) :=
  (pieces text).map body

/-- Putting the pieces together again gives the text. -/
theorem flatten_pieces (text : List Char) : (pieces text).flatten = text := by
  induction text with
  | nil => rfl
  | cons c rest ih =>
    unfold pieces
    split
    · simp [ih]
    · cases h : pieces rest with
      | nil => simpa [h] using ih
      | cons piece others => simpa [h] using ih

end BracketLisp.Text
