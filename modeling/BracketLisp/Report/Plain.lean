import BracketLisp.Report
import BracketLisp.Text.Blank
import BracketLisp.Text.Width

/-!
# `BracketLisp.Report.Plain`: reports in plain text

A renderer for a terminal with a fixed pitch. It names the line and the column, shows that
line of the text, and draws an arrow under the character to blame. Lines end here at every
line break that Unicode knows, which are more than the scanner goes by.

A line is shown without the white space at its end, with spaces for tabs, and every
other white space as a single space. The arrow moves along with the width of the
characters before it.
-/

set_option autoImplicit false

namespace BracketLisp.Report

/-! ### Lines of a page -/

/-- Whether a character ends a line of a page. -/
def isBreak (c : Char) : Bool :=
  ['\n', '\r', '\x0b', '\x0c', '\u0085', '\u2028', '\u2029'].contains c

/-- The lines of a page, each with its line break. A carriage return and a line feed
together are one line break. -/
def pageLines : List Char → List (List Char)
  | [] => []
  | c :: rest =>
    if isBreak c ∧ ¬(c = '\r' ∧ rest.head? = some '\n') then
      [c] :: pageLines rest
    else
      match pageLines rest with
      | [] => [[c]]
      | line :: others => (c :: line) :: others

/-- A character of a page: the number of its line, the columns before it in that line,
and the line. -/
structure Spot where
  number : Nat
  column : Nat
  line : List Char
deriving DecidableEq, Repr

/-- The character at an offset from the start of lines, the first of which has the
number `number`. -/
def locate (number offset : Nat) : List (List Char) → Spot
  | [] => ⟨number, offset, []⟩
  | line :: others =>
    if offset < line.length then
      ⟨number, offset, line⟩
    else
      locate (number + 1) (offset - line.length) others

/-! ### Columns -/

/-- The number of columns between two stops of the tabulator. -/
def tabStop : Nat := 4

/-- The width of a character that stands at an index of its line. A tab reaches to the
next stop, counted in characters, and all other white space is one column wide. -/
def widthAt (index : Nat) (c : Char) : Nat :=
  if c = '\t' then (index / tabStop + 1) * tabStop - index
  else if Text.isBlank c then 1
  else Text.width c

/-- A character as it is shown at an index of its line. -/
def cellAt (index : Nat) (c : Char) : List Char :=
  if Text.isBlank c then List.replicate (widthAt index c) ' ' else [c]

/-- The characters of a line as they are shown. -/
def cells (line : List Char) : List (List Char) :=
  line.mapIdx cellAt

/-- The width at an index of a line. Past the end of the line it is one. -/
def columnWidth (content : List Char) (index : Nat) : Nat :=
  match content[index]? with
  | some c => widthAt index c
  | none => 1

/-- One row of the arrow below a line: blank up to the column of the character, then
`turn`, then the rest of that column in dashes, and two more columns filled with
`tail`. -/
def arrowRow (line : List Char) (column : Nat) (turn tail : Char) : List Char :=
  let before := (List.range column).flatMap fun index =>
    List.replicate (columnWidth line index) ' '
  let after := columnWidth line (column + 1) + columnWidth line (column + 2)
  before ++ turn :: List.replicate (columnWidth line column - 1) '─' ++ List.replicate after tail

/-! ### The report -/

/-- The rows of a report about the character at a spot. -/
def rows (sketch : Sketch) (spot : Spot) : List String :=
  let number := toString spot.number
  let margin := List.replicate (number.length + 2) ' '
  let line := Text.trimEnd spot.line
  [sketch.kind ++ ": " ++ sketch.message,
    String.ofList margin ++ "╭─[<unknown>:" ++ number ++ ":" ++ toString (spot.column + 1) ++ "]",
    String.ofList margin ++ "│",
    " " ++ number ++ " │ " ++ String.ofList (cells line).flatten,
    String.ofList margin ++ "│ " ++ String.ofList (arrowRow line spot.column '┬' ' '),
    String.ofList margin ++ "│ " ++ String.ofList (arrowRow line spot.column '╰' '─') ++
      " " ++ sketch.label.caption,
    String.ofList (margin.map fun _ => '─') ++ "╯"]

/-- Rows as they are written, each with a line feed at its end. -/
def joinRows (rows : List String) : String :=
  String.join (rows.map (· ++ "\n"))

/-- The spot that a sketch is about. -/
def Sketch.spot (sketch : Sketch) : Spot :=
  locate 1 sketch.start (pageLines sketch.text)

/-- Draws reports in plain text. -/
def plain : Renderer where
  lines := pageLines
  width := Text.width
  draw sketch := some (joinRows (rows sketch sketch.spot))

end BracketLisp.Report
