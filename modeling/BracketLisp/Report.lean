import BracketLisp.Position.Offset

/-!
# `BracketLisp.Report`: errors shown in their text

A report repeats the message of an error and points at the character of the text to blame. How it
looks is left to a `Renderer`, which gets a `Sketch` of it and is told there by offsets of
characters where to point. `toReport` takes the offset of a position, drawn into the text, and
puts a label on the character there.
-/

set_option autoImplicit false

namespace BracketLisp.Report

/-- Characters to mark, from one offset up to another, and what to say about them. -/
structure Label where
  start : Nat
  stop : Nat
  caption : String
deriving DecidableEq, Repr

/-- What a report is to show. -/
structure Sketch where
  kind : String
  start : Nat
  message : String
  label : Label
  color : Bool
  text : List Char
deriving DecidableEq, Repr

/-- Something that draws reports. -/
structure Renderer where
  /-- The lines that it takes a text to have. -/
  lines : List Char → List (List Char)
  /-- The number of columns that it takes a character to have. -/
  width : Char → Nat
  /-- The report, unless it cannot be written. -/
  draw : Sketch → Option String

/-- What the label says. -/
def caption : String := "「here」"

/-- The sketch for a report of a message about a position in a text. Past the end it is about
the last character. -/
def sketchOf (message : String) (position : Position) (text : List Char) : Sketch :=
  let start := min (position.offsetIn text) (text.length - 1)
  { kind := "Error"
    start
    message
    label := ⟨start, min (start + 1) text.length, caption⟩
    color := false
    text }

/-- The report of a message about a position in a text, which is just the message if there is no
text to show or the report cannot be written. -/
def toReport (renderer : Renderer) (message : String) (position : Position) (text : List Char) :
    String :=
  if text.length = 0 then
    message
  else
    match renderer.draw (sketchOf message position text) with
    | some report => report
    | none => message

end BracketLisp.Report
