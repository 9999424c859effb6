/-!
# `BracketLisp.Position`: places in a named text

A `Position` names a text and counts lines and columns from one. Columns count
characters as they stand in the text, not what an escape decodes to. `Located α`
pairs a thing with the place to blame for it: tokens, evaluated arguments and
faults are all carried this way.
-/

set_option autoImplicit false

namespace BracketLisp

/-- A place in the text called `source`, at a line and a column of that line. -/
structure Position where
  source : String
  line : Nat
  column : Nat
deriving DecidableEq, Repr

/-- The written form `source:line:column`, with which every error message opens. -/
def Position.text (position : Position) : String :=
  position.source ++ ":" ++ toString position.line ++ ":" ++ toString position.column

/-- The place `count` characters further on in the same line. -/
def Position.advance (position : Position) (count : Nat) : Position :=
  { position with column := position.column + count }

/-- A thing together with the place where it stands. -/
structure Located (α : Type) where
  value : α
  span : Position
deriving DecidableEq, Repr

end BracketLisp
