import BracketLisp.Decimal.Notation
import BracketLisp.Form
import BracketLisp.Text.Literal

/-!
# `BracketLisp.Form.Outline`: forms as indented outlines

An outline has a line for every node of a form: what the node is, then the line and
the column of its place. Elements of a list stand below it, two columns further in.
-/

set_option autoImplicit false

namespace BracketLisp

/-- A place inside a known text, as outlines show it. -/
def Position.coordinates (position : Position) : String :=
  toString position.line ++ ":" ++ toString position.column

/-- A string as the literal that reads as it. -/
def quoted (content : String) : String :=
  "\"" ++ String.ofList (Text.Literal.escape content.toList) ++ "\""

/-- What an outline says of a node, its elements and its place apart. -/
def Element.label (symbols : SymbolTable) : Element → String
  | list bracket _ _ => "List" ++ bracket.opening.toString ++ bracket.closing.toString
  | int value _ => "Int(" ++ toString value.toInt ++ ")"
  | float value _ => "Float(" ++ Decimal.floatText value ++ ")"
  | string content _ => "String(" ++ quoted content ++ ")"
  | symbol id _ => "Symbol(" ++ symbols.label id ++ ")"

/-- The line of an outline for a node, behind `indent` spaces. -/
def Element.headline (symbols : SymbolTable) (indent : Nat) (element : Element) : String :=
  String.ofList (List.replicate indent ' ') ++ element.label symbols ++ " " ++
    element.span.coordinates

mutual

/-- The lines of an element's outline, the first of them behind `indent` spaces. -/
def Element.outline (symbols : SymbolTable) (indent : Nat) : Element → List String
  | .list bracket elements span =>
    (Element.list bracket elements span).headline symbols indent ::
      outlineAll symbols (indent + 2) elements
  | .int value span => [(Element.int value span).headline symbols indent]
  | .float value span => [(Element.float value span).headline symbols indent]
  | .string content span => [(Element.string content span).headline symbols indent]
  | .symbol id span => [(Element.symbol id span).headline symbols indent]

/-- The lines of the outlines of several elements, one after the other. -/
def outlineAll (symbols : SymbolTable) (indent : Nat) : List Element → List String
  | [] => []
  | element :: others => element.outline symbols indent ++ outlineAll symbols indent others

end

/-- The outline of a form as one text. Its last line has no line feed. -/
def Form.outline (symbols : SymbolTable) (indent : Nat) (form : Form) : String :=
  "\n".intercalate (form.element.outline symbols indent)

end BracketLisp
