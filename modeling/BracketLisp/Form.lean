import BracketLisp.Bracket
import BracketLisp.Position
import BracketLisp.Symbol

/-!
# `BracketLisp.Form`: elements and forms

An `Element` is a tree of lists over numbers, strings and symbols. Every node knows
the place of its first character. A `Form` is a list, which is what texts consist of
and what an evaluation of several elements starts from.
-/

set_option autoImplicit false

namespace BracketLisp

/-- A node of the tree that a text is read as. -/
inductive Element where
  | list (bracket : Bracket) (elements : List Element) (span : Position)
  | int (value : Int64) (span : Position)
  | float (value : Float) (span : Position)
  | string (content : String) (span : Position)
  | symbol (id : SymbolId) (span : Position)

/-- A list: its kind of bracket, its elements, and the place of its opening bracket. -/
structure Form where
  bracket : Bracket
  elements : List Element
  span : Position

namespace Element

/-- The place of the first character. -/
def span : Element → Position
  | list _ _ span | int _ span | float _ span | string _ span | symbol _ span => span

/-- The symbol that the element is, if it is one. -/
def symbol? : Element → Option SymbolId
  | symbol id _ => some id
  | _ => none

/-- The form that the element is, if it is a list. -/
def form? : Element → Option Form
  | list bracket elements span => some ⟨bracket, elements, span⟩
  | _ => none

end Element

namespace Form

/-- The form as an element. -/
def element (form : Form) : Element :=
  .list form.bracket form.elements form.span

/-- What follows the first element. -/
def args (form : Form) : List Element :=
  form.elements.drop 1

end Form

end BracketLisp
