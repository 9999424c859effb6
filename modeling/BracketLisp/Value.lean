import BracketLisp.Catalog
import BracketLisp.Decimal.Notation
import BracketLisp.Fault
import BracketLisp.Form

/-!
# `BracketLisp.Value`: values

Values are plain data, and things to call: functions made by a program and natives
made by the library or by its host. Things to call are told apart by an `Identity`
and not by what they do. The type parameter `H` stands for the operations of the host.
-/

set_option autoImplicit false

namespace BracketLisp

/-- What tells two things to call apart: the environment that made it, and a number
that the environment uses only once. -/
structure Identity where
  owner : Nat
  serial : Nat
deriving DecidableEq, Repr

/-- A function of a program. Its body sees the parameters and the root. -/
structure Function where
  identity : Identity
  parameters : List SymbolId
  body : Element

/-- What a native does: an entry of the catalog, or an operation of the host. -/
inductive Action (H : Type) where
  | catalog (entry : Builtin)
  | host (operation : H)

/-- An action together with the name under which it was registered. -/
structure Native (H : Type) where
  identity : Identity
  name : String
  action : Action H

/-- A value of the language. -/
inductive Value (H : Type) where
  | nil
  | bool (value : Bool)
  | int (value : Int64)
  | float (value : Float)
  | string (content : String)
  | function (function : Function)
  | native (native : Native H)

namespace Value

variable {H : Type}

/-- The kind of a value. -/
def kind : Value H → Kind
  | nil => .nil
  | bool _ => .bool
  | int _ => .int
  | float _ => .float
  | string _ => .string
  | function _ => .function
  | native _ => .builtin

/-- A value as text. A string is its own text. -/
def text : Value H → String
  | nil => "nil"
  | bool true => "true"
  | bool false => "false"
  | int value => toString value.toInt
  | float value => Decimal.floatText value
  | string content => content
  | function f => "<func/" ++ toString f.parameters.length ++ ">"
  | native n => "<builtin " ++ n.name ++ ">"

/-- Whether two values are the same. Kinds are not mixed, floats compare as numbers,
so no `NaN` is the same as itself, and things to call compare by identity. -/
def same : Value H → Value H → Bool
  | nil, nil => true
  | bool a, bool b => a == b
  | int a, int b => a == b
  | float a, float b => a == b
  | string a, string b => a == b
  | function a, function b => a.identity == b.identity
  | native a, native b => a.identity == b.identity
  | _, _ => false

/-- The float of a numeric value: an integer is the float nearest to it. -/
def toFloat? : Value H → Option Float
  | int value => some (Float.ofInt value.toInt)
  | float value => some value
  | _ => none

/-- Whether a value is an integer or a float. -/
def isNumeric : Value H → Bool
  | int _ | float _ => true
  | _ => false

end Value

end BracketLisp
