import BracketLisp.Eval.Fold
import BracketLisp.Numeral.Float
import BracketLisp.Text.Blank

/-!
# `BracketLisp.Eval.Conversion`: numbers from other values

Numbers convert to each other, and a string to the number that its text is a numeral
of. White space around the numeral does not count.
-/

set_option autoImplicit false

namespace BracketLisp

/-- A float cut off toward zero, unless it is infinite or no number. -/
def truncate? (x : Float) : Option Int :=
  match Decimal.read x with
  | .finite negative magnitude =>
    let whole : Nat :=
      (magnitude.mantissa <<< magnitude.exponent.toNat) >>> (-magnitude.exponent).toNat
    some (if negative then -(whole : Int) else whole)
  | _ => none

variable {H : Type}

/-- The fault of converting a value that is neither a number nor a string. -/
def notConvertible (value : Value H) : EvalFault :=
  .typeMismatch [.int, .float, .string] value.kind

/-- A value as an integer. Floats are cut off toward zero. -/
def integerOf : Value H → Except EvalFault Int64
  | .int value => .ok value
  | .float value =>
    match (truncate? value).bind Integer.ofInt? with
    | some result => .ok result
    | none => .error (.invalidNumber (Decimal.floatText value))
  | .string content =>
    match Numeral.integer? (Text.trim content.toList) with
    | some result => .ok result
    | none => .error (.invalidNumber content)
  | other => .error (notConvertible other)

/-- A value as a float. Integers go to the nearest one. -/
def floatOf : Value H → Except EvalFault Float
  | .int value => .ok (Float.ofInt value.toInt)
  | .float value => .ok value
  | .string content =>
    let numeral := Text.trim content.toList
    match Numeral.integer? numeral with
    | some value => .ok (Float.ofInt value.toInt)
    | none =>
      match Numeral.float? numeral with
      | some value => .ok value
      | none => .error (.invalidNumber (String.ofList numeral))
  | other => .error (notConvertible other)

/-- The integer that an operand converts to. -/
def toIntOf (operand : Located (Value H)) : Except EvalError (Value H) :=
  operand.blame ((integerOf operand.value).map .int)

/-- The float that an operand converts to. -/
def toFloatOf (operand : Located (Value H)) : Except EvalError (Value H) :=
  operand.blame ((floatOf operand.value).map .float)

/-- The texts of one or more operands as one string. -/
def concatFold : ArgumentFold H where
  State := String
  arity := .atLeast 1
  start := ""
  step := fun text operand => .ok (.next (text ++ operand.value.text))
  finish := fun text => .ok (.string text)

end BracketLisp
