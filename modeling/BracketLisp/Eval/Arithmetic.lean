import BracketLisp.Eval.Fold
import BracketLisp.Integer

/-!
# `BracketLisp.Eval.Arithmetic`: sums, products and remainders

`+`, `-`, `*` and `/` combine two or more values from the left. Integers give an exact
integer, which has to fit into 64 bits. As soon as a float takes part the result is
one. A string in front makes `+` write the texts of the others behind it.
-/

set_option autoImplicit false

namespace BracketLisp

namespace Arith

/-- The result on unbounded integers. Quotients are cut off toward zero. -/
def exact : Arith → Int → Int → Int
  | add, a, b => a + b
  | sub, a, b => a - b
  | mul, a, b => a * b
  | div, a, b => a.tdiv b

/-- The result on words, if there is one that fits. -/
def onInts (op : Arith) (a b : Int64) : Except EvalFault Int64 :=
  if op = div ∧ b = 0 then
    .error .divisionByZero
  else
    match Integer.ofInt? (op.exact a.toInt b.toInt) with
    | some result => .ok result
    | none => .error .overflow

/-- The result on floats. -/
def onFloats : Arith → Float → Float → Float
  | add, a, b => a + b
  | sub, a, b => a - b
  | mul, a, b => a * b
  | div, a, b => a / b

variable {H : Type}

/-- Combines what has come so far with one more value. Whether strings may come at all
is settled by the first value. -/
def combine (op : Arith) : Value H → Value H → Except EvalFault (Value H)
  | .int a, .int b => (op.onInts a b).map .int
  | .int a, .float b => .ok (.float (op.onFloats (Float.ofInt a.toInt) b))
  | .float a, .int b => .ok (.float (op.onFloats a (Float.ofInt b.toInt)))
  | .float a, .float b => .ok (.float (op.onFloats a b))
  | .string a, b =>
    match b with
    | .int _ | .float _ | .bool _ | .string _ => .ok (.string (a ++ b.text))
    | _ => .error (.typeMismatch [.string] b.kind)
  | a, .string _ => .error (.typeMismatch [a.kind] .string)
  | _, b => .error (.nonArithmetic b.kind)

/-- Whether a value may stand first. -/
def accepts (op : Arith) : Value H → Bool
  | .int _ | .float _ => true
  | .string _ => op = add
  | _ => false

/-- The operation on the values of a call. -/
def fold (op : Arith) : ArgumentFold H where
  State := Option (Value H)
  arity := .atLeast 2
  start := none
  step := fun total? operand =>
    match total? with
    | none =>
      if op.accepts operand.value then
        .ok (.next (some operand.value))
      else
        .error ⟨.nonArithmetic operand.value.kind, operand.span⟩
    | some total =>
      (operand.blame (op.combine total operand.value)).map fun total => .next (some total)
  finish := fun total? => .ok (total?.getD .nil)

end Arith

/-- The remainder of the quotient that is cut off toward zero. There is none for the least
integer and -1, whose quotient does not fit. -/
def remainder (a b : Int64) : Except EvalFault Int64 :=
  if b = 0 then
    .error .divisionByZero
  else if a = Int64.minValue ∧ b = -1 then
    .error .overflow
  else
    .ok (a % b)

/-- The remainder of two operands. -/
def remainderOf {H : Type} (left right : Located (Value H)) : Except EvalError (Value H) := do
  let a ← intOperand left
  let b ← intOperand right
  right.blame ((remainder a b).map .int)

end BracketLisp
