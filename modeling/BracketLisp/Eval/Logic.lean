import BracketLisp.Eval.Fold

/-!
# `BracketLisp.Eval.Logic`: truth values

Conjunction and disjunction evaluate their operands only as far as the result is open.
-/

set_option autoImplicit false

namespace BracketLisp

variable {H : Type}

/-- The opposite of an operand. -/
def negation (operand : Located (Value H)) : Except EvalError (Value H) :=
  (boolOperand operand).map fun value => .bool !value

/-- Stops with `decisive` at the first operand that is it, and gives the opposite if
none is: the conjunction for `false`, the disjunction for `true`. -/
def logicFold (decisive : Bool) : ArgumentFold H where
  State := Unit
  arity := .atLeast 2
  start := ()
  step := fun _ operand =>
    (boolOperand operand).map fun value =>
      if value = decisive then .stop (.bool decisive) else .next ()
  finish := fun _ => .ok (.bool !decisive)

end BracketLisp
