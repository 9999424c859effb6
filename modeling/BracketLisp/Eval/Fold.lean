import BracketLisp.Eval.Basic

/-!
# `BracketLisp.Eval.Fold`: operations that consume their arguments

An `ArgumentFold` describes an operation that asks for a number of arguments and then
takes their values one by one, from the left. After each value it goes on with a new
state, stops with a result, or fails. Nothing it does touches the environment, so all
effects of such a call are those of evaluating its arguments.
-/

set_option autoImplicit false

namespace BracketLisp

/-- How many arguments an operation takes. -/
inductive Arity where
  | exactly (count : Nat)
  | atLeast (minimum : Nat)
deriving DecidableEq, Repr

/-- Checks the number of arguments of a call. -/
def Call.expect (call : Call) : Arity → Except EvalError Unit
  | .exactly count => call.expectExactly count
  | .atLeast minimum => call.expectAtLeast minimum

/-- What an operation does after a value. -/
inductive Verdict (σ α : Type) where
  | next (state : σ)
  | stop (result : α)

/-- An operation that consumes the values of its arguments from the left. -/
structure ArgumentFold (H : Type) where
  /-- What the operation remembers of the values so far. -/
  State : Type
  arity : Arity
  start : State
  step : State → Located (Value H) → Except EvalError (Verdict State (Value H))
  finish : State → Except EvalError (Value H)

namespace ArgumentFold

variable {H : Type}

/-- Evaluates and consumes arguments. -/
def consume (fold : ArgumentFold H) (evaluate : Evaluator H) (scope : ScopeId) :
    fold.State → List Element → Eval H (Value H)
  | state, [] => Eval.check (fold.finish state)
  | state, argument :: others => do
    let value ← Eval.located evaluate scope argument
    match ← Eval.check (fold.step state value) with
    | .next state => fold.consume evaluate scope state others
    | .stop result => pure result

/-- Does a call: first the number of arguments is checked, then they are consumed. -/
def perform (fold : ArgumentFold H) (evaluate : Evaluator H) (call : Call) (scope : ScopeId) :
    Eval H (Value H) := do
  Eval.check (call.expect fold.arity)
  fold.consume evaluate scope fold.start call.args

/-- The operation on one value that computes `f`. -/
def unary (f : Located (Value H) → Except EvalError (Value H)) : ArgumentFold H where
  State := Unit
  arity := .exactly 1
  start := ()
  step := fun _ value => (f value).map .stop
  finish := fun _ => .ok .nil

/-- The operation on two values that computes `f`, once it has both. -/
def binary (f : Located (Value H) → Located (Value H) → Except EvalError (Value H)) :
    ArgumentFold H where
  State := Option (Located (Value H))
  arity := .exactly 2
  start := none
  step := fun left? value =>
    match left? with
    | none => .ok (.next (some value))
    | some left => (f left value).map .stop
  finish := fun _ => .ok .nil

end ArgumentFold

/-! ### Operands -/

/-- Puts a fault at the place of a value. -/
def Located.blame {α β : Type} (value : Located α) (result : Except EvalFault β) :
    Except EvalError β :=
  result.mapError fun fault => ⟨fault, value.span⟩

/-- The integer that an operand has to be. -/
def intOperand {H : Type} (operand : Located (Value H)) : Except EvalError Int64 :=
  match operand.value with
  | .int value => .ok value
  | other => .error ⟨.notInteger other.kind, operand.span⟩

/-- The truth value that an operand has to be. -/
def boolOperand {H : Type} (operand : Located (Value H)) : Except EvalError Bool :=
  match operand.value with
  | .bool value => .ok value
  | other => .error ⟨.notBoolean other.kind, operand.span⟩

end BracketLisp
