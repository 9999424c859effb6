import BracketLisp.Eval.Fold

/-!
# `BracketLisp.Eval.Order`: equality and order

Integers compare as integers, strings by their characters, and numbers of mixed kinds
as floats, where `NaN` is neither before nor after anything. Values of other kinds have
no order. Equality asks that its operands are all numbers or all of one kind.
-/

set_option autoImplicit false

namespace BracketLisp

/-- The order of two floats, if they have one. -/
def floatOrder (a b : Float) : Option Ordering :=
  if a < b then some .lt
  else if a == b then some .eq
  else if b < a then some .gt
  else none

/-- The order of two strings: that of the first characters that differ. -/
def stringOrder (a b : String) : Ordering :=
  if a < b then .lt else if a = b then .eq else .gt

namespace Comparison

/-- Whether the comparison holds of two things in this order. -/
def holds : Comparison → Ordering → Bool
  | lt, ordering => ordering == .lt
  | le, ordering => ordering != .gt
  | gt, ordering => ordering == .gt
  | ge, ordering => ordering != .lt

end Comparison

section

variable {H : Type}

/-- The order of two values. A number or string in front sets what the other should
have been. -/
def order (left right : Located (Value H)) : Except EvalError (Option Ordering) :=
  match left.value, right.value with
  | .int a, .int b => .ok (some (compare a.toInt b.toInt))
  | .string a, .string b => .ok (some (stringOrder a b))
  | a, b =>
    match a.toFloat?, b.toFloat? with
    | some x, some y => .ok (floatOrder x y)
    | _, _ =>
      if a.isNumeric ∨ a.kind = .string then
        .error ⟨.typeMismatch [a.kind] b.kind, right.span⟩
      else
        .error ⟨.nonArithmetic a.kind, left.span⟩

/-- Whether a comparison holds of two operands. -/
def Comparison.of (comparison : Comparison) (left right : Located (Value H)) :
    Except EvalError (Value H) := do
  let ordering? ← order left right
  pure (.bool (ordering?.any comparison.holds))

/-- Whether two operands are equal. -/
def equalPair (left right : Located (Value H)) : Except EvalError Bool :=
  match left.value, right.value with
  | .int a, .int b => .ok (a == b)
  | a, b =>
    match a.toFloat?, b.toFloat? with
    | some x, some y => .ok (x == y)
    | _, _ =>
      if a.kind = b.kind then
        .ok (a.same b)
      else
        .error ⟨.typeMismatch [a.kind] b.kind, right.span⟩

/-- Whether all neighbours among operands are equal. All of them are compared, also
after two that differ. -/
def equalNeighbours : List (Located (Value H)) → Except EvalError Bool
  | left :: right :: others => do
    let first ← equalPair left right
    let rest ← equalNeighbours (right :: others)
    pure (first && rest)
  | _ => .ok true

/-- Equality of two or more operands. It needs all values before it compares any. -/
def equalFold : ArgumentFold H where
  State := List (Located (Value H))
  arity := .atLeast 2
  start := []
  step := fun latest operand => .ok (.next (operand :: latest))
  finish := fun latest => (equalNeighbours latest.reverse).map .bool

end

end BracketLisp
