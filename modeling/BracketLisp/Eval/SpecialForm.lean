import BracketLisp.Eval.Basic

/-!
# `BracketLisp.Eval.SpecialForm`: what decides itself what to evaluate

Each special form gets its arguments as elements. `set`, `if` and `while` evaluate some
of them in the scope of the call, `do` all of them, and `func` none.
-/

set_option autoImplicit false

namespace BracketLisp

variable {H : Type}

namespace Eval

/-- The truth value of an element, which must have one. -/
def condition (evaluate : Evaluator H) (scope : ScopeId) (element : Element) : Eval H Bool := do
  match ← evaluate element scope with
  | .bool value => pure value
  | other => fail (.notBoolean other.kind) element.span

/-- Rounds of a loop as long as `test` gives true. The result is that of the last
round, and `last` if there is none. -/
def rounds (test : Eval H Bool) (body : Eval H (Value H)) :
    (fuel : Nat) → (last : Value H) → Eval H (Value H)
  | 0, _ => throw .outOfFuel
  | fuel + 1, last => do
    if ← test then
      let value ← body
      rounds test body fuel value
    else
      pure last

/-- Evaluates elements in order, up to the first fault. The result is that of the last
one, and `last` if there is none. -/
def inOrder (evaluate : Evaluator H) (scope : ScopeId) :
    (last : Value H) → List Element → Eval H (Value H)
  | last, [] => pure last
  | _, element :: others => do
    let value ← evaluate element scope
    inOrder evaluate scope value others

end Eval

/-- The symbols that elements are, up to the first that is none. -/
def Element.parameters : List Element → Except EvalError (List SymbolId)
  | [] => .ok []
  | element :: others =>
    match element.symbol? with
    | some id => (parameters others).map (id :: ·)
    | none => .error ⟨.parameterNotSymbol, element.span⟩

namespace Call

/-- Halts because the call does not have exactly `expected` arguments. -/
def failArity {α : Type} (call : Call) (expected : Nat) : Eval H α :=
  throw (.fault (call.arityError expected))

/-- Binds a symbol to the value of an element, and gives that value. The target is
looked at before the number of arguments, as far as there is one. -/
def assign (call : Call) (evaluate : Evaluator H) (scope : ScopeId) : Eval H (Value H) :=
  match call.args with
  | [] => call.failArity 2
  | target :: others =>
    match target.symbol?, others with
    | none, _ => Eval.fail .targetNotSymbol target.span
    | some id, [element] => do
      let value ← evaluate element scope
      Eval.assign scope id value
      pure value
    | some _, _ => call.failArity 2

/-- Evaluates the second element if the first is true, else the third. -/
def branch (call : Call) (evaluate : Evaluator H) (scope : ScopeId) : Eval H (Value H) :=
  match call.args with
  | [test, consequent, alternative] => do
    if ← Eval.condition evaluate scope test then
      evaluate consequent scope
    else
      evaluate alternative scope
  | _ => call.failArity 3

/-- Evaluates the second element again and again as long as the first is true. -/
def loop (call : Call) (fuel : Nat) (evaluate : Evaluator H) (scope : ScopeId) :
    Eval H (Value H) :=
  match call.args with
  | [test, body] =>
    Eval.rounds (Eval.condition evaluate scope test) (evaluate body scope) fuel .nil
  | _ => call.failArity 2

/-- Makes a function of a list of symbols and a body. -/
def lambda (call : Call) : Eval H (Value H) :=
  match call.args with
  | [list, body] =>
    match list.form? with
    | none => Eval.fail .parameterNotSymbol list.span
    | some form => do
      let ids ← Eval.check (Element.parameters form.elements)
      let function ← Eval.make fun env => env.newFunction ids body
      pure (.function function)
  | _ => call.failArity 2

/-- Evaluates one or more elements in order. -/
def sequence (call : Call) (evaluate : Evaluator H) (scope : ScopeId) : Eval H (Value H) := do
  Eval.check (call.expectAtLeast 1)
  Eval.inOrder evaluate scope .nil call.args

end Call

/-- Does a call of a special form. Only loops take fuel of their own. -/
def SpecialForm.perform (form : SpecialForm) (fuel : Nat) (evaluate : Evaluator H) (call : Call)
    (scope : ScopeId) : Eval H (Value H) :=
  match form with
  | assign => call.assign evaluate scope
  | branch => call.branch evaluate scope
  | loop => call.loop fuel evaluate scope
  | lambda => call.lambda
  | sequence => call.sequence evaluate scope

end BracketLisp
