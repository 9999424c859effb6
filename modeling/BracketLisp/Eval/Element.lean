import BracketLisp.Eval.Arithmetic
import BracketLisp.Eval.Bits
import BracketLisp.Eval.Conversion
import BracketLisp.Eval.Logic
import BracketLisp.Eval.Order
import BracketLisp.Eval.SpecialForm

/-!
# `BracketLisp.Eval.Element`: the values of elements

Numbers and strings are their own values, and a symbol has the value it is bound to.
A list is a call: its head is evaluated first, and what it gives decides about the
rest. A function takes the values of all arguments, in a local scope of its own whose
only background is the root. A native gets the elements as they stand.

`eval` ties the knot. Everything before it takes the way to evaluate elements as an
argument.
-/

set_option autoImplicit false

namespace BracketLisp

variable {H : Type}

/-- What an operation of the catalog does with the values of its arguments. -/
def Operation.fold : Operation → ArgumentFold H
  | arithmetic op => op.fold
  | remainder => .binary remainderOf
  | compare comparison => .binary comparison.of
  | equal => equalFold
  | not => .unary negation
  | all => logicFold false
  | any => logicFold true
  | bitAnd => bitFold (· &&& ·)
  | bitOr => bitFold (· ||| ·)
  | bitXor => bitXorFold
  | shiftLeft => .binary (shiftOf BracketLisp.shiftLeft)
  | shiftRight => .binary (shiftOf BracketLisp.shiftRight)
  | concat => concatFold
  | toInt => .unary toIntOf
  | toFloat => .unary toFloatOf

/-- Does a call of an entry of the catalog. -/
def Builtin.perform (builtin : Builtin) (fuel : Nat) (evaluate : Evaluator H) (call : Call)
    (scope : ScopeId) : Eval H (Value H) :=
  match builtin with
  | .operation op => op.fold.perform evaluate call scope
  | .form special => special.perform fuel evaluate call scope

/-- Does a call of a function: the arguments are evaluated in the scope of the call,
and the body in a new scope that binds the parameters to them. -/
def Function.perform (function : Function) (evaluate : Evaluator H) (call : Call)
    (scope : ScopeId) : Eval H (Value H) := do
  Eval.check (call.expectExactly function.parameters.length)
  let values ← Eval.all evaluate scope call.args
  let bindings := Dictionary.empty.setAll (function.parameters.zip (values.map Located.value))
  Eval.inNewScope bindings fun inner => evaluate function.body inner

/-- Does a call of a native. -/
def Native.perform [Host H] (native : Native H) (fuel : Nat) (evaluate : Evaluator H)
    (call : Call) (scope : ScopeId) : Eval H (Value H) :=
  match native.action with
  | .catalog builtin => builtin.perform fuel evaluate call scope
  | .host operation => Host.perform operation evaluate call scope

/-- Does a call: its head has to be something to call. -/
def Call.perform [Host H] (call : Call) (fuel : Nat) (evaluate : Evaluator H)
    (scope : ScopeId) : Eval H (Value H) := do
  match ← evaluate call.head scope with
  | .function function => function.perform evaluate call scope
  | .native native => native.perform fuel evaluate call scope
  | other => Eval.fail (.notCallable other.kind) call.head.span

/-- One step of evaluation, with a way to evaluate what is inside the element. -/
def Element.step [Host H] (fuel : Nat) (evaluate : Evaluator H) : Evaluator H :=
  fun element scope =>
    match element with
    | .int value _ => pure (.int value)
    | .float value _ => pure (.float value)
    | .string content _ => pure (.string content)
    | .symbol id span => Eval.lookup id span scope
    | .list bracket elements span =>
      match Form.call? ⟨bracket, elements, span⟩ with
      | none => Eval.fail .emptyList span
      | some call => call.perform fuel evaluate scope

/-- A symbol that is bound has the value that it is bound to, and nothing else happens. -/
theorem Element.apply_step_symbol [Host H] (fuel : Nat) (evaluate : Evaluator H) {id : SymbolId}
    {scope : ScopeId} {env : Environment H} {value : Value H} (h : env.get? scope id = some value)
    (span : Position) :
    (Element.step fuel evaluate (.symbol id span) scope).apply env = (.ok value, env) := by
  show (Eval.lookup id span scope).apply env = _
  rw [Eval.apply_lookup, h]

/-- Behind its head, a call of an entry of the catalog is what the entry does. -/
theorem Call.apply_entry [Host H] (fuel : Nat) {evaluate : Evaluator H} {call : Call}
    {scope : ScopeId} {env mid : Environment H} {native : Native H} {entry : Builtin}
    (hentry : native.action = .catalog entry)
    (hhead : (evaluate call.head scope).apply env = (.ok (.native native), mid)) :
    (Element.step fuel evaluate call.form.element scope).apply env =
      (entry.perform fuel evaluate call scope).apply mid := by
  show (call.perform fuel evaluate scope).apply env = _
  rw [Call.perform, Eval.apply_bind, hhead]
  show (native.perform fuel evaluate call scope).apply mid = _
  rw [Native.perform, hentry]

/-- The value of an element in a scope, with fuel for that many levels of elements and
calls, and that many rounds of every loop. -/
def eval [Host H] : (fuel : Nat) → Evaluator H
  | 0 => fun _ _ => throw .outOfFuel
  | fuel + 1 => Element.step fuel (eval fuel)

end BracketLisp
