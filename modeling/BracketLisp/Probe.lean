import BracketLisp.Eval.SpecialForm
import BracketLisp.Form.Outline

/-!
# `BracketLisp.Probe`: a host that looks into calls

`Probe` is a host whose operations show what a native gets to see and may do: the
elements of its call, their places and values, the scope of the call, and the symbols
and bindings of the environment. It serves to observe sessions from the inside.
-/

set_option autoImplicit false

namespace BracketLisp

/-- An operation that observes its call or acts on the environment. -/
inductive Probe where
  /-- The value of the element at an index. -/
  | value (index : Nat)
  /-- The place of the element at an index, as text. -/
  | place (index : Nat)
  /-- How many of exactly `count` arguments are numbers. -/
  | numbers (count : Nat)
  /-- The values of `minimum` or more arguments from the last to the first, which is
  the result. -/
  | backwards (minimum : Nat)
  /-- The outline of the call, behind `indent` spaces. -/
  | outline (indent : Nat)
  /-- The name of the symbol that stands first among the arguments. -/
  | spelling
  /-- Whether the call stands in the root. -/
  | isRoot
  /-- Binds the text of the first argument to `number`, in the scope of the call. -/
  | bind (number : Int64)
  /-- Binds the text of the first argument to `number`, in the root. -/
  | bindRoot (number : Int64)
  /-- Registers a native that gives `number` under the text of the first argument. -/
  | define (number : Int64)
  /-- The value of the first argument in a new scope. -/
  | isolated
  /-- Gives a number, whatever the call looks like. -/
  | constant (number : Int64)
deriving DecidableEq, Repr

namespace Probe

/-- The value of the element at an index. -/
def valueAt (evaluate : Evaluator Probe) (call : Call) (scope : ScopeId) (index : Nat) :
    Eval Probe (Value Probe) := do
  let element ← Eval.check (call.element index)
  evaluate element scope

/-- The name of the symbol that stands first among the arguments, or the wording that
its number is unknown. Any other argument has none, and neither has its absence. -/
def spellingOf (symbols : SymbolTable) (call : Call) : Value Probe :=
  match call.args.head?.bind Element.symbol? with
  | none => .nil
  | some id =>
    match symbols.nameOf id with
    | .ok name => .string name
    | .error unknown => .string unknown.message

/-- Binds the text of a value to a number. -/
def bindText (scope : ScopeId) (value : Value Probe) (number : Int64) :
    Eval Probe (Value Probe) := do
  let id ← Eval.make fun env => env.intern value.text
  Eval.assign scope id (.int number)
  pure .nil

/-- Does a call of a probe. -/
def perform (probe : Probe) (evaluate : Evaluator Probe) (call : Call) (scope : ScopeId) :
    Eval Probe (Value Probe) :=
  match probe with
  | value index => valueAt evaluate call scope index
  | place index => do
    let element ← Eval.check (call.element index)
    pure (.string element.span.text)
  | numbers count => do
    Eval.check (call.expectExactly count)
    let values ← Eval.all evaluate scope call.args
    pure (.int (Int64.ofNat (values.countP fun operand => operand.value.isNumeric)))
  | backwards minimum => do
    Eval.check (call.expectAtLeast minimum)
    Eval.inOrder evaluate scope .nil call.args.reverse
  | outline indent => do
    let env ← get
    pure (.string (call.form.outline env.symbols indent))
  | spelling => do
    let env ← get
    pure (spellingOf env.symbols call)
  | isRoot => pure (.bool scope.isRoot)
  | bind number => do
    let value ← valueAt evaluate call scope 1
    bindText scope value number
  | bindRoot number => do
    let value ← valueAt evaluate call scope 1
    bindText .root value number
  | define number => do
    let value ← valueAt evaluate call scope 1
    let _ ← Eval.make fun env => env.register value.text (.host (constant number))
    pure .nil
  | isolated => do
    let element ← Eval.check (call.element 1)
    Eval.inNewScope .empty fun inner => evaluate element inner
  | constant number => pure (.int number)

end Probe

instance : Host Probe where
  perform := Probe.perform

end BracketLisp
