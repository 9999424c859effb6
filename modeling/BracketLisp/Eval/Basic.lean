import BracketLisp.Environment

/-!
# `BracketLisp.Eval.Basic`: evaluations, calls and hosts

An `Eval H α` turns an environment into a result and the environment afterwards. The
result is a value of type `α` or the reason why there is none, and the environment
keeps what was done before a fault.

Evaluation is not bounded by the size of a program, so it runs on fuel: a number that
every descent into an element and every round of a loop lowers by one. Running out of
it is told apart from all faults of the program.

* The view of an `Eval` is `Eval.apply`, which gives it an environment. The lemmas
  `apply_pure`, `apply_bind` and their like say what each way to build one does.
* An `Evaluator` gives elements their values in a scope.
* A `Call` is a list with a head, as natives get it.
* A `Host` says what the operations of the host do.
-/

set_option autoImplicit false

namespace BracketLisp

/-- Why an evaluation has no value. -/
inductive Halt where
  /-- The program is at fault. -/
  | fault (error : EvalError)
  /-- The fuel was not enough. -/
  | outOfFuel
deriving DecidableEq, Repr

/-- A computation that reads and changes the environment, and may halt early. -/
abbrev Eval (H : Type) : Type → Type :=
  ExceptT Halt (StateM (Environment H))

/-- The way to the values of elements. -/
abbrev Evaluator (H : Type) : Type :=
  Element → ScopeId → Eval H (Value H)

namespace Eval

variable {H α : Type}

/-- What the computation makes of an environment. -/
def apply (action : Eval H α) (env : Environment H) : Except Halt α × Environment H :=
  action.run.run env

/-- Halts with a fault at a place. -/
def fail (fault : EvalFault) (span : Position) : Eval H α :=
  throw (.fault ⟨fault, span⟩)

/-- Goes on with the outcome of a check. -/
def check : Except EvalError α → Eval H α
  | .ok a => pure a
  | .error error => throw (.fault error)

/-- Does a computation in a new local scope, which is closed afterwards, also after a
fault. -/
def inNewScope (bindings : Scope (Value H)) (action : ScopeId → Eval H α) : Eval H α :=
  fun env =>
    let (scope, env) := env.openScope bindings
    let (result, env) := (action scope).apply env
    (result, env.closeScope)

/-- Does a step of the environment that makes something. -/
def make (step : Environment H → α × Environment H) : Eval H α :=
  modifyGet step

/-- Binds a symbol in a scope. -/
def assign (scope : ScopeId) (id : SymbolId) (value : Value H) : Eval H Unit :=
  modify fun env => env.set scope id value

/-- The value of a symbol that stands at `span`. -/
def lookup (id : SymbolId) (span : Position) (scope : ScopeId) : Eval H (Value H) := do
  let env ← get
  match env.get? scope id with
  | some value => pure value
  | none => fail (.undefinedSymbol (env.symbols.label id)) span

/-! ### What the steps do to an environment -/

@[simp]
theorem apply_pure (a : α) (env : Environment H) :
    (pure a : Eval H α).apply env = (.ok a, env) :=
  rfl

@[simp]
theorem apply_throw (halt : Halt) (env : Environment H) :
    (throw halt : Eval H α).apply env = (.error halt, env) :=
  rfl

@[simp]
theorem apply_fail (fault : EvalFault) (span : Position) (env : Environment H) :
    (fail fault span : Eval H α).apply env = (.error (.fault ⟨fault, span⟩), env) :=
  rfl

/-- The second step goes on where the first one ends, unless that one halts. -/
theorem apply_bind {β : Type} (action : Eval H α) (next : α → Eval H β) (env : Environment H) :
    (action >>= next).apply env =
      match action.apply env with
      | (.ok a, env) => (next a).apply env
      | (.error halt, env) => (.error halt, env) := by
  change (match action.apply env with
    | (result, env) => ExceptT.bindCont next result env) = _
  generalize action.apply env = outcome
  obtain ⟨result, after⟩ := outcome
  cases result <;> rfl

@[simp]
theorem apply_check_ok (a : α) (env : Environment H) :
    (check (.ok a) : Eval H α).apply env = (.ok a, env) :=
  rfl

@[simp]
theorem apply_check_error (error : EvalError) (env : Environment H) :
    (check (.error error) : Eval H α).apply env = (.error (.fault error), env) :=
  rfl

@[simp]
theorem apply_get (env : Environment H) :
    (get : Eval H (Environment H)).apply env = (.ok env, env) :=
  rfl

@[simp]
theorem apply_make (step : Environment H → α × Environment H) (env : Environment H) :
    (make step).apply env = (.ok (step env).1, (step env).2) :=
  rfl

@[simp]
theorem apply_assign (scope : ScopeId) (id : SymbolId) (value : Value H) (env : Environment H) :
    (assign scope id value).apply env = (.ok (), env.set scope id value) :=
  rfl

/-- A computation in a new scope runs in the environment in which that scope is open,
and closes it whatever the result. -/
theorem apply_inNewScope (bindings : Scope (Value H)) (action : ScopeId → Eval H α)
    (env : Environment H) :
    (inNewScope bindings action).apply env =
      (((action (env.openScope bindings).1).apply (env.openScope bindings).2).1,
        ((action (env.openScope bindings).1).apply (env.openScope bindings).2).2.closeScope) :=
  rfl

/-- A symbol has the value that it is bound to, and the environment stays as it is. -/
theorem apply_lookup (id : SymbolId) (span : Position) (scope : ScopeId) (env : Environment H) :
    (lookup id span scope).apply env =
      match env.get? scope id with
      | some value => (.ok value, env)
      | none => (.error (.fault ⟨.undefinedSymbol (env.symbols.label id), span⟩), env) := by
  rw [lookup, apply_bind, apply_get]
  dsimp only
  cases env.get? scope id <;> rfl

end Eval

/-! ### Calls -/

/-- A list that is not empty: what is called, and what it is called with. -/
structure Call where
  bracket : Bracket
  head : Element
  args : List Element
  span : Position

namespace Call

/-- The list as a form. -/
def form (call : Call) : Form :=
  ⟨call.bracket, call.head :: call.args, call.span⟩

/-- The error for a call that does not have exactly `expected` arguments. -/
def arityError (call : Call) (expected : Nat) : EvalError :=
  ⟨.arityMismatch expected call.args.length, call.span⟩

/-- The error for a call that has fewer than `minimum` arguments. -/
def tooFewError (call : Call) (minimum : Nat) : EvalError :=
  ⟨.tooFewArguments minimum call.args.length, call.span⟩

/-- Checks that there are exactly `expected` arguments. -/
def expectExactly (call : Call) (expected : Nat) : Except EvalError Unit :=
  if call.args.length = expected then .ok () else .error (call.arityError expected)

/-- Checks that there are `minimum` arguments or more. -/
def expectAtLeast (call : Call) (minimum : Nat) : Except EvalError Unit :=
  if minimum ≤ call.args.length then .ok () else .error (call.tooFewError minimum)

/-- The element at an index, where the head has the index zero. -/
def element (call : Call) (index : Nat) : Except EvalError Element :=
  match call.form.elements[index]? with
  | some element => .ok element
  | none => .error (call.arityError index)

end Call

/-- The list as a call, unless it is empty. -/
def Form.call? : Form → Option Call
  | ⟨bracket, head :: args, span⟩ => some ⟨bracket, head, args, span⟩
  | ⟨_, [], _⟩ => none

namespace Eval

variable {H : Type}

/-- The value of an element together with its place. -/
def located (evaluate : Evaluator H) (scope : ScopeId) (element : Element) :
    Eval H (Located (Value H)) := do
  let value ← evaluate element scope
  pure ⟨value, element.span⟩

/-- The values of elements from left to right, up to the first fault. -/
def all (evaluate : Evaluator H) (scope : ScopeId) :
    List Element → Eval H (List (Located (Value H)))
  | [] => pure []
  | element :: others => do
    let value ← located evaluate scope element
    let values ← all evaluate scope others
    pure (value :: values)

end Eval

/-! ### Hosts -/

/-- Says what the operations `H` of a host do with a call, given the way to evaluate
its elements and the scope that it stands in. -/
class Host (H : Type) where
  perform : H → Evaluator H → Call → ScopeId → Eval H (Value H)

/-- The host that adds nothing. -/
instance : Host Empty where
  perform operation := nomatch operation

end BracketLisp
