import BracketLisp.Proofs.Eval.Blame
import BracketLisp.Proofs.Eval.Fuel

/-!
# `BracketLisp.Proofs.Eval.Operands`: calls on known operands

What a call of an operation of the catalog results in depends on the values of its arguments
alone. So a law about operations is a fact about `ArgumentFold.Decides`, which knows neither
elements nor environments, and this module leads from there to calls.

* `Reaches.decides` puts what an operation makes of some operands behind those that it goes on
  after.
* `Operation.Gets` says that the first arguments of a call are some operands. `Gets.result` is the
  result of a call whose operands decide it: the arguments behind these are not evaluated.
* `Operation.Gives` says that all calls on some operands have one outcome. There are such calls
  (`exists_gets`), so operands have at most one outcome (`Gives.unique`).
-/

set_option autoImplicit false

namespace BracketLisp

variable {H : Type}

/-! ### Rows with values -/

/-- A row of elements with values begins with an element that has one. -/
theorem Passes.of_cons {evaluate : Evaluator H} {scope : ScopeId} {env after : Environment H}
    {element : Element} {others : List Element} {value : Value H} {values : List (Value H)}
    (h : Passes evaluate scope env (element :: others) (.ok (value :: values)) after) :
    ∃ mid, (evaluate element scope).apply env = (.ok value, mid) ∧
      Passes evaluate scope mid others (.ok values) after := by
  generalize hpassed : Except.ok (value :: values) = passed at h
  cases h with
  | @next _ _ _ mid _ found result h hothers =>
    cases result with
    | error halt => cases hpassed
    | ok later =>
      cases hpassed
      exact ⟨mid, h, hothers⟩
  | halts => cases hpassed

/-- Operands whose values end with some value end with an operand that has it. -/
theorem Located.concat_of_map {α : Type} {operands : List (Located α)} {values : List α} {last : α}
    (h : operands.map Located.value = values ++ [last]) :
    ∃ front operand, operands = front ++ [operand] ∧ front.map Located.value = values ∧
      operand.value = last := by
  obtain ⟨front, rest, rfl, hfront, hrest⟩ := List.map_eq_append_iff.1 h
  obtain ⟨operand, rfl, hlast⟩ := List.map_eq_singleton_iff.1 hrest
  exact ⟨front, operand, rfl, hfront, hlast⟩

/-! ### Operands and what they decide -/

namespace ArgumentFold

variable {fold : ArgumentFold H} {state later : fold.State} {count : Nat}
  {operands before behind : List (Located (Value H))} {outcome : Except EvalError (Value H)}

theorem Reaches.concat {mid : fold.State} {operand : Located (Value H)}
    (h : fold.Reaches state operands mid) (hstep : fold.step mid operand = .ok (.next later)) :
    fold.Reaches state (operands ++ [operand]) later := by
  induction h with
  | done state => exact .next hstep (.done later)
  | next h _ ih => exact .next h (ih hstep)

/-- Operands that an operation goes on after leave the result to those behind them. -/
theorem Reaches.decides (h : fold.Reaches state before later)
    (hbehind : fold.Decides later count behind outcome) :
    fold.Decides state (before.length + count) (before ++ behind) outcome := by
  induction h with
  | done state =>
    rw [List.length_nil, Nat.zero_add]
    exact hbehind
  | @next state mid later operand operands h _ ih =>
    rw [List.length_cons, Nat.add_right_comm]
    exact .next h (ih hbehind)

/-- An operation that goes on after all operands finishes in the last state. -/
theorem Reaches.finishes (h : fold.Reaches state operands later) :
    fold.Decides state operands.length operands (fold.finish later) := by
  have hdecides := h.decides (.finish later)
  rwa [List.append_nil, Nat.add_zero] at hdecides

/-- An operation on one operand computes its function from it. -/
theorem unary_decides (f : Located (Value H) → Except EvalError (Value H))
    (operand : Located (Value H)) : (unary f).Decides () 1 [operand] (f operand) := by
  have hstep : (unary f).step () operand = (f operand).map .stop := rfl
  cases hf : f operand with
  | error error => exact .refuse 0 (by rw [hstep, hf]; rfl)
  | ok result => exact .stop 0 (by rw [hstep, hf]; rfl)

/-- An operation on two operands computes its function from them. -/
theorem binary_decides
    (f : Located (Value H) → Located (Value H) → Except EvalError (Value H))
    (left right : Located (Value H)) :
    (binary f).Decides none 2 [left, right] (f left right) := by
  have hstep : (binary f).step (some left) right = (f left right).map .stop := rfl
  have hright : (binary f).Decides (some left) 1 [right] (f left right) := by
    cases hf : f left right with
    | error error => exact .refuse 0 (by rw [hstep, hf]; rfl)
    | ok result => exact .stop 0 (by rw [hstep, hf]; rfl)
  exact .next rfl hright

/-- An operation takes the value of its next argument, and then it halts, stops or goes on. -/
theorem consume_cons {evaluate : Evaluator H} {scope : ScopeId} {env mid : Environment H}
    {argument : Element} {operand : Located (Value H)}
    (hvalue : (evaluate argument scope).apply env = (.ok operand.value, mid))
    (hspan : operand.span = argument.span) (state : fold.State) (others : List Element) :
    (fold.consume evaluate scope state (argument :: others)).apply env =
      match fold.step state operand with
      | .error error => (.error (.fault error), mid)
      | .ok (.stop result) => (.ok result, mid)
      | .ok (.next later) => (fold.consume evaluate scope later others).apply mid := by
  have hoperand : (⟨operand.value, argument.span⟩ : Located (Value H)) = operand := by rw [← hspan]
  simp only [consume, Eval.apply_bind, Eval.apply_located, hvalue, Except.map, hoperand]
  cases fold.step state operand with
  | error error => rfl
  | ok verdict => cases verdict <;> rfl

/-- An operation halts with its next argument. -/
theorem consume_of_halt {evaluate : Evaluator H} {scope : ScopeId} {env mid : Environment H}
    {argument : Element} {halt : Halt}
    (h : (evaluate argument scope).apply env = (.error halt, mid)) (state : fold.State)
    (others : List Element) :
    (fold.consume evaluate scope state (argument :: others)).apply env = (.error halt, mid) := by
  simp only [consume, Eval.apply_bind, Eval.apply_located, h, Except.map]

/-- Arguments whose values decide a result are all that an operation evaluates. -/
theorem Decides.apply_consume {evaluate : Evaluator H} {scope : ScopeId}
    {env after : Environment H} {args : List Element}
    (h : fold.Decides state args.length operands outcome)
    (hspans : operands.map Located.span = (args.take operands.length).map Element.span)
    (hpasses : Passes evaluate scope env (args.take operands.length)
      (.ok (operands.map Located.value)) after) :
    (fold.consume evaluate scope state args).apply env = (outcome.mapError .fault, after) := by
  generalize hcount : args.length = count at h
  induction h generalizing args env with
  | finish state =>
    obtain rfl : args = [] := List.eq_nil_of_length_eq_zero hcount
    cases hpasses
    rw [consume]
    cases fold.finish state <;> rfl
  | refuse count h | stop count h =>
    obtain ⟨argument, others, rfl⟩ := List.exists_cons_of_length_eq_add_one hcount
    obtain ⟨mid, hargument, hnone⟩ := hpasses.of_cons
    cases hnone
    rw [consume_cons hargument (List.head_eq_of_cons_eq hspans), h]
    rfl
  | next h _ ih =>
    obtain ⟨argument, others, rfl⟩ := List.exists_cons_of_length_eq_add_one hcount
    obtain ⟨mid, hargument, hothers⟩ := hpasses.of_cons
    rw [consume_cons hargument (List.head_eq_of_cons_eq hspans), h]
    exact ih (List.tail_eq_of_cons_eq hspans) hothers (Nat.add_right_cancel hcount)

end ArgumentFold

/-! ### Calls of operations -/

namespace Operation

/-- Whether a call is one of an operation of the catalog, and its first arguments, evaluated in a
row after the head, are these operands. -/
structure Gets (operation : Operation) (evaluate : Evaluator H) (call : Call) (scope : ScopeId)
    (env : Environment H) (operands : List (Located (Value H))) (after : Environment H) :
    Prop where
  /-- The head gives the operation, and the arguments behind it have the values. -/
  passes : ∃ (native : Native H) (mid : Environment H),
    native.action = .catalog (.operation operation) ∧
      (evaluate call.head scope).apply env = (.ok (.native native), mid) ∧
      Passes evaluate scope mid (call.args.take operands.length)
        (.ok (operands.map Located.value)) after
  /-- The operands stand where the arguments stand. -/
  spans : operands.map Located.span = (call.args.take operands.length).map Element.span

variable {operation : Operation} {evaluate : Evaluator H} {call : Call} {scope : ScopeId}
  {env after : Environment H} {operands before behind : List (Located (Value H))}
  {outcome : Except EvalError (Value H)}

/-- A call of a symbol that is bound to an operation gets the values of its first arguments. -/
theorem gets_of_get? [Host H] {fuel : Nat} {id : SymbolId} {native : Native H} {bracket : Bracket}
    {place span : Position} {args : List Element}
    (hnative : env.get? scope id = some (.native native))
    (haction : native.action = .catalog (.operation operation))
    (hpasses : Passes (eval (fuel + 1)) scope env (args.take operands.length)
      (.ok (operands.map Located.value)) after)
    (hspans : operands.map Located.span = (args.take operands.length).map Element.span) :
    operation.Gets (eval (fuel + 1)) ⟨bracket, .symbol id place, args, span⟩ scope env operands
      after :=
  have hhead := Element.apply_step_symbol fuel (eval fuel) hnative place
  ⟨⟨native, env, haction, hhead, hpasses⟩, hspans⟩

/-- In a new session, a call by the name of an operation gets the values of its first arguments. -/
theorem gets_full [Host H] {fuel owner : Nat} {met : List String} {name : String}
    {bracket : Bracket} {place span : Position} {args : List Element}
    (hname : (name, .operation operation) ∈ catalog)
    (hpasses : Passes (eval (fuel + 1)) .root (.full owner) (args.take operands.length)
      (.ok (operands.map Located.value)) after)
    (hspans : operands.map Located.span = (args.take operands.length).map Element.span) :
    operation.Gets (eval (fuel + 1)) ⟨bracket, .symbol (numberOf met name) place, args, span⟩ .root
      (.full owner) operands after := by
  obtain ⟨native, hbinds, haction⟩ := Environment.offers_full (H := H) owner hname
  exact gets_of_get? (hbinds.get?_numberOf met) haction hpasses hspans

/-- A call gets no more operands than it has arguments. -/
theorem Gets.length_le (h : operation.Gets evaluate call scope env operands after) :
    operands.length ≤ call.args.length := by
  have hlength := congrArg List.length h.spans
  rw [List.length_map, List.length_map, List.length_take] at hlength
  omega

/-- A call that gets some operands gets the first of them, at an earlier time. -/
theorem Gets.front (h : operation.Gets evaluate call scope env (before ++ behind) after) :
    ∃ mid, operation.Gets evaluate call scope env before mid := by
  obtain ⟨native, start, haction, hhead, hpasses⟩ := h.passes
  obtain ⟨mid, hfront⟩ := hpasses.take before.length
  refine ⟨mid, ⟨native, start, haction, hhead, ?_⟩,
    spans_of_prefix h.spans (List.prefix_append before behind)⟩
  rwa [List.take_take, Nat.min_eq_left (by simp), List.map_append,
    List.take_left' (List.length_map _)] at hfront

/-- A call of an operation with an admissible number of arguments is its fold over them. -/
theorem apply_step [Host H] (fuel : Nat) {native : Native H} {mid : Environment H}
    (haction : native.action = .catalog (.operation operation))
    (hhead : (evaluate call.head scope).apply env = (.ok (.native native), mid))
    (hadmits : operation.arity.Admits call.args.length) :
    (Element.step fuel evaluate call.form.element scope).apply env =
      (operation.fold.consume evaluate scope operation.fold.start call.args).apply mid := by
  rw [Call.apply_entry fuel haction hhead]
  exact perform_of_admits hadmits evaluate scope mid

/-- A call whose operands decide a result has this result. The arguments behind these operands
are not evaluated, and nothing but the evaluation of the others changes the environment. With
`eval fuel` for `evaluate`, the step is `eval (fuel + 1)`. -/
theorem Gets.result [Host H] (fuel : Nat)
    (h : operation.Gets evaluate call scope env operands after)
    (hadmits : operation.arity.Admits call.args.length)
    (hdecides : operation.fold.Decides operation.fold.start call.args.length operands outcome) :
    (Element.step fuel evaluate call.form.element scope).apply env =
      (outcome.mapError .fault, after) := by
  obtain ⟨native, mid, haction, hhead, hpasses⟩ := h.passes
  rw [apply_step fuel haction hhead hadmits]
  exact hdecides.apply_consume h.spans hpasses

/-- Whether all calls of an operation on some operands have one outcome, and do nothing but
evaluate their heads and arguments. -/
def Gives [Host H] (operation : Operation) (operands : List (Located (Value H)))
    (outcome : Except EvalError (Value H)) : Prop :=
  ∀ (fuel : Nat) (evaluate : Evaluator H) (call : Call) (scope : ScopeId)
    (env after : Environment H), operation.Gets evaluate call scope env operands after →
      call.args.length = operands.length →
      (Element.step fuel evaluate call.form.element scope).apply env =
        (outcome.mapError .fault, after)

/-- Any operands are those of some call. -/
theorem exists_gets (operation : Operation) (operands : List (Located (Value H))) :
    ∃ (evaluate : Evaluator H) (call : Call) (scope : ScopeId) (env after : Environment H),
      operation.Gets evaluate call scope env operands after ∧
        call.args.length = operands.length := by
  -- The script has the operation for the head and the values of the operands for the arguments.
  let native : Native H := ⟨⟨0, 0⟩, "", .catalog (.operation operation)⟩
  let args : List Element := operands.map fun operand => .int 0 operand.span
  let call : Call := ⟨.paren, .int 0 ⟨"", 0, 0⟩, args, ⟨"", 0, 0⟩⟩
  let script : List (Value H) := .native native :: operands.map Located.value
  let start : Environment H := { Environment.bare 0 with functions := 1 }
  have hlength : call.args.length = operands.length := List.length_map _
  obtain ⟨after, hpasses⟩ := scripted_passes script .root call.args start (by
    show 1 + args.length = (operands.map Located.value).length + 1
    rw [hlength, List.length_map, Nat.add_comm])
  refine ⟨scripted script, call, .root, .bare 0, after, ⟨⟨native, start, rfl, rfl, ?_⟩, ?_⟩,
    hlength⟩
  · rw [← hlength, List.take_length]
    exact hpasses
  · rw [← hlength, List.take_length, List.map_map]
    rfl

/-- An operation gives one thing for its operands. -/
theorem Gives.unique [Host H] {outcome' : Except EvalError (Value H)}
    (h : operation.Gives operands outcome) (h' : operation.Gives operands outcome') :
    outcome = outcome' := by
  obtain ⟨evaluate, call, scope, env, after, hgets, hlength⟩ := operation.exists_gets operands
  have heq := (h 0 evaluate call scope env after hgets hlength).symm.trans
    (h' 0 evaluate call scope env after hgets hlength)
  exact mapError_fault_inj (Prod.mk.inj heq).1

/-- An operation gives what its operands decide. -/
theorem gives_of_decides [Host H] (hadmits : operation.arity.Admits operands.length)
    (h : operation.fold.Decides operation.fold.start operands.length operands outcome) :
    operation.Gives operands outcome := by
  intro fuel evaluate call scope env after hgets hlength
  exact hgets.result fuel (hlength ▸ hadmits) (hlength ▸ h)

end Operation

end BracketLisp
