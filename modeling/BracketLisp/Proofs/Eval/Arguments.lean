import BracketLisp.Proofs.Environment.Catalog
import BracketLisp.Proofs.Simulation.Step

/-!
# `BracketLisp.Proofs.Eval.Arguments`: which arguments a call evaluates

A call of a function or of an operation of the catalog evaluates its head, and then its
arguments from left to right, each once, up to some argument. Nothing else that it does
before a body is entered touches the environment.

All statements are about one step of evaluation over any way to evaluate elements. So they
hold of `eval`, whose step with `fuel + 1` is that over `eval fuel`. They also hold over a way
that keeps a record of what it is asked for, and therefore tell not only what a call results
in but also what it evaluates.

* `Passes` says that elements are evaluated in a row, and `Eval.all_passes` that `Eval.all`
  does so with all of them.
* `ArgumentFold.Decides` says that the values of some arguments settle the result of an
  operation, and `ArgumentFold.Reaches` that it goes on after them.
* `ArgumentFold.consume_cases` finds that an operation evaluates just the arguments that settle
  its result, or those up to the first that halts.
* `Decides.all_of_collects`, `Decides.all_of_ok` and `logicFold_decides` count these
  arguments for the operations of the catalog.
* `call_passes_arguments` puts all of this together.
-/

set_option autoImplicit false

namespace BracketLisp

variable {H : Type}

/-! ### Elements in a row -/

/-- Whether elements are evaluated in a scope one after the other, each of them once, from an
environment to another. Either all have values, or the last of them halts. -/
inductive Passes (evaluate : Evaluator H) (scope : ScopeId) :
    Environment H → List Element → Except Halt (List (Value H)) → Environment H → Prop where
  | done (env : Environment H) : Passes evaluate scope env [] (.ok []) env
  | next {element : Element} {others : List Element} {env mid after : Environment H}
      {value : Value H} {result : Except Halt (List (Value H))}
      (h : (evaluate element scope).apply env = (.ok value, mid))
      (hothers : Passes evaluate scope mid others result after) :
      Passes evaluate scope env (element :: others) (result.map (value :: ·)) after
  | halts {element : Element} {env after : Environment H} {halt : Halt}
      (h : (evaluate element scope).apply env = (.error halt, after)) :
      Passes evaluate scope env [element] (.error halt) after

/-- Elements with values, and behind them one that halts, are a row that halts. -/
theorem Passes.concat_halts {evaluate : Evaluator H} {scope : ScopeId}
    {env mid after : Environment H} {elements : List Element} {values : List (Value H)}
    {last : Element} {halt : Halt} (h : Passes evaluate scope env elements (.ok values) mid)
    (hlast : (evaluate last scope).apply mid = (.error halt, after)) :
    Passes evaluate scope env (elements ++ [last]) (.error halt) after := by
  generalize hpassed : Except.ok values = passed at h
  induction h generalizing values with
  | done env => exact .halts hlast
  | @next element others env mid end' value result h _ ih =>
    cases result with
    | error halt => cases hpassed
    | ok later => exact .next h (ih hlast rfl)
  | halts h => cases hpassed

section

variable (evaluate : Evaluator H) (scope : ScopeId)

/-- The value of an element, with its place, is that of evaluating it. -/
theorem Eval.apply_located (element : Element) (env : Environment H) :
    (Eval.located evaluate scope element).apply env =
      (((evaluate element scope).apply env).1.map fun value => ⟨value, element.span⟩,
        ((evaluate element scope).apply env).2) := by
  rw [Eval.located, Eval.apply_bind]
  generalize (evaluate element scope).apply env = outcome
  obtain ⟨result, after⟩ := outcome
  cases result <;> rfl

/-- All elements are evaluated in a row, up to the first that halts. -/
theorem Eval.all_passes (elements : List Element) (env : Environment H) :
    ∃ count passed after, count ≤ elements.length ∧
      Passes evaluate scope env (elements.take count) passed after ∧
      ((∃ halt, passed = .error halt ∧ 0 < count ∧
          (Eval.all evaluate scope elements).apply env = (.error halt, after)) ∨
        ∃ operands : List (Located (Value H)), passed = .ok (operands.map Located.value) ∧
          count = elements.length ∧
          (Eval.all evaluate scope elements).apply env = (.ok operands, after)) := by
  induction elements generalizing env with
  | nil => exact ⟨0, .ok [], env, Nat.le_refl 0, .done env, .inr ⟨[], rfl, rfl, rfl⟩⟩
  | cons element others ih =>
    simp only [Eval.all, Eval.apply_bind, Eval.apply_located]
    cases helement : (evaluate element scope).apply env with
    | mk result mid =>
      cases result with
      | error halt =>
        exact ⟨1, .error halt, mid, by simp, .halts helement, .inl ⟨halt, rfl, by omega, rfl⟩⟩
      | ok value =>
        obtain ⟨count, passed, after, hcount, hpasses, hall⟩ := ih mid
        refine ⟨count + 1, passed.map (value :: ·), after, by simpa using hcount,
          .next helement hpasses, ?_⟩
        rcases hall with ⟨halt, rfl, -, hall⟩ | ⟨operands, rfl, rfl, hall⟩
        · exact .inl ⟨halt, rfl, by omega, by simp [Except.map, hall]⟩
        · exact .inr ⟨⟨value, element.span⟩ :: operands, rfl, rfl, by simp [Except.map, hall]⟩

end

/-! ### The number of arguments -/

namespace Arity

/-- Whether a call may have that many arguments. -/
def Admits : Arity → Nat → Prop
  | exactly expected, count => count = expected
  | atLeast minimum, count => minimum ≤ count

/-- The fault of a call that may not have as many arguments as it has. -/
def fault : Arity → Nat → EvalFault
  | exactly expected, count => .arityMismatch expected count
  | atLeast minimum, count => .tooFewArguments minimum count

end Arity

/-- The number of arguments is checked against the arity, and a fault is that of the whole
call. -/
theorem Call.expect_cases (call : Call) (arity : Arity) :
    (arity.Admits call.args.length ∧ call.expect arity = .ok ()) ∨
      (¬ arity.Admits call.args.length ∧
        call.expect arity = .error ⟨arity.fault call.args.length, call.span⟩) := by
  cases arity with
  | exactly expected =>
    by_cases h : call.args.length = expected
    · exact .inl ⟨h, if_pos h⟩
    · exact .inr ⟨h, if_neg h⟩
  | atLeast minimum =>
    by_cases h : minimum ≤ call.args.length
    · exact .inl ⟨h, if_pos h⟩
    · exact .inr ⟨h, if_neg h⟩

/-! ### Operands that settle a result -/

namespace ArgumentFold

/-- Whether an operation in a state goes on after each of some operands, and is in another state
after the last. -/
inductive Reaches (fold : ArgumentFold H) :
    fold.State → List (Located (Value H)) → fold.State → Prop where
  | done (state : fold.State) : Reaches fold state [] state
  | next {state mid later : fold.State} {operand : Located (Value H)}
      {operands : List (Located (Value H))} (h : fold.step state operand = .ok (.next mid))
      (hothers : Reaches fold mid operands later) : Reaches fold state (operand :: operands) later

/-- Whether an operation in a state, with `count` arguments to come, has its result settled by
the values of the first of them, and by no fewer. -/
inductive Decides (fold : ArgumentFold H) :
    fold.State → (count : Nat) → List (Located (Value H)) → Except EvalError (Value H) → Prop where
  | finish (state : fold.State) : Decides fold state 0 [] (fold.finish state)
  | refuse {state : fold.State} {operand : Located (Value H)} {error : EvalError} (count : Nat)
      (h : fold.step state operand = .error error) :
      Decides fold state (count + 1) [operand] (.error error)
  | stop {state : fold.State} {operand : Located (Value H)} {result : Value H} (count : Nat)
      (h : fold.step state operand = .ok (.stop result)) :
      Decides fold state (count + 1) [operand] (.ok result)
  | next {state later : fold.State} {operand : Located (Value H)} {count : Nat}
      {operands : List (Located (Value H))} {outcome : Except EvalError (Value H)}
      (h : fold.step state operand = .ok (.next later))
      (hothers : Decides fold later count operands outcome) :
      Decides fold state (count + 1) (operand :: operands) outcome

/-- Whether an operation in a state, with `count` arguments to come, takes the values of all
but the last of them without a look at them. -/
def Collects (fold : ArgumentFold H) : fold.State → Nat → Prop
  | _, 0 | _, 1 => True
  | state, count + 2 => ∀ operand, ∃ later, fold.step state operand = .ok (.next later) ∧
      fold.Collects later (count + 1)

variable {fold : ArgumentFold H} {state : fold.State} {count : Nat}
  {operands : List (Located (Value H))} {outcome : Except EvalError (Value H)}

/-- Either an operation goes on after some operands and the next argument halts, or it has operands
that settle its result. These are the values of its first arguments, and evaluating these is all
that it does to the environment. -/
theorem consume_cases (fold : ArgumentFold H) (evaluate : Evaluator H) (scope : ScopeId)
    (state : fold.State) (args : List Element) (env : Environment H) :
    ∃ (operands : List (Located (Value H))) (mid : Environment H),
      operands.map Located.span = (args.take operands.length).map Element.span ∧
      Passes evaluate scope env (args.take operands.length)
        (.ok (operands.map Located.value)) mid ∧
      ((∃ later argument halt after, fold.Reaches state operands later ∧
          args[operands.length]? = some argument ∧
          (evaluate argument scope).apply mid = (.error halt, after) ∧
          (fold.consume evaluate scope state args).apply env = (.error halt, after)) ∨
        ∃ outcome, fold.Decides state args.length operands outcome ∧
          (fold.consume evaluate scope state args).apply env = (outcome.mapError .fault, mid)) := by
  induction args generalizing state env with
  | nil =>
    refine ⟨[], env, rfl, .done env, .inr ⟨_, .finish state, ?_⟩⟩
    rw [consume]
    cases fold.finish state <;> rfl
  | cons argument others ih =>
    simp only [consume, Eval.apply_bind, Eval.apply_located]
    cases hargument : (evaluate argument scope).apply env with
    | mk result mid =>
      cases result with
      | error halt =>
        exact ⟨[], env, rfl, .done env,
          .inl ⟨state, argument, halt, mid, .done state, rfl, hargument, rfl⟩⟩
      | ok value =>
        -- Here the value of this argument is taken, and it may settle the result.
        have hfirst : Passes evaluate scope env [argument] (.ok [value]) mid :=
          .next hargument (.done mid)
        cases hstep : fold.step state ⟨value, argument.span⟩ with
        | error error =>
          exact ⟨[⟨value, argument.span⟩], mid, rfl, hfirst,
            .inr ⟨_, .refuse _ hstep, by simp [Except.map, hstep]; rfl⟩⟩
        | ok verdict =>
          cases verdict with
          | stop result =>
            exact ⟨[⟨value, argument.span⟩], mid, rfl, hfirst,
              .inr ⟨_, .stop _ hstep, by simp [Except.map, hstep]; rfl⟩⟩
          | next later =>
            obtain ⟨operands, last, hspans, hpasses, hrest⟩ := ih later mid
            refine ⟨⟨value, argument.span⟩ :: operands, last,
              congrArg (argument.span :: ·) hspans, .next hargument hpasses, ?_⟩
            rcases hrest with ⟨goal, next, halt, after, hreaches, hnext, hhalts, hrest⟩ |
              ⟨outcome, hdecides, hrest⟩
            · exact .inl ⟨goal, next, halt, after, .next hstep hreaches, hnext, hhalts,
                by simp [Except.map, hstep, hrest]⟩
            · exact .inr ⟨outcome, .next hstep hdecides, by simp [Except.map, hstep, hrest]⟩

/-- An operation evaluates the arguments that settle its result, or those up to the first that
halts, and does nothing to the environment besides. -/
theorem consume_passes (fold : ArgumentFold H) (evaluate : Evaluator H) (scope : ScopeId)
    (state : fold.State) (args : List Element) (env : Environment H) :
    ∃ count passed after, count ≤ args.length ∧
      Passes evaluate scope env (args.take count) passed after ∧
      ((∃ halt, passed = .error halt ∧ 0 < count ∧
          (fold.consume evaluate scope state args).apply env = (.error halt, after)) ∨
        ∃ operands outcome, passed = .ok (operands.map Located.value) ∧
          operands.length = count ∧
          operands.map Located.span = (args.take count).map Element.span ∧
          fold.Decides state args.length operands outcome ∧
          (fold.consume evaluate scope state args).apply env =
            (outcome.mapError .fault, after)) := by
  obtain ⟨operands, mid, hspans, hpasses, hends⟩ :=
    fold.consume_cases evaluate scope state args env
  rcases hends with ⟨_, argument, halt, after, -, hargument, hhalts, hends⟩ |
    ⟨outcome, hdecides, hends⟩
  · obtain ⟨hlt, -⟩ := List.getElem?_eq_some_iff.1 hargument
    have hrow : Passes evaluate scope env (args.take (operands.length + 1)) (.error halt)
        after := by
      rw [List.take_add_one, hargument]
      exact hpasses.concat_halts hhalts
    exact ⟨_, _, after, hlt, hrow, .inl ⟨halt, rfl, Nat.succ_pos _, hends⟩⟩
  · have hlength := congrArg List.length hspans
    rw [List.length_map, List.length_map, List.length_take] at hlength
    exact ⟨operands.length, _, mid, by omega, hpasses,
      .inr ⟨operands, outcome, rfl, rfl, hspans, hdecides, hends⟩⟩

theorem Decides.length_pos (h : fold.Decides state count operands outcome) (hcount : 0 < count) :
    0 < operands.length := by
  cases h with
  | finish => omega
  | refuse | stop | next => simp

/-- An operation that looks at no value before the last has them all. -/
theorem Decides.all_of_collects (h : fold.Decides state count operands outcome)
    (hcollects : fold.Collects state count) : operands.length = count := by
  induction h with
  | finish => rfl
  | @refuse state operand error count h =>
    cases count with
    | zero => rfl
    | succ count =>
      obtain ⟨later, hnext, -⟩ := hcollects operand
      simp [h] at hnext
  | @stop state operand result count h =>
    cases count with
    | zero => rfl
    | succ count =>
      obtain ⟨later, hnext, -⟩ := hcollects operand
      simp [h] at hnext
  | @next state later operand count operands outcome h _ ih =>
    rw [List.length_cons, Nat.add_right_cancel_iff]
    cases count with
    | zero => exact ih trivial
    | succ count =>
      obtain ⟨other, hnext, hothers⟩ := hcollects operand
      rw [h, Except.ok.injEq, Verdict.next.injEq] at hnext
      exact ih (hnext ▸ hothers)

/-- An operation that never stops early has all values where it has a result. -/
theorem Decides.all_of_ok {value : Value H} (h : fold.Decides state count operands (.ok value))
    (hstop : ∀ state operand result, fold.step state operand ≠ .ok (.stop result)) :
    operands.length = count := by
  generalize houtcome : Except.ok value = outcome at h
  induction h with
  | finish => rfl
  | refuse => cases houtcome
  | stop count h => exact absurd h (hstop _ _ _)
  | next _ _ ih => rw [List.length_cons, ih houtcome]

/-- An operation that always goes on to the next value has them all. -/
theorem collects_of_next
    (h : ∀ state operand, ∃ later, fold.step state operand = .ok (.next later))
    (state : fold.State) (count : Nat) : fold.Collects state count := by
  induction count generalizing state with
  | zero => trivial
  | succ count ih =>
    cases count with
    | zero => trivial
    | succ count =>
      intro operand
      obtain ⟨later, hlater⟩ := h state operand
      exact ⟨later, hlater, ih later⟩

end ArgumentFold

/-! ### The operations of the catalog -/

/-- A check that leads on to a next state never stops. -/
theorem map_next_ne_stop {α σ ρ : Type} (check : Except EvalError α) (next : α → σ)
    (result : ρ) : (check.map fun a => Verdict.next (next a)) ≠ .ok (.stop result) := by
  intro h
  cases check <;> cases h

/-- A truth value as operand is one. -/
theorem value_of_boolOperand {operand : Located (Value H)} {value : Bool}
    (h : boolOperand operand = .ok value) : operand.value = .bool value := by
  unfold boolOperand at h
  split at h
  next found hfound =>
    obtain rfl := Except.ok.inj h
    exact hfound
  next => cases h

/-- An operation that stops at a decisive value and has a result has come to the first such
value, or to the end without one. -/
theorem logicFold_decides {decisive : Bool} {state : (logicFold (H := H) decisive).State}
    {count : Nat} {operands : List (Located (Value H))} {value : Value H}
    (h : (logicFold decisive).Decides state count operands (.ok value)) :
    (∃ earlier, operands.map Located.value = earlier ++ [.bool decisive] ∧
        .bool decisive ∉ earlier) ∨
      (.bool decisive ∉ operands.map Located.value ∧ operands.length = count) := by
  generalize houtcome : Except.ok value = outcome at h
  induction h with
  | finish => exact .inr ⟨List.not_mem_nil, rfl⟩
  | refuse => cases houtcome
  | @stop state operand result count h =>
    left
    simp only [logicFold] at h
    cases hoperand : boolOperand operand with
    | error error => simp [hoperand, Except.map] at h
    | ok found =>
      have hfound : found = decisive := by
        by_contra hne
        simp [hoperand, Except.map, hne] at h
      refine ⟨[], ?_, List.not_mem_nil⟩
      simp [value_of_boolOperand hoperand, hfound]
  | @next state later operand count operands outcome h _ ih =>
    simp only [logicFold] at h
    cases hoperand : boolOperand operand with
    | error error => simp [hoperand, Except.map] at h
    | ok found =>
      have hfound : decisive ≠ found := by
        rintro rfl
        simp [hoperand, Except.map] at h
      have hvalue := value_of_boolOperand hoperand
      rcases ih houtcome with ⟨earlier, hearlier, hnone⟩ | ⟨hnone, hlength⟩
      · refine .inl ⟨.bool found :: earlier, ?_, ?_⟩
        · rw [List.map_cons, hvalue, hearlier, List.cons_append]
        · simp [hfound, hnone]
      · refine .inr ⟨?_, ?_⟩
        · simpa [hvalue, hfound] using hnone
        · rw [List.length_cons, hlength]

namespace Operation

/-- How many arguments the operation takes. -/
def arity : Operation → Arity
  | remainder | compare _ | shiftLeft | shiftRight => .exactly 2
  | not | toInt | toFloat => .exactly 1
  | arithmetic _ | equal | all | any | bitAnd | bitOr => .atLeast 2
  | bitXor | concat => .atLeast 1

/-- The truth value at which the operation stops, if there is one. -/
def decisive? : Operation → Option Bool
  | all => some false
  | any => some true
  | _ => none

theorem arity_fold (operation : Operation) :
    (operation.fold : ArgumentFold H).arity = operation.arity := by
  cases operation <;> rfl

/-- No operation goes without arguments. -/
theorem pos_of_admits {operation : Operation} {count : Nat} (h : operation.arity.Admits count) :
    0 < count := by
  cases operation <;> simp [arity, Arity.Admits] at h <;> omega

/-- Operations with a fixed number of arguments look at none before the last, and neither do
equality and concatenation. -/
theorem collects_fold {operation : Operation} {count : Nat}
    (hpatient : (∃ expected, operation.arity = .exactly expected) ∨ operation = .equal ∨
      operation = .concat) (hadmits : operation.arity.Admits count) :
    (operation.fold : ArgumentFold H).Collects operation.fold.start count := by
  have hunary (f : Located (Value H) → Except EvalError (Value H)) :
      (ArgumentFold.unary f).Collects () 1 := trivial
  have hbinary (f : Located (Value H) → Located (Value H) → Except EvalError (Value H)) :
      (ArgumentFold.binary f).Collects none 2 := fun operand => ⟨some operand, rfl, trivial⟩
  cases operation with
  | remainder | compare | shiftLeft | shiftRight =>
    obtain rfl : count = 2 := hadmits
    exact hbinary _
  | not | toInt | toFloat =>
    obtain rfl : count = 1 := hadmits
    exact hunary _
  | equal | concat =>
    exact ArgumentFold.collects_of_next (fun state operand => ⟨_, rfl⟩) _ count
  | arithmetic | all | any | bitAnd | bitOr | bitXor => simp [arity] at hpatient

/-- Only a conjunction or disjunction has a result before it has all values. -/
theorem all_of_ok {operation : Operation} {count : Nat} {operands : List (Located (Value H))}
    {value : Value H} (hdecisive : operation.decisive? = none)
    (hadmits : operation.arity.Admits count)
    (h : operation.fold.Decides operation.fold.start count operands (.ok value)) :
    operands.length = count := by
  cases operation with
  | remainder | compare | shiftLeft | shiftRight | not | toInt | toFloat =>
    exact h.all_of_collects (collects_fold (.inl ⟨_, rfl⟩) hadmits)
  | equal | concat => exact h.all_of_collects (collects_fold (by simp) hadmits)
  | arithmetic op =>
    refine h.all_of_ok fun state operand result hstep => ?_
    simp only [fold, Arith.fold] at hstep
    split at hstep
    · split at hstep <;> cases hstep
    · exact map_next_ne_stop _ _ _ hstep
  | bitAnd | bitOr | bitXor =>
    exact h.all_of_ok fun state operand result => map_next_ne_stop _ _ _
  | all | any => cases hdecisive

/-- A conjunction or disjunction with a result has come to the first decisive value, or to the
end without one. -/
theorem decided_of_ok {operation : Operation} {decisive : Bool} {count : Nat}
    {operands : List (Located (Value H))} {value : Value H}
    (hdecisive : operation.decisive? = some decisive)
    (h : operation.fold.Decides operation.fold.start count operands (.ok value)) :
    (∃ earlier, operands.map Located.value = earlier ++ [.bool decisive] ∧
        .bool decisive ∉ earlier) ∨
      (.bool decisive ∉ operands.map Located.value ∧ operands.length = count) := by
  cases operation with
  | all | any =>
    obtain rfl := Option.some.inj hdecisive
    exact logicFold_decides h
  | _ => cases hdecisive

end Operation

/-! ### Calls -/

/-- What a call of an operation makes of the first `count` of its arguments, where `passed` is
what evaluating these in a row gave. -/
structure Operation.Takes (operation : Operation) (call : Call) (count : Nat)
    (passed : Except Halt (List (Value H))) (outcome : Except Halt (Value H)) : Prop where
  /-- If an argument halts, the call halts for the same cause. -/
  halts : ∀ halt, passed = .error halt → outcome = .error halt
  /-- A wrong number of arguments is found before any of them is evaluated. -/
  refused : ¬ operation.arity.Admits call.args.length → count = 0 ∧
    outcome = .error (.fault ⟨operation.arity.fault call.args.length, call.span⟩)
  /-- Otherwise at least one is evaluated. -/
  started : operation.arity.Admits call.args.length → 0 < count
  /-- A result takes all arguments, unless the operation may stop early. -/
  all : operation.decisive? = none → ∀ value, outcome = .ok value → count = call.args.length
  /-- An operation that may stop early does so at the first decisive value. -/
  first : ∀ decisive, operation.decisive? = some decisive → ∀ value, outcome = .ok value →
    ∃ values, passed = .ok values ∧
      ((∃ earlier, values = earlier ++ [.bool decisive] ∧ .bool decisive ∉ earlier) ∨
        (.bool decisive ∉ values ∧ count = call.args.length))
  /-- Some operations look at no value before they have them all, so that even a wrong one does
  not keep them from evaluating the others. -/
  collects : (∃ expected, operation.arity = .exactly expected) ∨ operation = .equal ∨
    operation = .concat → operation.arity.Admits call.args.length →
    ∀ values, passed = .ok values → count = call.args.length

/-- What a call of a function makes of the first `count` of its arguments, where `passed` is
what evaluating these in a row gave and `between` the environment after that. -/
structure Function.Takes (function : Function) (evaluate : Evaluator H) (call : Call)
    (count : Nat) (passed : Except Halt (List (Value H))) (between : Environment H)
    (result : Except Halt (Value H) × Environment H) : Prop where
  /-- If an argument halts, the call halts for the same cause. -/
  halts : ∀ halt, passed = .error halt → result = (.error halt, between)
  /-- A wrong number of arguments is found before any of them is evaluated. -/
  refused : call.args.length ≠ function.parameters.length → count = 0 ∧
    result = (.error (.fault ⟨.arityMismatch function.parameters.length call.args.length,
      call.span⟩), between)
  /-- Otherwise at least one is evaluated, if there is a parameter. -/
  started : call.args.length = function.parameters.length → function.parameters ≠ [] → 0 < count
  /-- The body is entered with the values of all arguments. -/
  entered : call.args.length = function.parameters.length → ∀ values, passed = .ok values →
    count = call.args.length ∧ result = (function.enter evaluate values).apply between

/-- An operation of the catalog takes its arguments as it should. -/
theorem Operation.perform_takes (operation : Operation) (evaluate : Evaluator H) (call : Call)
    (scope : ScopeId) (env : Environment H) :
    ∃ count passed outcome after, count ≤ call.args.length ∧
      Passes evaluate scope env (call.args.take count) passed after ∧
      (operation.fold.perform evaluate call scope).apply env = (outcome, after) ∧
      operation.Takes call count passed outcome := by
  rw [ArgumentFold.perform, Eval.apply_bind, operation.arity_fold]
  rcases call.expect_cases operation.arity with ⟨hadmits, hexpect⟩ | ⟨hadmits, hexpect⟩
  · rw [hexpect, Eval.apply_check_ok]
    obtain ⟨count, passed, after, hcount, hpasses, hconsume⟩ :=
      operation.fold.consume_passes evaluate scope operation.fold.start call.args env
    rcases hconsume with ⟨halt, rfl, hpos, hhalts⟩ |
      ⟨operands, outcome, rfl, rfl, -, hdecides, hends⟩
    · refine ⟨count, .error halt, .error halt, after, hcount, hpasses, hhalts, ?_⟩
      exact {
        halts := by
          rintro _ ⟨⟩
          rfl
        refused := fun h => absurd hadmits h
        started := fun _ => hpos
        all := fun _ _ h => by cases h
        first := fun _ _ _ h => by cases h
        collects := fun _ _ _ h => by cases h }
    · refine ⟨operands.length, _, _, after, hcount, hpasses, hends, ?_⟩
      have hresult (value : Value H) (hvalue : outcome.mapError Halt.fault = .ok value) :
          operation.fold.Decides operation.fold.start call.args.length operands (.ok value) := by
        cases outcome with
        | error error => cases hvalue
        | ok result =>
          obtain rfl := Except.ok.inj hvalue
          exact hdecides
      exact {
        halts := fun _ h => by cases h
        refused := fun h => absurd hadmits h
        started := fun _ => hdecides.length_pos (pos_of_admits hadmits)
        all := fun hdecisive value hvalue => all_of_ok hdecisive hadmits (hresult value hvalue)
        first := fun decisive hdecisive value hvalue =>
          ⟨_, rfl, decided_of_ok hdecisive (hresult value hvalue)⟩
        collects := fun hpatient _ _ _ =>
          hdecides.all_of_collects (collects_fold hpatient hadmits) }
  · rw [hexpect, Eval.apply_check_error]
    refine ⟨0, .ok [], _, env, Nat.zero_le _, .done env, rfl, ?_⟩
    exact {
      halts := fun _ h => by cases h
      refused := fun _ => ⟨rfl, rfl⟩
      started := fun h => absurd h hadmits
      all := fun _ _ h => by cases h
      first := fun _ _ _ h => by cases h
      collects := fun _ h => absurd h hadmits }

/-- A function takes its arguments as it should. -/
theorem Function.perform_takes (function : Function) (evaluate : Evaluator H) (call : Call)
    (scope : ScopeId) (env : Environment H) :
    ∃ count passed between, count ≤ call.args.length ∧
      Passes evaluate scope env (call.args.take count) passed between ∧
      function.Takes evaluate call count passed between
        ((function.perform evaluate call scope).apply env) := by
  rw [Function.perform, Eval.apply_bind]
  by_cases harity : call.args.length = function.parameters.length
  · rw [Call.expectExactly, if_pos harity, Eval.apply_check_ok]
    obtain ⟨count, passed, between, hcount, hpasses, hall⟩ :=
      Eval.all_passes evaluate scope call.args env
    refine ⟨count, passed, between, hcount, hpasses, ?_⟩
    show function.Takes evaluate call count passed between
      ((Eval.all evaluate scope call.args >>= fun operands =>
        function.enter evaluate (operands.map Located.value)).apply env)
    rw [Eval.apply_bind]
    rcases hall with ⟨halt, rfl, hpos, hhalts⟩ | ⟨operands, rfl, rfl, hends⟩
    · rw [hhalts]
      exact {
        halts := by
          rintro _ ⟨⟩
          rfl
        refused := fun h => absurd harity h
        started := fun _ _ => hpos
        entered := fun _ _ h => by cases h }
    · rw [hends]
      exact {
        halts := fun _ h => by cases h
        refused := fun h => absurd harity h
        started := fun _ hparameters => harity ▸ List.length_pos_iff.2 hparameters
        entered := by
          rintro _ _ ⟨⟩
          exact ⟨rfl, rfl⟩ }
  · rw [Call.expectExactly, if_neg harity, Eval.apply_check_error]
    refine ⟨0, .ok [], env, Nat.zero_le _, .done env, ?_⟩
    exact {
      halts := fun _ h => by cases h
      refused := fun _ => ⟨rfl, rfl⟩
      started := fun h => absurd h harity
      entered := fun h => absurd h harity }

/-- A call whose head is an operation of the catalog or a function evaluates, after the head,
the first of its arguments from left to right, each once and in the scope of the call, and no
others. If one of them halts, it is the last, and the call halts for the same cause. Up to the
end, or up to the point where the body of the function is entered, nothing else changes the
environment. How many arguments these are is told by `Operation.Takes` and `Function.Takes`.
With `eval fuel` for `evaluate`, the step is `eval (fuel + 1)`. -/
theorem call_passes_arguments [Host H] (fuel : Nat) (evaluate : Evaluator H) (call : Call)
    (scope : ScopeId) (env mid : Environment H) :
    (∀ (native : Native H) (operation : Operation),
      native.action = .catalog (.operation operation) →
      (evaluate call.head scope).apply env = (.ok (.native native), mid) →
      ∃ count passed outcome after, count ≤ call.args.length ∧
        Passes evaluate scope mid (call.args.take count) passed after ∧
        (Element.step fuel evaluate call.form.element scope).apply env = (outcome, after) ∧
        operation.Takes call count passed outcome) ∧
    ∀ function : Function,
      (evaluate call.head scope).apply env = (.ok (.function function), mid) →
      ∃ count passed between, count ≤ call.args.length ∧
        Passes evaluate scope mid (call.args.take count) passed between ∧
        function.Takes evaluate call count passed between
          ((Element.step fuel evaluate call.form.element scope).apply env) := by
  constructor
  · intro native operation haction hhead
    rw [Call.apply_entry fuel haction hhead]
    exact operation.perform_takes evaluate call scope mid
  · intro function hhead
    have hstep : Element.step fuel evaluate call.form.element scope =
        call.perform fuel evaluate scope := rfl
    rw [hstep, Call.perform, Eval.apply_bind, hhead]
    exact function.perform_takes evaluate call scope mid

/-- A disjunction stops at its second argument, which binds `x`, so that the third one does not
bind `y`. A function is made by the head of a call, before an argument binds `x`. -/
theorem call_passes_arguments_or :
    ∃ (choice apply : Call) (native : Native Empty) (f : Function)
      (after mid later : Environment Empty),
      native.action = .catalog (.operation .any) ∧
      (eval 5 choice.head .root).apply (.full 0) = (.ok (.native native), .full 0) ∧
      (eval 6 choice.form.element .root).apply (.full 0) = (.ok (.bool true), after) ∧
      (after.scope .root).get? (numberOf ["x", "y"] "x") = some (.bool true) ∧
      (after.scope .root).get? (numberOf ["x", "y"] "y") = none ∧
      (∃ (count : Nat) (passed : Except Halt (List (Value Empty)))
          (outcome : Except Halt (Value Empty)) (after : Environment Empty),
        count ≤ choice.args.length ∧
        Passes (eval 5) .root (.full 0) (choice.args.take count) passed after ∧
        (eval 6 choice.form.element .root).apply (.full 0) = (outcome, after) ∧
        Operation.any.Takes choice count passed outcome) ∧
      (eval 5 apply.head .root).apply (.full 0) = (.ok (.function f), mid) ∧
      (eval 6 apply.form.element .root).apply (.full 0) = (.ok (.int 1), later) ∧
      ∃ (count : Nat) (passed : Except Halt (List (Value Empty))) (between : Environment Empty),
        count ≤ apply.args.length ∧
        Passes (eval 5) .root mid (apply.args.take count) passed between ∧
        f.Takes (eval 5) apply count passed between (.ok (.int 1), later) := by
  let place : Position := ⟨"t", 1, 1⟩
  let symbol (name : String) : Element := .symbol (numberOf ["x", "y"] name) place
  let list (elements : List Element) : Element := .list .paren elements place
  let bind (name : String) (element : Element) : Element :=
    list [symbol "set", symbol name, element]
  let choice : Call := ⟨.paren, symbol "or",
    [symbol "false", bind "x" (symbol "true"), bind "y" (symbol "true")], place⟩
  let apply : Call :=
    ⟨.paren, list [symbol "func", list [symbol "y"], symbol "y"], [bind "x" (.int 1 place)], place⟩
  have hor : ("or", .operation .any) ∈ catalog := by decide
  obtain ⟨native, haction, hhead⟩ := eval_entry (H := Empty) 4 0 ["x", "y"] hor place
  have hmade : (eval 5 apply.head .root).apply (.full 0 : Environment Empty) =
      (.ok (.function ⟨⟨0, 0⟩, [numberOf ["x", "y"] "y"], symbol "y"⟩), _) := rfl
  have hcall : (eval 6 apply.form.element .root).apply (.full 0 : Environment Empty) =
      (.ok (.int 1), _) := rfl
  refine ⟨choice, apply, native, _, _, _, _, haction, hhead, rfl, rfl, rfl, ?_, hmade, hcall, ?_⟩
  · exact (call_passes_arguments 5 (eval 5) choice .root _ _).1 native .any haction hhead
  · rw [← hcall]
    exact (call_passes_arguments 5 (eval 5) apply .root _ _).2 _ hmade
end BracketLisp
