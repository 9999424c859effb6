import BracketLisp.Proofs.Eval.HostFree

/-!
# `BracketLisp.Proofs.Eval.Fuel`: evaluation that ends

Fuel makes evaluation a total function. It is no part of the language, where an
evaluation ends or does not. `Ends` says that a computation ends: some amount of fuel
is enough, and then the outcome is a value or an error of the program. `Evaluates` says
so of an element, and `Function.Returns` of a function that has got its arguments.

Fuel does not show in the outcome: `sim_eval` compares an evaluation with one that has
more fuel, and `Evaluates.unique` and `Function.Returns.unique` conclude that outcome
and environment afterwards are determined. This takes a host-free environment, because
a host could ask how much fuel is left.
-/

set_option autoImplicit false

namespace BracketLisp

variable {H α : Type}

/-- The computation ends with `outcome` and leaves `after`, once it has fuel enough. -/
def Ends (run : Nat → Eval H α) (before : Environment H) (outcome : Except EvalError α)
    (after : Environment H) : Prop :=
  ∃ fuel, (run fuel).apply before = (outcome.mapError .fault, after)

/-- The element evaluates in the scope to `outcome` and leaves `after`. -/
def Evaluates [Host H] (element : Element) (scope : ScopeId) (before : Environment H)
    (outcome : Except EvalError (Value H)) (after : Environment H) : Prop :=
  Ends (fun fuel => eval fuel element scope) before outcome after

/-- The function, called with `values`, gives `outcome` and leaves `after`. -/
def Function.Returns [Host H] (function : Function) (values : List (Value H))
    (before : Environment H) (outcome : Except EvalError (Value H)) (after : Environment H) :
    Prop :=
  Ends (fun fuel => function.enter (eval fuel) values) before outcome after

/-- A result that some amount of fuel gives is the outcome. -/
theorem Ends.of_apply {run : Nat → Eval H α} {before : Environment H}
    {outcome : Except EvalError α} (fuel : Nat)
    (h : ((run fuel).apply before).1 = outcome.mapError .fault) :
    Ends run before outcome ((run fuel).apply before).2 :=
  ⟨fuel, Prod.ext h rfl⟩

/-- An outcome of the program is not that of missing fuel. -/
theorem mapError_fault_ne_outOfFuel (outcome : Except EvalError α) :
    outcome.mapError Halt.fault ≠ .error .outOfFuel := by
  intro h
  cases outcome <;> cases h

/-- An outcome is still known when its error counts as a halt. -/
theorem mapError_fault_inj {outcome outcome' : Except EvalError α}
    (h : outcome.mapError Halt.fault = outcome'.mapError Halt.fault) : outcome = outcome' := by
  cases outcome <;> cases outcome' <;> cases h <;> rfl

/-- A halt that is an outcome of the program is an error. -/
theorem eq_fault_of_mapError {halt : Halt} {outcome : Except EvalError α}
    (h : .error halt = outcome.mapError Halt.fault) :
    ∃ error, halt = .fault error ∧ outcome = .error error := by
  cases outcome with
  | error error =>
    cases h
    exact ⟨error, rfl, rfl⟩
  | ok a => cases h

/-! ### More fuel -/

/-- A run beside itself with more fuel. -/
abbrev Coupling.fuel (H : Type) : Coupling H :=
  .single (fun _ => True) False

/-- A function entered beside itself keeps what evaluation keeps. -/
theorem sim_enter_fuel {evaluate evaluate' : Evaluator H}
    (heval : ∀ element scope, (Coupling.fuel H).Sim (Value.Like .exact) (evaluate element scope)
      (evaluate' element scope))
    (f : Function) (values : List (Value H)) (hvalues : ∀ value ∈ values, value.HostFree) :
    (Coupling.fuel H).Sim (Value.Like .exact) (f.enter evaluate values)
      (f.enter evaluate' values) := by
  rintro env _ ⟨rfl, hfree, -⟩
  have hbody := heval f.body (.inner env.locals.size)
    ⟨rfl, hfree.openScope hvalues f.parameters, trivial⟩
  exact hbody.change fun _ _ hafter =>
    ⟨congrArg Environment.closeScope hafter.1, hafter.2.1.closeScope, trivial⟩

/-- Evaluations that do the same do so at every step. -/
theorem Bridge.fuel {evaluate evaluate' : Evaluator H}
    (heval : ∀ element scope, (Coupling.fuel H).Sim (Value.Like .exact) (evaluate element scope)
      (evaluate' element scope))
    (scope : ScopeId) :
    Bridge (Coupling.fuel H) (fun e e' => e = e' ∧ True) evaluate evaluate' scope scope :=
  .single (fun _ _ _ _ _ _ => trivial) (fun element _ => heval element scope)
    (fun _ _ _ _ _ _ _ => trivial) (fun _ _ _ _ => trivial) (sim_enter_fuel heval)

/-- An evaluation with more fuel does the same, unless the lesser fuel runs out. -/
theorem sim_eval [Host H] {fuel fuel' : Nat} (hfuel : fuel ≤ fuel') (element : Element)
    (scope : ScopeId) :
    (Coupling.fuel H).Sim (Value.Like .exact) (eval fuel element scope)
      (eval fuel' element scope) := by
  -- Induction on the lesser fuel. Once it has run out, nothing is asked of the other run.
  induction fuel generalizing fuel' element scope with
  | zero => exact .outOfFuel fun hlock => hlock.elim
  | succ fuel ih =>
    cases fuel' with
    | zero => exact absurd hfuel (Nat.not_succ_le_zero fuel)
    | succ fuel' =>
      have hless : fuel ≤ fuel' := Nat.le_of_succ_le_succ hfuel
      exact (Bridge.fuel (ih hless) scope).step ⟨hless, fun hlock => hlock.elim⟩ ⟨rfl, trivial⟩

/-! ### Outcomes are determined -/

/-- A computation that does the same with more fuel has at most one outcome. -/
theorem Ends.unique {run : Nat → Eval H (Value H)}
    (hrun : ∀ fuel fuel', fuel ≤ fuel' →
      (Coupling.fuel H).Sim (Value.Like .exact) (run fuel) (run fuel'))
    {before after after' : Environment H} {outcome outcome' : Except EvalError (Value H)}
    (hfree : before.HostFree) (h : Ends run before outcome after)
    (h' : Ends run before outcome' after') : outcome = outcome' ∧ after = after' := by
  obtain ⟨fuel, hfuel⟩ := h
  obtain ⟨fuel', hfuel'⟩ := h'
  have heq : (outcome.mapError Halt.fault, after) = (outcome'.mapError Halt.fault, after') := by
    rw [← hfuel, ← hfuel']
    -- Whichever run has more fuel does what the other one does.
    rcases Nat.le_total fuel fuel' with hle | hle
    · refine ((hrun fuel fuel' hle ⟨rfl, hfree, trivial⟩).of_single ?_).1
      rw [hfuel]
      exact mapError_fault_ne_outOfFuel outcome
    · refine ((hrun fuel' fuel hle ⟨rfl, hfree, trivial⟩).of_single ?_).1.symm
      rw [hfuel']
      exact mapError_fault_ne_outOfFuel outcome'
  obtain ⟨houtcome, hafter⟩ := Prod.mk.inj heq
  exact ⟨mapError_fault_inj houtcome, hafter⟩

/-- An element has at most one outcome in a scope. -/
theorem Evaluates.unique [Host H] {element : Element} {scope : ScopeId}
    {before after after' : Environment H} {outcome outcome' : Except EvalError (Value H)}
    (hfree : before.HostFree) (h : Evaluates element scope before outcome after)
    (h' : Evaluates element scope before outcome' after') :
    outcome = outcome' ∧ after = after' :=
  Ends.unique (fun _ _ hle => sim_eval hle element scope) hfree h h'

/-- A function has at most one outcome for its arguments. -/
theorem Function.Returns.unique [Host H] {function : Function} {values : List (Value H)}
    {before after after' : Environment H} {outcome outcome' : Except EvalError (Value H)}
    (hfree : before.HostFree) (hvalues : ∀ value ∈ values, value.HostFree)
    (h : function.Returns values before outcome after)
    (h' : function.Returns values before outcome' after') :
    outcome = outcome' ∧ after = after' :=
  Ends.unique (fun _ _ hle => sim_enter_fuel (sim_eval hle) function values hvalues) hfree h h'

end BracketLisp
