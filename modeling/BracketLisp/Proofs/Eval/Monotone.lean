import BracketLisp.Probe
import BracketLisp.Proofs.Eval.Fuel

/-!
# `BracketLisp.Proofs.Eval.Monotone`: more fuel, the same outcome

`run.Below run'` says that `run'` does what `run` does, unless `run` runs out of fuel. Everything
that evaluation consists of keeps this relation, so an evaluation with more fuel is above one with
less (`eval_below`).

A host could ask how much fuel is left. `LawfulHost` excludes that, and it is all that is asked for
here, so that environments may hold natives of the host. `Evaluates.enough` and
`Evaluates.determined` draw the conclusions for outcomes.
-/

set_option autoImplicit false

namespace BracketLisp

variable {H α β : Type}

/-- Whether a computation does what another one does, unless this one runs out of fuel. -/
def Eval.Below (run run' : Eval H α) : Prop :=
  ∀ env, (run.apply env).1 ≠ .error .outOfFuel → run'.apply env = run.apply env

/-- Whether a way to evaluate elements does what another one does, unless this one runs out of
fuel. -/
def Evaluator.Below (evaluate evaluate' : Evaluator H) : Prop :=
  ∀ element scope, (evaluate element scope).Below (evaluate' element scope)

/-- Hosts whose operations do nothing with the way to evaluate elements but to evaluate some. -/
class LawfulHost (H : Type) [Host H] : Prop where
  perform_below (operation : H) {evaluate evaluate' : Evaluator H} (call : Call)
      (scope : ScopeId) : evaluate.Below evaluate' →
    (Host.perform operation evaluate call scope).Below (Host.perform operation evaluate' call scope)

/-! ### Ways to build computations -/

namespace Eval.Below

theorem refl (run : Eval H α) : run.Below run :=
  fun _ _ => rfl

theorem outOfFuel (run : Eval H α) : (throw .outOfFuel : Eval H α).Below run :=
  fun _ hfuel => absurd rfl hfuel

theorem bind {run run' : Eval H α} {next next' : α → Eval H β} (h : run.Below run')
    (hnext : ∀ a, (next a).Below (next' a)) : (run >>= next).Below (run' >>= next') := by
  intro env hfuel
  rw [apply_bind] at hfuel
  have hrun : (run.apply env).1 ≠ .error .outOfFuel := by
    intro hout
    rw [← Prod.eta (run.apply env), hout] at hfuel
    exact hfuel rfl
  rw [apply_bind, apply_bind, h env hrun]
  cases hresult : run.apply env with
  | mk result mid =>
    cases result with
    | error halt => rfl
    | ok a =>
      rw [hresult] at hfuel
      exact hnext a mid hfuel

theorem inNewScope {bindings : Scope (Value H)} {action action' : ScopeId → Eval H α}
    (h : ∀ scope, (action scope).Below (action' scope)) :
    (Eval.inNewScope bindings action).Below (Eval.inNewScope bindings action') := by
  intro env hfuel
  have hinner := h (env.openScope bindings).1 (env.openScope bindings).2 hfuel
  rw [apply_inNewScope, apply_inNewScope, hinner]

/-- Rounds with more fuel. -/
theorem rounds {test test' : Eval H Bool} {body body' : Eval H (Value H)}
    (htest : test.Below test') (hbody : body.Below body') {fuel fuel' : Nat}
    (hfuel : fuel ≤ fuel') (last : Value H) :
    (Eval.rounds test body fuel last).Below (Eval.rounds test' body' fuel' last) := by
  induction fuel generalizing fuel' last with
  | zero => exact .outOfFuel _
  | succ fuel ih =>
    cases fuel' with
    | zero => exact absurd hfuel (Nat.not_succ_le_zero fuel)
    | succ fuel' =>
      refine htest.bind fun truth => ?_
      cases truth with
      | false => exact .refl _
      | true => exact hbody.bind fun value => ih (Nat.le_of_succ_le_succ hfuel) value

end Eval.Below

/-! ### What evaluation consists of -/

namespace Evaluator.Below

variable {evaluate evaluate' : Evaluator H} (h : evaluate.Below evaluate') (scope : ScopeId)

include h

theorem located (element : Element) :
    (Eval.located evaluate scope element).Below (Eval.located evaluate' scope element) :=
  (h element scope).bind fun _ => .refl _

theorem condition (element : Element) :
    (Eval.condition evaluate scope element).Below (Eval.condition evaluate' scope element) :=
  (h element scope).bind fun _ => .refl _

theorem all (elements : List Element) :
    (Eval.all evaluate scope elements).Below (Eval.all evaluate' scope elements) := by
  induction elements with
  | nil => exact .refl _
  | cons element others ih => exact (h.located scope element).bind fun _ => ih.bind fun _ => .refl _

theorem inOrder (last : Value H) (elements : List Element) :
    (Eval.inOrder evaluate scope last elements).Below
      (Eval.inOrder evaluate' scope last elements) := by
  induction elements generalizing last with
  | nil => exact .refl _
  | cons element others ih => exact (h element scope).bind fun value => ih value

theorem consume (fold : ArgumentFold H) (state : fold.State) (args : List Element) :
    (fold.consume evaluate scope state args).Below (fold.consume evaluate' scope state args) := by
  induction args generalizing state with
  | nil => exact .refl _
  | cons argument others ih =>
    refine (h.located scope argument).bind fun operand => (Eval.Below.refl _).bind fun verdict => ?_
    cases verdict with
    | next later => exact ih later
    | stop result => exact .refl _

variable (call : Call)

theorem assign : (call.assign evaluate scope).Below (call.assign evaluate' scope) := by
  unfold Call.assign
  split
  · exact .refl _
  · split
    · exact .refl _
    · exact (h _ scope).bind fun _ => .refl _
    · exact .refl _

theorem branch : (call.branch evaluate scope).Below (call.branch evaluate' scope) := by
  unfold Call.branch
  split
  · refine (h.condition scope _).bind fun truth => ?_
    cases truth with
    | false => exact h _ scope
    | true => exact h _ scope
  · exact .refl _

theorem loop {fuel fuel' : Nat} (hfuel : fuel ≤ fuel') :
    (call.loop fuel evaluate scope).Below (call.loop fuel' evaluate' scope) := by
  unfold Call.loop
  split
  · exact .rounds (h.condition scope _) (h _ scope) hfuel .nil
  · exact .refl _

theorem builtin_perform (builtin : Builtin) {fuel fuel' : Nat} (hfuel : fuel ≤ fuel') :
    (builtin.perform fuel evaluate call scope).Below
      (builtin.perform fuel' evaluate' call scope) := by
  cases builtin with
  | operation operation =>
    exact (Eval.Below.refl _).bind fun _ => h.consume scope operation.fold _ call.args
  | form special =>
    cases special with
    | assign => exact h.assign scope call
    | branch => exact h.branch scope call
    | loop => exact h.loop scope call hfuel
    | lambda => exact .refl _
    | sequence => exact (Eval.Below.refl _).bind fun _ => h.inOrder scope .nil call.args

theorem function_perform (function : Function) :
    (function.perform evaluate call scope).Below (function.perform evaluate' call scope) :=
  (Eval.Below.refl _).bind fun _ => (h.all scope call.args).bind fun _ =>
    .inNewScope fun inner => h function.body inner

variable [Host H] [LawfulHost H] {fuel fuel' : Nat}

theorem native_perform (native : Native H) (hfuel : fuel ≤ fuel') :
    (native.perform fuel evaluate call scope).Below
      (native.perform fuel' evaluate' call scope) := by
  unfold Native.perform
  cases native.action with
  | catalog builtin => exact h.builtin_perform scope call builtin hfuel
  | host operation => exact LawfulHost.perform_below operation call scope h

theorem call_perform (hfuel : fuel ≤ fuel') :
    (call.perform fuel evaluate scope).Below (call.perform fuel' evaluate' scope) := by
  refine (h call.head scope).bind fun value => ?_
  cases value with
  | function function => exact h.function_perform scope call function
  | native native => exact h.native_perform scope call native hfuel
  | _ => exact .refl _

theorem step (hfuel : fuel ≤ fuel') :
    Evaluator.Below (Element.step fuel evaluate) (Element.step fuel' evaluate') := by
  intro element scope
  cases element with
  | list bracket elements span =>
    cases elements with
    | nil => exact .refl _
    | cons head args => exact h.call_perform scope ⟨bracket, head, args, span⟩ hfuel
  | _ => exact .refl _

end Evaluator.Below

/-! ### Hosts -/

instance : LawfulHost Empty where
  perform_below operation := nomatch operation

/-- The probes evaluate what they are asked for. -/
instance : LawfulHost Probe where
  perform_below probe {_ _} call scope h := by
    have hvalueAt (index : Nat) : (Probe.valueAt _ call scope index).Below
        (Probe.valueAt _ call scope index) :=
      (Eval.Below.refl _).bind fun element => h element scope
    cases probe with
    | value index => exact hvalueAt index
    | numbers count => exact (Eval.Below.refl _).bind fun _ => (h.all scope _).bind fun _ => .refl _
    | backwards minimum => exact (Eval.Below.refl _).bind fun _ => h.inOrder scope .nil _
    | bind number => exact (hvalueAt 1).bind fun _ => .refl _
    | bindRoot number => exact (hvalueAt 1).bind fun _ => .refl _
    | define number => exact (hvalueAt 1).bind fun _ => .refl _
    | isolated =>
      exact (Eval.Below.refl _).bind fun element => .inNewScope fun inner => h element inner
    | _ => exact .refl _

/-! ### Outcomes -/

section

variable [Host H] [LawfulHost H]

/-- An evaluation with more fuel does the same, unless the lesser fuel runs out. -/
theorem eval_below {fuel fuel' : Nat} (hfuel : fuel ≤ fuel') :
    Evaluator.Below (eval (H := H) fuel) (eval fuel') := by
  induction fuel generalizing fuel' with
  | zero => exact fun _ _ => .outOfFuel _
  | succ fuel ih =>
    cases fuel' with
    | zero => exact absurd hfuel (Nat.not_succ_le_zero fuel)
    | succ fuel' =>
      have hless : fuel ≤ fuel' := Nat.le_of_succ_le_succ hfuel
      exact (ih hless).step hless

variable {element : Element} {scope : ScopeId} {before after after' : Environment H}
  {outcome outcome' : Except EvalError (Value H)}

/-- What an element evaluates to is what any evaluation with enough fuel makes of it. -/
theorem Evaluates.enough (h : Evaluates element scope before outcome after) :
    ∃ enough, ∀ fuel, enough ≤ fuel →
      (eval fuel element scope).apply before = (outcome.mapError .fault, after) := by
  obtain ⟨enough, hend⟩ := h
  refine ⟨enough, fun fuel hfuel => ?_⟩
  rw [← hend]
  refine eval_below hfuel element scope before ?_
  rw [hend]
  exact mapError_fault_ne_outOfFuel outcome

/-- An element has at most one outcome in a scope. -/
theorem Evaluates.determined (h : Evaluates element scope before outcome after)
    (h' : Evaluates element scope before outcome' after') :
    outcome = outcome' ∧ after = after' := by
  obtain ⟨enough, hend⟩ := h.enough
  obtain ⟨enough', hend'⟩ := h'.enough
  have heq := (hend _ (Nat.le_max_left enough enough')).symm.trans
    (hend' _ (Nat.le_max_right enough enough'))
  exact ⟨mapError_fault_inj (Prod.mk.inj heq).1, (Prod.mk.inj heq).2⟩

end

end BracketLisp
