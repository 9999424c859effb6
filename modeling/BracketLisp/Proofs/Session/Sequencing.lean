import BracketLisp.Proofs.Environment.Catalog
import BracketLisp.Session

/-!
# `BracketLisp.Proofs.Session.Sequencing`: one form after the other, in three ways

A text can be run up to its first fault, or form by form whatever becomes of each, or as one
list that calls `do`. The three agree on what each form gives and on what it does to the
environment: `evalForms_of_values` and `evalForms_of_halt` read the outcome of the first way off
the results of the second, and `evalForms_eq_inOrder` and `apply_eval_sequence` say that the
third does the same as the first. `run_sequenced` puts them together for every text.

The amount of fuel is the same on all sides, and a lack of it counts as a fault. So one of the
ways ends if and only if the others do, as far as they have come.
-/

set_option autoImplicit false

namespace BracketLisp.Session

variable {H : Type} [Host H]

/-! ### Results, form by form -/

/-- The first form is evaluated before the others, and they go on where it ends. -/
theorem evalEach_cons (fuel : Nat) (scope : ScopeId) (form : Form) (others : List Form)
    (env : Environment H) :
    evalEach fuel scope (form :: others) env =
      (((eval fuel form.element scope).apply env).1 ::
          (evalEach fuel scope others ((eval fuel form.element scope).apply env).2).1,
        (evalEach fuel scope others ((eval fuel form.element scope).apply env).2).2) :=
  rfl

/-- Every form has a result. -/
theorem length_evalEach (fuel : Nat) (scope : ScopeId) (forms : List Form) (env : Environment H) :
    (evalEach fuel scope forms env).1.length = forms.length := by
  induction forms generalizing env with
  | nil => rfl
  | cons form others ih =>
    rw [evalEach_cons]
    simp only [List.length_cons, ih]

/-- A row of forms goes on where its first part ends. -/
theorem evalEach_append (fuel : Nat) (scope : ScopeId) (forms others : List Form)
    (env : Environment H) :
    evalEach fuel scope (forms ++ others) env =
      ((evalEach fuel scope forms env).1 ++
          (evalEach fuel scope others (evalEach fuel scope forms env).2).1,
        (evalEach fuel scope others (evalEach fuel scope forms env).2).2) := by
  induction forms generalizing env with
  | nil => rfl
  | cons form forms ih =>
    rw [List.cons_append, evalEach_cons, evalEach_cons, ih]
    rfl

/-! ### Up to the first fault -/

/-- If every form has a value, the result is that of the last one. -/
theorem evalForms_of_values {fuel : Nat} {scope : ScopeId} {forms : List Form}
    {env : Environment H} {values : List (Value H)}
    (h : (evalEach fuel scope forms env).1 = values.map .ok) (last : Value H) :
    (evalForms fuel scope last forms).apply env =
      (.ok (values.getLastD last), (evalEach fuel scope forms env).2) := by
  induction forms generalizing env values last with
  | nil =>
    obtain rfl : values = [] := List.map_eq_nil_iff.1 h.symm
    rfl
  | cons form others ih =>
    rw [evalEach_cons] at h ⊢
    obtain ⟨value, values, rfl, hvalue, hvalues⟩ := List.map_eq_cons_iff.1 h.symm
    have hfirst : (eval fuel form.element scope).apply env =
        (.ok value, ((eval fuel form.element scope).apply env).2) := Prod.ext hvalue.symm rfl
    rw [evalForms, Eval.apply_bind, hfirst, List.getLastD_cons]
    exact ih hvalues.symm value

/-- If a form halts after others that have values, its halt is the result, and the environment
is the one right after this form. -/
theorem evalForms_of_halt {fuel : Nat} {scope : ScopeId} {forms : List Form} {env : Environment H}
    {values : List (Value H)} {halt : Halt} {rest : List (Except Halt (Value H))}
    (h : (evalEach fuel scope forms env).1 = values.map .ok ++ .error halt :: rest)
    (last : Value H) :
    (evalForms fuel scope last forms).apply env =
      (.error halt, (evalEach fuel scope (forms.take (values.length + 1)) env).2) := by
  induction forms generalizing env values last with
  | nil => simp [evalEach] at h
  | cons form others ih =>
    rw [evalEach_cons] at h
    rw [evalForms, Eval.apply_bind]
    cases values with
    | nil =>
      obtain ⟨hhalt, -⟩ := List.cons.inj h
      have hfirst : (eval fuel form.element scope).apply env =
          (.error halt, ((eval fuel form.element scope).apply env).2) := Prod.ext hhalt rfl
      rw [hfirst]
      rfl
    | cons value values =>
      obtain ⟨hvalue, hothers⟩ := List.cons.inj h
      have hfirst : (eval fuel form.element scope).apply env =
          (.ok value, ((eval fuel form.element scope).apply env).2) := Prod.ext hvalue rfl
      rw [hfirst]
      exact ih hothers value

/-! ### As one list -/

/-- A list that calls `do` does its other elements in order, if there are any. -/
theorem apply_eval_sequence (fuel : Nat) {scope : ScopeId} {bracket : Bracket} {id : SymbolId}
    {place span : Position} {args : List Element} {env : Environment H} {native : Native H}
    (hnative : env.get? scope id = some (.native native))
    (hdo : native.action = .catalog (.form .sequence)) (hargs : args ≠ []) :
    (eval (fuel + 1) (.list bracket (.symbol id place :: args) span) scope).apply env =
      (Eval.inOrder (eval fuel) scope .nil args).apply env := by
  let call : Call := ⟨bracket, .symbol id place, args, span⟩
  show (Element.step fuel (eval fuel) call.form.element scope).apply env = _
  cases fuel with
  | zero =>
    -- Neither the head nor the first of the others is reached.
    obtain ⟨first, others, rfl⟩ := List.exists_cons_of_ne_nil hargs
    rfl
  | succ fuel =>
    have hhead : (eval (fuel + 1) call.head scope).apply env = (.ok (.native native), env) :=
      Element.apply_step_symbol fuel (eval fuel) hnative place
    have hcount : call.expectAtLeast 1 = .ok () := if_pos (List.length_pos_iff.2 hargs)
    rw [Call.apply_entry (fuel + 1) hdo hhead]
    show (call.sequence (eval (fuel + 1)) scope).apply env = _
    rw [Call.sequence, Eval.apply_bind, hcount]
    rfl

/-! ### A text -/

/-- What running a text gives, compared with the results of its forms one by one. The text reads
as `forms`, with their symbols known in `parsed`. -/
structure Sequenced (fuel : Nat) (forms : List Form) (parsed : Environment H)
    (results : List (Except Halt (Value H))) (after : Environment H)
    (ran : Except Failure (Value H) × Environment H) : Prop where
  /-- Every form has a result. -/
  length : results.length = forms.length
  /-- Between any two forms, the results are those of the forms before, and the forms behind
  go on from there. -/
  between : ∀ first others, forms = first ++ others → ∃ env,
    evalEach fuel .root first parsed = (results.take first.length, env) ∧
      evalEach fuel .root others env = (results.drop first.length, after)
  /-- If every form has a value, running the text gives the last one, and leaves the same. -/
  values : ∀ values : List (Value H), results = values.map .ok →
    ran = (.ok (values.getLastD .nil), after)
  /-- If a form is the first to fail, running the text gives this failure, and leaves what there is
  right after this form. -/
  failure : ∀ (values : List (Value H)) (halt : Halt) (rest : List (Except Halt (Value H))),
    results = values.map .ok ++ .error halt :: rest →
    ran = (.error (.ofHalt halt),
      (evalEach fuel .root (forms.take (values.length + 1)) parsed).2)
  /-- A list of the forms that calls `do` gives the same as running the text, and leaves the
  same. -/
  sequence : ∀ (bracket : Bracket) (id : SymbolId) (place span : Position) (native : Native H),
    parsed.get? .root id = some (.native native) →
    native.action = .catalog (.form .sequence) → forms ≠ [] →
      ∃ result final,
        (eval (fuel + 1) (.list bracket (.symbol id place :: forms.map Form.element) span)
            .root).apply parsed = (result, final) ∧
          ran = (result.mapError .ofHalt, final)

/-- The forms of a text are evaluated to the same effect in the three ways. -/
theorem sequenced_evalForms (fuel : Nat) (forms : List Form) (parsed : Environment H) :
    Sequenced fuel forms parsed (evalEach fuel .root forms parsed).1
      (evalEach fuel .root forms parsed).2
      (((evalForms fuel .root .nil forms).apply parsed).1.mapError .ofHalt,
        ((evalForms fuel .root .nil forms).apply parsed).2) where
  length := length_evalEach fuel .root forms parsed
  between first others hforms := by
    subst hforms
    have hfirst : (evalEach fuel .root first parsed).1.length = first.length :=
      length_evalEach fuel .root first parsed
    rw [evalEach_append]
    exact ⟨_, Prod.ext (List.take_left' hfirst).symm rfl,
      Prod.ext (List.drop_left' hfirst).symm rfl⟩
  values values hvalues := by
    rw [evalForms_of_values hvalues]
    rfl
  failure values halt rest hhalt := by
    rw [evalForms_of_halt hhalt]
    rfl
  sequence bracket id place span native hnative hdo hforms := by
    have hargs : forms.map Form.element ≠ [] := fun h => hforms (List.map_eq_nil_iff.1 h)
    rw [evalForms_eq_inOrder]
    exact ⟨_, _, apply_eval_sequence fuel hnative hdo hargs, rfl⟩

/-- Whatever the text and the environment, the ways to run it agree. If it does not parse, its
error is all that comes of it, and no binding changes. -/
theorem run_sequenced (fuel : Nat) (source : String) (text : List Char) (env : Environment H) :
    (∀ error parsed, parse source text env = (.error error, parsed) →
      run fuel source text env = (.error (.parse error), parsed) ∧
        runEach fuel source text env = (.error error, parsed) ∧
        ∀ scope, parsed.scope scope = env.scope scope) ∧
    (∀ forms parsed, parse source text env = (.ok forms, parsed) →
      ∃ results after, runEach fuel source text env = (.ok results, after) ∧
        Sequenced fuel forms parsed results after (run fuel source text env)) := by
  refine ⟨fun error parsed hparse => ?_, fun forms parsed hparse => ?_⟩
  · refine ⟨by rw [run, hparse], by rw [runEach, hparse], fun scope => ?_⟩
    obtain rfl : _ = parsed := congrArg Prod.snd hparse
    exact env.scope_with _ env.natives scope
  · have hrun : run fuel source text env =
        (((evalForms fuel .root .nil forms).apply parsed).1.mapError .ofHalt,
          ((evalForms fuel .root .nil forms).apply parsed).2) := by
      rw [run, hparse]
    refine ⟨_, _, by rw [runEach, hparse], ?_⟩
    rw [hrun]
    exact sequenced_evalForms fuel forms parsed

/-- The second form binds `x` and then fails. Run as a whole, the text leaves this binding,
and run form by form, that of the third form. -/
theorem run_sequenced_failure :
    let x : SymbolId := numberOf ["x"] "x"
    ∃ (text : List Char) (forms : List Form) (parsed after : Environment Empty)
      (results : List (Except Halt (Value Empty))),
      parse "t" text (.full 0) = (.ok forms, parsed) ∧
        runEach 5 "t" text (.full 0) = (.ok results, after) ∧
        ((run 5 "t" text (.full 0 : Environment Empty)).2.get? .root x).map Value.text =
          some "2" ∧
        (after.get? .root x).map Value.text = some "3" ∧
        Sequenced 5 forms parsed results after (run 5 "t" text (.full 0)) := by
  intro x
  let text : List Char := "(set x 1) (+ (set x 2) nil) (set x 3)".toList
  let env : Environment Empty := .full 0
  obtain ⟨forms, hforms⟩ : ∃ forms, (parse "t" text env).1 = .ok forms := by
    have hok : (parse "t" text env).1.isOk = true := by decide +kernel
    cases h : (parse "t" text env).1 with
    | ok forms => exact ⟨forms, rfl⟩
    | error error =>
      rw [h] at hok
      cases hok
  have hparse : parse "t" text env = (.ok forms, _) := Prod.ext hforms rfl
  obtain ⟨results, after, heach, hsequenced⟩ := (run_sequenced 5 "t" text env).2 _ _ hparse
  have hlast : (((runEach 5 "t" text env).2.get? .root x).map Value.text) = some "3" := by
    decide +kernel
  rw [heach] at hlast
  exact ⟨text, forms, _, after, results, hparse, heach, by decide +kernel, hlast, hsequenced⟩

end BracketLisp.Session
