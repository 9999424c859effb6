import BracketLisp.Proofs.Eval.Blame
import BracketLisp.Proofs.Eval.Monotone

/-!
# `BracketLisp.Proofs.Eval.Loop`: what a loop means

A loop has no measure: how many rounds it takes is up to the program. So its meaning is told by the
rounds that run. `Rounds` says that some rounds do, one after the other, and collects the values of
the body. `Breaks` says that a round fails.

* `Eval.apply_rounds_succ` is what one round does. By induction on the fuel, a loop that ends runs
  some rounds and then leaves or breaks (`rounds_ends`).
* By induction on the rounds, a loop with enough fuel gets behind them (`Rounds.enough`).
* `loop_meaning` puts both together for calls, and `Rounds.preserves` is the rule for what a loop
  keeps.
-/

set_option autoImplicit false

namespace BracketLisp

variable {H : Type}

/-! ### Rounds -/

/-- Rounds of a loop with more fuel than none. -/
theorem Eval.apply_rounds_succ (test : Eval H Bool) (body : Eval H (Value H)) (fuel : Nat)
    (last : Value H) (env : Environment H) :
    (Eval.rounds test body (fuel + 1) last).apply env =
      match test.apply env with
      | (.error halt, mid) => (.error halt, mid)
      | (.ok false, mid) => (.ok last, mid)
      | (.ok true, mid) =>
        match body.apply mid with
        | (.error halt, later) => (.error halt, later)
        | (.ok value, later) => (Eval.rounds test body fuel value).apply later := by
  rw [Eval.rounds, Eval.apply_bind]
  rcases test.apply env with ⟨_ | truth, mid⟩
  · rfl
  · cases truth with
    | false => rfl
    | true =>
      change (body >>= fun value => Eval.rounds test body fuel value).apply mid = _
      rw [Eval.apply_bind]
      dsimp only
      rcases body.apply mid with ⟨_ | value, later⟩ <;> rfl

/-- An element that is a truth value has it for a test. -/
theorem Eval.condition_of_bool {evaluate : Evaluator H} {scope : ScopeId} {test : Element}
    {env after : Environment H} {truth : Bool}
    (h : (evaluate test scope).apply env = (.ok (.bool truth), after)) :
    (Eval.condition evaluate scope test).apply env = (.ok truth, after) := by
  rw [Eval.condition, Eval.apply_bind, h]
  rfl

section

variable [Host H] (test body : Element) (scope : ScopeId)

/-- Whether rounds run one after the other, from an environment to another: in each, the test is
true, and then the body has a value. -/
inductive Rounds : Environment H → List (Value H) → Environment H → Prop where
  | none (env : Environment H) : Rounds env [] env
  | next {env mid later after : Environment H} {value : Value H} {values : List (Value H)}
      (htest : Evaluates test scope env (.ok (.bool true)) mid)
      (hbody : Evaluates body scope mid (.ok value) later)
      (hothers : Rounds later values after) : Rounds env (value :: values) after

/-- Whether a round fails: its test does, or its body, or the test is no truth value. -/
inductive Breaks : Environment H → EvalError → Environment H → Prop where
  | test {env after : Environment H} {error : EvalError}
      (h : Evaluates test scope env (.error error) after) : Breaks env error after
  | body {env mid after : Environment H} {error : EvalError}
      (htest : Evaluates test scope env (.ok (.bool true)) mid)
      (hbody : Evaluates body scope mid (.error error) after) : Breaks env error after
  | kind {env after : Environment H} {value : Value H}
      (h : Evaluates test scope env (.ok value) after) (hkind : value.kind ≠ .bool) :
      Breaks env ⟨.notBoolean value.kind, test.span⟩ after

variable {test body scope}

/-- A loop that ends runs some rounds, and then the test is false or the next round fails. -/
theorem rounds_ends {fuel left : Nat} {last : Value H} {env after : Environment H}
    {outcome : Except EvalError (Value H)}
    (h : (Eval.rounds (Eval.condition (eval fuel) scope test) (eval fuel body scope) left
      last).apply env = (outcome.mapError .fault, after)) :
    ∃ values later, Rounds test body scope env values later ∧
      ((outcome = .ok (values.getLastD last) ∧
          Evaluates test scope later (.ok (.bool false)) after) ∨
        ∃ error, outcome = .error error ∧ Breaks test body scope later error after) := by
  -- Induction on the fuel for rounds. There are those of this round and those behind it.
  induction left generalizing last env with
  | zero => exact absurd (Prod.mk.inj h).1.symm (mapError_fault_ne_outOfFuel outcome)
  | succ left ih =>
    rw [Eval.apply_rounds_succ] at h
    rcases Eval.condition_cases (eval fuel) scope test env with
      ⟨halt, mid, htest, hcondition⟩ | ⟨truth, mid, htest, hcondition⟩ |
        ⟨value, mid, htest, hkind, hcondition⟩ <;> rw [hcondition] at h
    · obtain ⟨hhalt, rfl⟩ := Prod.mk.inj h
      obtain ⟨error, rfl, rfl⟩ := eq_fault_of_mapError hhalt
      exact ⟨[], env, .none env, .inr ⟨error, rfl, .test ⟨fuel, htest⟩⟩⟩
    · cases truth with
      | false =>
        obtain ⟨hlast, rfl⟩ := Prod.mk.inj h
        have houtcome : .ok last = outcome := mapError_fault_inj hlast
        exact ⟨[], env, .none env, .inl ⟨houtcome.symm, fuel, htest⟩⟩
      | true =>
        dsimp only at h
        cases hbody : (eval fuel body scope).apply mid with
        | mk result later =>
          rw [hbody] at h
          cases result with
          | error halt =>
            obtain ⟨hhalt, rfl⟩ := Prod.mk.inj h
            obtain ⟨error, rfl, rfl⟩ := eq_fault_of_mapError hhalt
            exact ⟨[], env, .none env, .inr ⟨error, rfl, .body ⟨fuel, htest⟩ ⟨fuel, hbody⟩⟩⟩
          | ok value =>
            obtain ⟨values, stop, hrounds, hstop⟩ := ih h
            refine ⟨value :: values, stop, .next ⟨fuel, htest⟩ ⟨fuel, hbody⟩ hrounds, ?_⟩
            rwa [List.getLastD_cons]
    · obtain ⟨herror, rfl⟩ := Prod.mk.inj h
      obtain ⟨error, hfault, rfl⟩ := eq_fault_of_mapError herror
      cases hfault
      exact ⟨[], env, .none env, .inr ⟨_, rfl, .kind ⟨fuel, htest⟩ hkind⟩⟩

variable [LawfulHost H]

/-- With enough fuel, a loop gets behind rounds that run. -/
theorem Rounds.enough {env after : Environment H} {values : List (Value H)}
    (h : Rounds test body scope env values after) :
    ∃ enough, ∀ fuel, enough ≤ fuel → ∀ left last,
      (Eval.rounds (Eval.condition (eval fuel) scope test) (eval fuel body scope)
          (values.length + left) last).apply env =
        (Eval.rounds (Eval.condition (eval fuel) scope test) (eval fuel body scope) left
          (values.getLastD last)).apply after := by
  induction h with
  | none env => exact ⟨0, fun fuel _ left last => by rw [List.length_nil, Nat.zero_add]; rfl⟩
  | @next env mid later after value values htest hbody _ ih =>
    obtain ⟨forTest, htest⟩ := htest.enough
    obtain ⟨forBody, hbody⟩ := hbody.enough
    obtain ⟨forOthers, hothers⟩ := ih
    refine ⟨max forTest (max forBody forOthers), fun fuel hfuel left last => ?_⟩
    have hcondition : (Eval.condition (eval fuel) scope test).apply env = (.ok true, mid) :=
      Eval.condition_of_bool (htest fuel (by omega))
    rw [List.length_cons, Nat.add_right_comm, Eval.apply_rounds_succ, hcondition]
    dsimp only
    rw [hbody fuel (by omega), List.getLastD_cons]
    exact hothers fuel (by omega) left value

/-- With enough fuel, a loop ends with a round that fails. -/
theorem Breaks.enough {env after : Environment H} {error : EvalError}
    (h : Breaks test body scope env error after) :
    ∃ enough, ∀ fuel, enough ≤ fuel → ∀ left last,
      (Eval.rounds (Eval.condition (eval fuel) scope test) (eval fuel body scope) (left + 1)
        last).apply env = (.error (.fault error), after) := by
  cases h with
  | test h =>
    obtain ⟨enough, htest⟩ := h.enough
    refine ⟨enough, fun fuel hfuel left last => ?_⟩
    have hcondition : (Eval.condition (eval fuel) scope test).apply env =
        (.error (.fault error), after) := by
      rw [Eval.condition, Eval.apply_bind, htest fuel hfuel]
      rfl
    rw [Eval.apply_rounds_succ, hcondition]
  | @body mid _ _ htest hbody =>
    obtain ⟨forTest, htest⟩ := htest.enough
    obtain ⟨forBody, hbody⟩ := hbody.enough
    refine ⟨max forTest forBody, fun fuel hfuel left last => ?_⟩
    have hcondition : (Eval.condition (eval fuel) scope test).apply env = (.ok true, mid) :=
      Eval.condition_of_bool (htest fuel (by omega))
    rw [Eval.apply_rounds_succ, hcondition]
    dsimp only
    rw [hbody fuel (by omega)]
    rfl
  | @kind _ value h hkind =>
    obtain ⟨enough, htest⟩ := h.enough
    refine ⟨enough, fun fuel hfuel left last => ?_⟩
    have hcondition : (Eval.condition (eval fuel) scope test).apply env =
        (.error (.fault ⟨.notBoolean value.kind, test.span⟩), after) := by
      rw [Eval.condition, Eval.apply_bind, htest fuel hfuel]
      cases value with
      | bool _ => exact absurd rfl hkind
      | _ => rfl
    rw [Eval.apply_rounds_succ, hcondition]

/-- With enough fuel, a loop ends when its test is false or its round fails. -/
theorem rounds_stop {env after : Environment H} {last : Value H}
    {outcome : Except EvalError (Value H)}
    (h : (outcome = .ok last ∧ Evaluates test scope env (.ok (.bool false)) after) ∨
      ∃ error, outcome = .error error ∧ Breaks test body scope env error after) :
    ∃ enough, ∀ fuel, enough ≤ fuel → ∀ left,
      (Eval.rounds (Eval.condition (eval fuel) scope test) (eval fuel body scope) (left + 1)
        last).apply env = (outcome.mapError .fault, after) := by
  rcases h with ⟨rfl, hfalse⟩ | ⟨error, rfl, hbreaks⟩
  · obtain ⟨enough, htest⟩ := hfalse.enough
    refine ⟨enough, fun fuel hfuel left => ?_⟩
    rw [Eval.apply_rounds_succ, Eval.condition_of_bool (htest fuel hfuel)]
    rfl
  · obtain ⟨enough, hbreak⟩ := hbreaks.enough
    exact ⟨enough, fun fuel hfuel left => hbreak fuel hfuel left last⟩

/-! ### Calls of a loop -/

variable {call : Call} {env mid : Environment H}

/-- Whether a call is one of a loop over a test and a body, and evaluating its head leads from an
environment to another. -/
structure Call.Loops (call : Call) (test body : Element) (scope : ScopeId)
    (env mid : Environment H) : Prop where
  head : ∃ native : Native H, native.action = .catalog (.form .loop) ∧
    Evaluates call.head scope env (.ok (.native native)) mid
  args : call.args = [test, body]

omit [LawfulHost H] in
/-- Behind its head, a call of a loop is its rounds. -/
theorem Call.apply_loop {evaluate : Evaluator H} {native : Native H} (fuel : Nat)
    (haction : native.action = .catalog (.form .loop))
    (hhead : (evaluate call.head scope).apply env = (.ok (.native native), mid))
    (hargs : call.args = [test, body]) :
    (Element.step fuel evaluate call.form.element scope).apply env =
      (Eval.rounds (Eval.condition evaluate scope test) (evaluate body scope) fuel .nil).apply
        mid := by
  rw [Call.apply_entry fuel haction hhead]
  show (call.loop fuel evaluate scope).apply mid = _
  rw [Call.loop, hargs]

/-- A call of a loop that ends gets behind its head. -/
theorem Call.Loops.rounds_of_eval (h : call.Loops test body scope env mid) {fuel : Nat}
    {outcome : Except EvalError (Value H)} {after : Environment H}
    (hend : (eval fuel call.form.element scope).apply env = (outcome.mapError .fault, after)) :
    ∃ left, (Eval.rounds (Eval.condition (eval left) scope test) (eval left body scope) left
      .nil).apply mid = (outcome.mapError .fault, after) := by
  obtain ⟨native, haction, hnative⟩ := h.head
  cases fuel with
  | zero => exact absurd (Prod.mk.inj hend).1.symm (mapError_fault_ne_outOfFuel outcome)
  | succ left =>
    refine ⟨left, ?_⟩
    rcases hhead : (eval left call.head scope).apply env with ⟨halt | value, mid'⟩
    · -- A head that halts would be the end of the call.
      have hcall : (eval (left + 1) call.form.element scope).apply env = (.error halt, mid') := by
        show (call.perform left (eval left) scope).apply env = _
        rw [Call.perform, Eval.apply_bind, hhead]
      obtain ⟨error, rfl, -⟩ := eq_fault_of_mapError (Prod.mk.inj (hcall.symm.trans hend)).1
      have hhalts : Evaluates call.head scope env (.error error) mid' := ⟨left, hhead⟩
      cases (hhalts.determined hnative).1
    · have hvalue : Evaluates call.head scope env (.ok value) mid' := ⟨left, hhead⟩
      obtain ⟨hsame, rfl⟩ := hvalue.determined hnative
      cases hsame
      exact (Call.apply_loop left haction hhead h.args).symm.trans hend

/-- A call of a loop ends in one of two ways: after some rounds, the test is false, or a round
fails. -/
theorem Call.Loops.evaluates_iff (h : call.Loops test body scope env mid)
    (outcome : Except EvalError (Value H)) (after : Environment H) :
    Evaluates call.form.element scope env outcome after ↔
      ∃ values later, Rounds test body scope mid values later ∧
        ((outcome = .ok (values.getLastD .nil) ∧
            Evaluates test scope later (.ok (.bool false)) after) ∨
          ∃ error, outcome = .error error ∧ Breaks test body scope later error after) := by
  constructor
  · rintro ⟨fuel, hend⟩
    obtain ⟨left, hrounds⟩ := h.rounds_of_eval hend
    exact rounds_ends hrounds
  · rintro ⟨values, later, hrounds, hstop⟩
    obtain ⟨native, haction, hnative⟩ := h.head
    obtain ⟨forHead, hhead⟩ := hnative.enough
    obtain ⟨forRounds, hrounds⟩ := hrounds.enough
    obtain ⟨forLast, hlast⟩ := rounds_stop hstop
    -- As much fuel as all parts of the loop need, and that for its rounds besides.
    let spare := max forHead (max forRounds forLast)
    let fuel := values.length + (spare + 1)
    refine ⟨fuel + 1, ?_⟩
    have hcall := Call.apply_loop fuel haction (hhead fuel (by omega)) h.args
    refine hcall.trans ?_
    rw [hrounds fuel (by omega) (spare + 1) .nil]
    exact hlast fuel (by omega) spare

omit [LawfulHost H] in
/-- Rounds keep what a true test and then the body keep. -/
theorem Rounds.preserves (kept : Environment H → Prop)
    (hround : ∀ env mid later value, kept env → Evaluates test scope env (.ok (.bool true)) mid →
      Evaluates body scope mid (.ok value) later → kept later)
    {env after : Environment H} {values : List (Value H)}
    (h : Rounds test body scope env values after) (hkept : kept env) : kept after := by
  induction h with
  | none env => exact hkept
  | next htest hbody _ ih => exact ih (hround _ _ _ _ hkept htest hbody)

/-- A loop has the value of the last body when the test is false after some rounds. -/
theorem Call.Loops.evaluates_ok_iff (h : call.Loops test body scope env mid) (value : Value H)
    (after : Environment H) :
    Evaluates call.form.element scope env (.ok value) after ↔
      ∃ values later, Rounds test body scope mid values later ∧
        Evaluates test scope later (.ok (.bool false)) after ∧
        value = values.getLastD .nil := by
  refine (h.evaluates_iff (.ok value) after).trans ⟨?_, ?_⟩
  · rintro ⟨values, later, hrounds, ⟨hvalue, hfalse⟩ | ⟨error, herror, -⟩⟩
    · cases hvalue
      exact ⟨values, later, hrounds, hfalse, rfl⟩
    · cases herror
  · rintro ⟨values, later, hrounds, hfalse, rfl⟩
    exact ⟨values, later, hrounds, .inl ⟨rfl, hfalse⟩⟩

/-- A loop fails when a round fails after some rounds. -/
theorem Call.Loops.evaluates_error_iff (h : call.Loops test body scope env mid)
    (error : EvalError) (after : Environment H) :
    Evaluates call.form.element scope env (.error error) after ↔
      ∃ values later, Rounds test body scope mid values later ∧
        Breaks test body scope later error after := by
  refine (h.evaluates_iff (.error error) after).trans ⟨?_, ?_⟩
  · rintro ⟨values, later, hrounds, ⟨hvalue, -⟩ | ⟨error, herror, hbreaks⟩⟩
    · cases hvalue
    · cases herror
      exact ⟨values, later, hrounds, hbreaks⟩
  · rintro ⟨values, later, hrounds, hbreaks⟩
    exact ⟨values, later, hrounds, .inr ⟨error, rfl, hbreaks⟩⟩

/-- A true test and a body that change nothing are followed by the same round. -/
theorem loops_forever {value : Value H}
    (htest : Evaluates test scope env (.ok (.bool true)) env)
    (hbody : Evaluates body scope env (.ok value) env) (values : List (Value H))
    (later : Environment H) (hrounds : Rounds test body scope env values later) :
    (∀ after, ¬ Evaluates test scope later (.ok (.bool false)) after) ∧
      ∀ error after, ¬ Breaks test body scope later error after := by
  have hlater : later = env := by
    refine hrounds.preserves (· = env) ?_ rfl
    rintro _ mid later value rfl htest' hbody'
    obtain ⟨-, rfl⟩ := htest'.determined htest
    exact (hbody'.determined hbody).2
  subst hlater
  refine ⟨fun after hfalse => ?_, fun error after hbreaks => ?_⟩
  · cases (hfalse.determined htest).1
  · cases hbreaks with
    | test herror => cases (herror.determined htest).1
    | body htest' herror =>
      obtain ⟨-, rfl⟩ := htest'.determined htest
      cases (herror.determined hbody).1
    | kind hvalue hkind =>
      cases (hvalue.determined htest).1
      exact hkind rfl

/-- A loop ends with a value when some rounds run and then the test is false, and the value is that
of the last body, or `nil` without rounds. It fails when some rounds run and the next one fails, and
what the rounds did stays done. If neither happens, it does not end. So what a round keeps, and a
false test, a loop that ends with a value has kept. -/
theorem loop_meaning (h : call.Loops test body scope env mid) :
    (∀ value after, Evaluates call.form.element scope env (.ok value) after ↔
      ∃ values later, Rounds test body scope mid values later ∧
        Evaluates test scope later (.ok (.bool false)) after ∧
        value = values.getLastD .nil) ∧
    (∀ error after, Evaluates call.form.element scope env (.error error) after ↔
      ∃ values later, Rounds test body scope mid values later ∧
        Breaks test body scope later error after) ∧
    ((∀ values later, Rounds test body scope mid values later →
        (∀ after, ¬ Evaluates test scope later (.ok (.bool false)) after) ∧
        ∀ error after, ¬ Breaks test body scope later error after) →
      ∀ fuel, ((eval fuel call.form.element scope).apply env).1 = .error .outOfFuel) ∧
    ∀ kept : Environment H → Prop,
      (∀ start tested later value, kept start →
        Evaluates test scope start (.ok (.bool true)) tested →
        Evaluates body scope tested (.ok value) later → kept later) →
      (∀ start later, kept start → Evaluates test scope start (.ok (.bool false)) later →
        kept later) →
      kept mid → ∀ value after, Evaluates call.form.element scope env (.ok value) after →
        kept after := by
  refine ⟨h.evaluates_ok_iff, h.evaluates_error_iff, ?_, ?_⟩
  · intro hnone fuel
    rcases hresult : (eval fuel call.form.element scope).apply env with ⟨(error | _) | value, after⟩
    · have herror : Evaluates call.form.element scope env (.error error) after := ⟨fuel, hresult⟩
      obtain ⟨values, later, hrounds, hbreaks⟩ := (h.evaluates_error_iff error after).1 herror
      exact absurd hbreaks ((hnone values later hrounds).2 error after)
    · rfl
    · have hvalue : Evaluates call.form.element scope env (.ok value) after := ⟨fuel, hresult⟩
      obtain ⟨values, later, hrounds, hfalse, -⟩ := (h.evaluates_ok_iff value after).1 hvalue
      exact absurd hfalse ((hnone values later hrounds).1 after)
  · intro kept hround hfalse hkept value after hvalue
    obtain ⟨values, later, hrounds, hleave, -⟩ := (h.evaluates_ok_iff value after).1 hvalue
    exact hfalse later after (hrounds.preserves kept hround hkept) hleave

end

/-- `(while x (set x false))` takes one round if `x` is true, and `(while true nil)` does not
end. -/
theorem loop_meaning_once :
    let number := numberOf ["x"]
    let place : Position := ⟨"t", 1, 1⟩
    let symbol (name : String) : Element := .symbol (number name) place
    let bind : Element := .list .paren [symbol "set", symbol "x", symbol "false"] place
    let before : Environment Empty := (Environment.full 0).set .root (number "x") (.bool true)
    Evaluates (.list .paren [symbol "while", symbol "x", bind] place) .root before
        (.ok (.bool false)) (before.set .root (number "x") (.bool false)) ∧
      ∀ fuel, ((eval fuel (.list .paren [symbol "while", symbol "true", symbol "nil"] place)
        .root).apply (.full 0 : Environment Empty)).1 = .error .outOfFuel := by
  intro number place symbol bind before
  have hloops : Call.Loops ⟨.paren, symbol "while", [symbol "x", bind], place⟩ (symbol "x") bind
      .root before before :=
    ⟨⟨_, rfl, 1, rfl⟩, rfl⟩
  have hforever : Call.Loops ⟨.paren, symbol "while", [symbol "true", symbol "nil"], place⟩
      (symbol "true") (symbol "nil") .root (.full 0 : Environment Empty) (.full 0) :=
    ⟨⟨_, rfl, 1, rfl⟩, rfl⟩
  have hround : Rounds (symbol "x") bind .root before [.bool false]
      (before.set .root (number "x") (.bool false)) :=
    .next ⟨1, rfl⟩ ⟨2, rfl⟩ (.none _)
  refine ⟨((loop_meaning hloops).1 _ _).2 ⟨_, _, hround, ⟨1, rfl⟩, rfl⟩, ?_⟩
  exact (loop_meaning hforever).2.2.1 (loops_forever ⟨1, rfl⟩ ⟨1, rfl⟩)

end BracketLisp
