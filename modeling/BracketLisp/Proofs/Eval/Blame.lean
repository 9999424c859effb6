import BracketLisp.Proofs.Eval.CatalogRefusal
import BracketLisp.Proofs.Eval.Row

/-!
# `BracketLisp.Proofs.Eval.Blame`: the errors of the catalog

A call of an entry of the catalog fails because the argument that is next in its row fails, or
with an error of its own. `Builtin.Blames` lists these. The number of arguments is blamed on the
call, and everything else on an argument, or on a part of one where parameters are listed.

* `Builtin.Accepts` and `Builtin.Refuses` speak of values of the first arguments: whether a call
  could have a result with them, or has to fail. The argument that is blamed for its value is the
  leftmost whose value cannot be accepted. A loop is no such case, because it evaluates its
  arguments more than once.
* `accounts_operation` and one lemma for each special form find the cause of an error.
* `call_blames_leftmost` puts them together.
-/

set_option autoImplicit false

namespace BracketLisp

variable {H : Type}

/-! ### Acceptable values -/

/-- The way to evaluate elements that gives the values of a script, one after the other. It counts
how often it is asked where functions are counted. -/
def scripted (script : List (Value H)) : Evaluator H :=
  fun _ _ => Eval.make fun env =>
    (script[env.functions]?.getD .nil, { env with functions := env.functions + 1 })

/-- Elements get the values that the script has for them. -/
theorem scripted_passes (script : List (Value H)) (scope : ScopeId) (elements : List Element)
    (env : Environment H) (hlength : env.functions + elements.length = script.length) :
    ∃ after,
      Passes (scripted script) scope env elements (.ok (script.drop env.functions)) after := by
  induction elements generalizing env with
  | nil =>
    have hend : script.length ≤ env.functions := Nat.le_of_eq hlength.symm
    rw [List.drop_of_length_le hend]
    exact ⟨env, .done env⟩
  | cons element others ih =>
    rw [List.length_cons] at hlength
    have hlt : env.functions < script.length := by omega
    obtain ⟨after, hothers⟩ := ih { env with functions := env.functions + 1 }
      (by show env.functions + 1 + others.length = _; omega)
    refine ⟨after, ?_⟩
    have hvalue : (scripted script element scope).apply env =
        (.ok script[env.functions], { env with functions := env.functions + 1 }) := by
      rw [scripted, Eval.apply_make, List.getElem?_eq_getElem hlt]
      rfl
    rw [List.drop_eq_getElem_cons hlt]
    exact .next hvalue hothers

/-- Whether there is a way to evaluate the arguments of a call by which the first have these values
and the call has a result. -/
def Builtin.Accepts (entry : Builtin) (call : Call) (values : List (Value H)) : Prop :=
  ∃ (fuel : Nat) (evaluate : Evaluator H) (scope : ScopeId) (env mid after : Environment H)
      (result : Value H),
    Passes evaluate scope env (call.args.take values.length) (.ok values) mid ∧
      (entry.perform fuel evaluate call scope).apply env = (.ok result, after)

/-- Whether a call fails with an error whenever its first arguments have these values, unless one
behind them halts. -/
def Builtin.Refuses (entry : Builtin) (call : Call) (values : List (Value H)) (error : EvalError) :
    Prop :=
  ∀ (fuel : Nat) (evaluate : Evaluator H) (scope : ScopeId) (env mid : Environment H),
    Passes evaluate scope env (call.args.take values.length) (.ok values) mid →
      ∃ count passed after, count ≤ call.args.length ∧
        Passes evaluate scope env (call.args.take count) passed after ∧
        ((entry.perform fuel evaluate call scope).apply env = (.error (.fault error), after) ∨
          ∃ halt, passed = .error halt ∧ values.length < count ∧
            (entry.perform fuel evaluate call scope).apply env = (.error halt, after))

namespace Operation

variable {operation : Operation} {call : Call}

theorem perform_of_admits (hadmits : operation.arity.Admits call.args.length)
    (evaluate : Evaluator H) (scope : ScopeId) (env : Environment H) :
    (operation.fold.perform evaluate call scope).apply env =
      (operation.fold.consume evaluate scope operation.fold.start call.args).apply env := by
  rcases call.expect_cases operation.arity with ⟨-, hexpect⟩ | ⟨hnot, -⟩
  · rw [ArgumentFold.perform, Eval.apply_bind, operation.arity_fold, hexpect]
    rfl
  · exact absurd hadmits hnot

/-- Operands that have a result are acceptable, as are the first of them. -/
theorem accepts_of_outcome (hadmits : operation.arity.Admits call.args.length)
    {before others : List (Located (Value H))} {result : Value H}
    (hspans : (before ++ others).map Located.span = call.args.map Element.span)
    (houtcome : operation.fold.outcome operation.fold.start (before ++ others) = .ok result) :
    (Builtin.operation operation).Accepts call (before.map Located.value) := by
  let script : List (Value H) := (before ++ others).map Located.value
  let env : Environment H := .bare 0
  have hlength : (before ++ others).length = call.args.length := by
    simpa using congrArg List.length hspans
  obtain ⟨all, hall⟩ := scripted_passes script .root call.args env (by
    rw [List.length_map, hlength]
    exact Nat.zero_add _)
  have hleads : Leads (scripted script) .root env call.args (before ++ others) := by
    constructor
    · rw [hlength, List.take_length, hspans]
    · rw [hlength, List.take_length]
      exact ⟨all, hall⟩
  have hsettled (rest : List (Located (Value H)))
      (hrest : (before ++ others).length + rest.length = call.args.length) :
      operation.fold.outcome operation.fold.start (before ++ others ++ rest) = .ok result := by
    obtain rfl : rest = [] := List.eq_nil_of_length_eq_zero (by omega)
    rw [List.append_nil, houtcome]
  obtain ⟨count, passed, after, hcount, -, hends⟩ :=
    operation.fold.consume_of_settled hleads hsettled
  obtain ⟨mid, hfirst⟩ := hall.take before.length
  refine ⟨0, scripted script, .root, env, mid, after, result, ?_, ?_⟩
  · rw [List.length_map]
    have hvalues : (script.drop env.functions).take before.length = before.map Located.value := by
      show ((before ++ others).map Located.value).take before.length = _
      rw [← List.map_take, List.take_left]
    rwa [hvalues] at hfirst
  · show (operation.fold.perform _ call .root).apply env = _
    rw [perform_of_admits hadmits]
    rcases hends with hends | ⟨halt, -, hlt, -⟩
    · exact hends
    · omega

/-- Operands that settle an error are refused. -/
theorem refuses_of_outcome (hadmits : operation.arity.Admits call.args.length)
    {first : List (Located (Value H))} {error : EvalError}
    (hspans : first.map Located.span = (call.args.take first.length).map Element.span)
    (hsettled : ∀ others, first.length + others.length = call.args.length →
      operation.fold.outcome operation.fold.start (first ++ others) = .error error) :
    (Builtin.operation operation).Refuses call (first.map Located.value) error := by
  intro fuel evaluate scope env mid hpasses
  rw [List.length_map] at hpasses ⊢
  have hleads : Leads evaluate scope env call.args first := ⟨hspans, mid, hpasses⟩
  obtain ⟨count, passed, after, hcount, hrow, hends⟩ :=
    operation.fold.consume_of_settled hleads hsettled
  refine ⟨count, passed, after, hcount, hrow, ?_⟩
  show (operation.fold.perform evaluate call scope).apply env = _ ∨
    ∃ halt, _ ∧ _ ∧ (operation.fold.perform evaluate call scope).apply env = _
  rw [perform_of_admits hadmits]
  exact hends

end Operation

/-! ### The errors of a call -/

/-- How many arguments an entry of the catalog takes. -/
def Builtin.arity : Builtin → Arity
  | .operation op => op.arity
  | .form .assign | .form .loop | .form .lambda => .exactly 2
  | .form .branch => .exactly 3
  | .form .sequence => .atLeast 1

/-- Whether an entry of the catalog, called with some arguments that have been evaluated in a row
to `values`, fails with an error of its own. -/
inductive Builtin.Blames (entry : Builtin) (call : Call) :
    List Element → List (Value H) → EvalError → Prop where
  /-- The number of arguments is wrong, which is the fault of the whole call. -/
  | count (h : ¬ entry.arity.Admits call.args.length) :
      Blames entry call [] [] ⟨entry.arity.fault call.args.length, call.span⟩
  /-- The target of `set` is not a symbol. -/
  | target {target : Element} {others : List Element} (hentry : entry = .form .assign)
      (hargs : call.args = target :: others) (h : target.symbol? = none) :
      Blames entry call [] [] ⟨.targetNotSymbol, target.span⟩
  /-- The parameters of `func` are not a list. -/
  | list {list body : Element} (hentry : entry = .form .lambda) (hargs : call.args = [list, body])
      (h : list.form? = none) :
      Blames entry call [] [] ⟨.parameterNotSymbol, list.span⟩
  /-- The first of the parameters of `func` that is not a symbol. -/
  | parameter {list body parameter : Element} {form : Form} {before behind : List Element}
      (hentry : entry = .form .lambda) (hargs : call.args = [list, body])
      (hform : list.form? = some form) (hsplit : form.elements = before ++ parameter :: behind)
      (hbefore : ∀ element ∈ before, element.symbol? ≠ none) (h : parameter.symbol? = none) :
      Blames entry call [] [] ⟨.parameterNotSymbol, parameter.span⟩
  /-- The leftmost argument whose value is not acceptable. -/
  | operand {before behind : List (Value H)} {value : Value H} {argument : Element}
      {error : EvalError} (hentry : entry ≠ .form .loop)
      (hargument : call.args[before.length]? = some argument)
      (hblames : error.Blames ⟨value, argument.span⟩) (haccepts : entry.Accepts call before)
      (hrefuses : entry.Refuses call (before ++ [value]) error) :
      Blames entry call (call.args.take (before ++ value :: behind).length)
        (before ++ value :: behind) error
  /-- The test of `while`, once its value is not a truth value. -/
  | test {test body : Element} {earlier : List (Value H)} {value : Value H}
      (hentry : entry = .form .loop) (hargs : call.args = [test, body]) (rounds : Nat)
      (h : value.kind ≠ .bool) :
      Blames entry call ((List.replicate rounds [test, body]).flatten ++ [test])
        (earlier ++ [value]) ⟨.notBoolean value.kind, test.span⟩

/-- Whether the error of a call is that of the argument which is next after those in its row, or one
of the entry itself. -/
def Builtin.Accounts (entry : Builtin) (evaluate : Evaluator H) (call : Call) (scope : ScopeId)
    (env : Environment H) (error : EvalError) (after : Environment H) : Prop :=
  ∃ elements values mid, entry.Visits call.args elements values ∧
    Passes evaluate scope env elements (.ok values) mid ∧
    ((∃ argument, entry.Next call.args values argument ∧
        (evaluate argument scope).apply mid = (.error (.fault error), after)) ∨
      mid = after ∧ entry.Blames call elements values error)

section

variable {evaluate : Evaluator H} {call : Call} {scope : ScopeId} {env after : Environment H}
  {error : EvalError}

theorem accounts_of_count {entry : Builtin} (h : ¬ entry.arity.Admits call.args.length) :
    entry.Accounts evaluate call scope env ⟨entry.arity.fault call.args.length, call.span⟩ env :=
  ⟨[], [], env, .start, .done env, .inr ⟨rfl, .count h⟩⟩

/-- The operand that an operation refuses is the value of an argument. -/
theorem blames_operand {operation : Operation} (hadmits : operation.arity.Admits call.args.length)
    {before behind : List (Located (Value H))} {operand : Located (Value H)}
    (hspans : (before ++ operand :: behind).map Located.span =
      (call.args.take (before ++ operand :: behind).length).map Element.span)
    (hrefuses : operation.fold.Refuses operation.fold.start call.args.length before operand error) :
    (Builtin.operation operation).Blames call
      (call.args.take (before ++ operand :: behind).length)
      ((before ++ operand :: behind).map Located.value) error := by
  obtain ⟨argument, hargument, hspan⟩ : ∃ argument, call.args[before.length]? = some argument ∧
      argument.span = operand.span := by
    have hplace := congrArg (·[before.length]?) hspans
    have hlt : before.length < (before ++ operand :: behind).length := by simp
    simp only [List.getElem?_map, List.getElem?_append_right (Nat.le_refl _), Nat.sub_self,
      List.getElem?_cons_zero, Option.map_some, List.getElem?_take_of_lt hlt] at hplace
    obtain ⟨argument, hargument, hspan⟩ := Option.map_eq_some_iff.1 hplace.symm
    exact ⟨argument, hargument, hspan⟩
  have hbefore := spans_of_prefix hspans (List.prefix_append before (operand :: behind))
  have hfirst := spans_of_prefix hspans ⟨behind, List.append_assoc before [operand] behind⟩
  have hblames : error.Blames ⟨operand.value, argument.span⟩ := by
    rw [hspan]
    exact hrefuses.blames
  have hcount : before.length ≤ call.args.length := by
    have hlt := (List.getElem?_eq_some_iff.1 hargument).1
    omega
  have haccepts : (Builtin.operation operation).Accepts call (before.map Located.value) := by
    obtain ⟨others, hothers, value, hvalue⟩ := hrefuses.accepts
      ((call.args.drop before.length).map Element.span) (by simp [hcount])
    refine Operation.accepts_of_outcome hadmits ?_ hvalue
    rw [List.map_append, hbefore, hothers, ← List.map_append, List.take_append_drop]
  have hrefused : (Builtin.operation operation).Refuses call
      (before.map Located.value ++ [operand.value]) error := by
    have hsettled := Operation.refuses_of_outcome hadmits hfirst fun others hothers => by
      rw [List.append_assoc]
      refine hrefuses.refuses others ?_
      rw [List.length_append, List.length_singleton] at hothers
      omega
    rwa [List.map_append] at hsettled
  have hmap : (before ++ operand :: behind).map Located.value =
      before.map Located.value ++ operand.value :: behind.map Located.value := by simp
  have hlength : (before ++ operand :: behind).length =
      (before.map Located.value ++ operand.value :: behind.map Located.value).length := by simp
  rw [hmap, hlength]
  exact .operand nofun (by rwa [List.length_map]) hblames haccepts hrefused

theorem accounts_operation {operation : Operation}
    (h : (operation.fold.perform evaluate call scope).apply env = (.error (.fault error), after)) :
    (Builtin.operation operation).Accounts evaluate call scope env error after := by
  by_cases hadmits : operation.arity.Admits call.args.length
  · rw [Operation.perform_of_admits hadmits] at h
    obtain ⟨operands, mid, hspans, hpasses, hends⟩ :=
      operation.fold.consume_cases evaluate scope operation.fold.start call.args env
    rcases hends with ⟨later, argument, halt, end', hreaches, hargument, hhalts, hends⟩ |
      ⟨outcome, hdecides, hends⟩
    · cases hends.symm.trans h
      exact ⟨_, _, mid, Builtin.visits_of_reaches hadmits hspans hreaches, hpasses,
        .inl ⟨argument, .operation hadmits hspans hreaches hargument, hhalts⟩⟩
    · obtain ⟨hresult, rfl⟩ := Prod.mk.inj (hends.symm.trans h)
      obtain rfl : outcome = .error error := by
        cases outcome <;> cases hresult
        rfl
      have hvisits := Builtin.visits_of_decides hadmits hspans hdecides
      obtain ⟨before, operand, behind, rfl, hrefuses⟩ :=
        Operation.refuses_of_decides hadmits hdecides
      exact ⟨_, _, mid, hvisits, hpasses, .inr ⟨rfl, blames_operand hadmits hspans hrefuses⟩⟩
  · rcases call.expect_cases operation.arity with ⟨hadmits', -⟩ | ⟨-, hexpect⟩
    · exact absurd hadmits' hadmits
    · rw [ArgumentFold.perform, Eval.apply_bind, operation.arity_fold, hexpect] at h
      cases h
      exact accounts_of_count hadmits

/-! ### Special forms -/

theorem accounts_of_failArity {special : SpecialForm} {expected : Nat}
    (harity : (Builtin.form special).arity = .exactly expected)
    (hcount : call.args.length ≠ expected)
    (h : (call.failArity expected : Eval H (Value H)).apply env = (.error (.fault error), after)) :
    (Builtin.form special).Accounts evaluate call scope env error after := by
  cases h
  have hadmits : ¬ (Builtin.form special).arity.Admits call.args.length := by
    rw [harity]
    exact hcount
  have haccounts : (Builtin.form special).Accounts evaluate call scope env _ env :=
    accounts_of_count hadmits
  rwa [harity] at haccounts

theorem accounts_assign
    (h : (call.assign evaluate scope).apply env = (.error (.fault error), after)) :
    (Builtin.form .assign).Accounts evaluate call scope env error after := by
  unfold Call.assign at h
  split at h
  next hargs => exact accounts_of_failArity rfl (by simp [hargs]) h
  next target others hargs =>
    split at h
    next hsymbol =>
      cases h
      exact ⟨[], [], env, .start, .done env, .inr ⟨rfl, .target rfl hargs hsymbol⟩⟩
    next id element hsymbol =>
      rw [Eval.apply_bind] at h
      cases helement : (evaluate element scope).apply env with
      | mk result mid =>
        rw [helement] at h
        cases result with
        | ok value => cases h
        | error halt =>
          cases h
          exact ⟨[], [], env, .start, .done env,
            .inl ⟨element, .assign hargs (by simp [hsymbol]), helement⟩⟩
    next hsymbol hothers =>
      refine accounts_of_failArity rfl (fun hcount => ?_) h
      rw [hargs, List.length_cons] at hcount
      obtain ⟨element, helement⟩ := List.length_eq_one_iff.1 (Nat.succ.inj hcount)
      exact hothers element helement

/-- A condition has the truth value that its element has, and refuses any other value. -/
theorem Eval.condition_cases (evaluate : Evaluator H) (scope : ScopeId) (element : Element)
    (env : Environment H) :
    (∃ halt after, (evaluate element scope).apply env = (.error halt, after) ∧
        (Eval.condition evaluate scope element).apply env = (.error halt, after)) ∨
      (∃ truth after, (evaluate element scope).apply env = (.ok (.bool truth), after) ∧
        (Eval.condition evaluate scope element).apply env = (.ok truth, after)) ∨
      ∃ value after, (evaluate element scope).apply env = (.ok value, after) ∧
        value.kind ≠ .bool ∧ (Eval.condition evaluate scope element).apply env =
          (.error (.fault ⟨.notBoolean value.kind, element.span⟩), after) := by
  rw [Eval.condition, Eval.apply_bind]
  cases helement : (evaluate element scope).apply env with
  | mk result after =>
    cases result with
    | error halt => exact .inl ⟨halt, after, rfl, rfl⟩
    | ok value =>
      cases value with
      | bool truth => exact .inr (.inl ⟨truth, after, rfl, rfl⟩)
      | _ => exact .inr (.inr ⟨_, after, rfl, nofun, rfl⟩)

/-- If its first argument has another value than a truth value, a branch refuses it, and any other
could have been the value. -/
theorem blames_branch {test consequent alternative : Element} {value : Value H}
    (hargs : call.args = [test, consequent, alternative]) (hkind : value.kind ≠ .bool) :
    (Builtin.form .branch).Blames call [test] [value] ⟨.notBoolean value.kind, test.span⟩ := by
  have hbranch (evaluate : Evaluator H) (scope : ScopeId) (env : Environment H) :
      (call.branch evaluate scope).apply env =
        (Eval.condition evaluate scope test >>= fun truth =>
          if truth then evaluate consequent scope else evaluate alternative scope).apply env := by
    rw [Call.branch, hargs]
  have haccepts : (Builtin.form .branch).Accepts call ([] : List (Value H)) :=
    ⟨0, fun _ _ => pure (.bool true), .root, .bare 0, .bare 0, .bare 0, .bool true, .done _,
      hbranch ..⟩
  have hrefuses : (Builtin.form .branch).Refuses call [value]
      ⟨.notBoolean value.kind, test.span⟩ := by
    intro fuel evaluate scope env mid hpasses
    rw [hargs] at hpasses
    refine ⟨1, _, mid, by simp [hargs], hargs ▸ hpasses, .inl ?_⟩
    show (call.branch evaluate scope).apply env = _
    rw [hbranch, Eval.apply_bind]
    rcases Eval.condition_cases evaluate scope test env with ⟨halt, after, htest, -⟩ |
      ⟨truth, after, htest, -⟩ | ⟨other, after, htest, -, hcondition⟩
    · cases (hpasses.unique (.halts htest)).1
    · cases (hpasses.unique (.next htest (.done after))).1
      exact absurd rfl hkind
    · obtain ⟨hvalues, rfl⟩ := hpasses.unique (.next htest (.done after))
      cases hvalues
      rw [hcondition]
  have hfirst : call.args[([] : List (Value H)).length]? = some test := by
    rw [hargs]
    rfl
  have hblames : (Builtin.form .branch).Blames call
      (call.args.take ([] ++ value :: []).length) ([] ++ value :: [])
      ⟨.notBoolean value.kind, test.span⟩ :=
    .operand nofun hfirst ⟨rfl, rfl⟩ haccepts hrefuses
  rwa [hargs] at hblames

theorem accounts_branch
    (h : (call.branch evaluate scope).apply env = (.error (.fault error), after)) :
    (Builtin.form .branch).Accounts evaluate call scope env error after := by
  unfold Call.branch at h
  split at h
  next test consequent alternative hargs =>
    rw [Eval.apply_bind] at h
    rcases Eval.condition_cases evaluate scope test env with ⟨halt, mid, htest, hcondition⟩ |
      ⟨truth, mid, htest, hcondition⟩ | ⟨value, mid, htest, hkind, hcondition⟩
    · rw [hcondition] at h
      cases h
      exact ⟨[], [], env, .start, .done env, .inl ⟨test, .test hargs, htest⟩⟩
    · rw [hcondition] at h
      have hchosen : (evaluate (if truth then consequent else alternative) scope).apply mid =
          (.error (.fault error), after) := by
        cases truth <;> exact h
      exact ⟨[test], [.bool truth], mid, .next .start (.test hargs) _, .next htest (.done mid),
        .inl ⟨_, .chosen hargs truth, hchosen⟩⟩
    · rw [hcondition] at h
      cases h
      exact ⟨[test], [value], after, .next .start (.test hargs) value, .next htest (.done after),
        .inr ⟨rfl, blames_branch hargs hkind⟩⟩
  next hothers =>
    refine accounts_of_failArity rfl (fun hcount => ?_) h
    obtain ⟨test, consequent, alternative, hargs⟩ := List.length_eq_three.1 hcount
    exact hothers test consequent alternative hargs

/-- Rounds of a loop that fail do so in the test or the body of the last of them, or because the
test has another value than a truth value. -/
theorem Eval.rounds_fails {test body : Element} {fuel : Nat} {last : Value H}
    (h : (Eval.rounds (Eval.condition evaluate scope test) (evaluate body scope) fuel last).apply
      env = (.error (.fault error), after)) :
    ∃ elements values mid, (Builtin.form .loop).Visits [test, body] elements values ∧
      Passes evaluate scope env elements (.ok values) mid ∧
      ((∃ argument, (Builtin.form .loop).Next [test, body] values argument ∧
          (evaluate argument scope).apply mid = (.error (.fault error), after)) ∨
        ∃ rounds earlier value, elements = (List.replicate rounds [test, body]).flatten ++ [test] ∧
          values = earlier ++ [value] ∧ mid = after ∧ value.kind ≠ .bool ∧
          error = ⟨.notBoolean value.kind, test.span⟩) := by
  have hfirst : (Builtin.form .loop).Next [test, body] ([] : List (Value H)) test := .again rfl []
  induction fuel generalizing env last with
  | zero => cases h
  | succ fuel ih =>
    rw [Eval.rounds, Eval.apply_bind] at h
    rcases Eval.condition_cases evaluate scope test env with ⟨halt, mid, htest, hcondition⟩ |
      ⟨truth, mid, htest, hcondition⟩ | ⟨value, mid, htest, hkind, hcondition⟩
    · rw [hcondition] at h
      cases h
      exact ⟨[], [], env, .start, .done env, .inl ⟨test, hfirst, htest⟩⟩
    · rw [hcondition] at h
      cases truth with
      | false => cases h
      | true =>
        change (evaluate body scope >>= fun value =>
          Eval.rounds (Eval.condition evaluate scope test) (evaluate body scope) fuel value).apply
            mid = _ at h
        rw [Eval.apply_bind] at h
        cases hbody : (evaluate body scope).apply mid with
        | mk result later =>
          rw [hbody] at h
          cases result with
          | error halt =>
            cases h
            exact ⟨[test], [.bool true], mid, .next .start hfirst _, .next htest (.done mid),
              .inl ⟨body, .round rfl [], hbody⟩⟩
          | ok result =>
            obtain ⟨elements, values, end', hvisits, hpasses, hends⟩ := ih h
            -- This round stands in front of the rounds that are left.
            refine ⟨_, _, end', hvisits.round_front result, .next htest (.next hbody hpasses), ?_⟩
            rcases hends with ⟨argument, hnext, hfails⟩ |
              ⟨rounds, earlier, refused, rfl, rfl, hrefused⟩
            · exact .inl ⟨argument, hnext.round_front result, hfails⟩
            · exact .inr ⟨rounds + 1, .bool true :: result :: earlier, refused, rfl, rfl, hrefused⟩
    · rw [hcondition] at h
      cases h
      exact ⟨[test], [value], after, .next .start hfirst value, .next htest (.done after),
        .inr ⟨0, [], value, rfl, rfl, rfl, hkind, rfl⟩⟩

theorem accounts_loop {fuel : Nat}
    (h : (call.loop fuel evaluate scope).apply env = (.error (.fault error), after)) :
    (Builtin.form .loop).Accounts evaluate call scope env error after := by
  unfold Call.loop at h
  split at h
  next test body hargs =>
    obtain ⟨elements, values, mid, hvisits, hpasses, hends⟩ := Eval.rounds_fails h
    rw [← hargs] at hvisits
    refine ⟨elements, values, mid, hvisits, hpasses, ?_⟩
    rcases hends with ⟨argument, hnext, hfails⟩ |
      ⟨rounds, earlier, value, rfl, rfl, hmid, hkind, rfl⟩
    · exact .inl ⟨argument, hargs ▸ hnext, hfails⟩
    · exact .inr ⟨hmid, .test rfl hargs rounds hkind⟩
  next hothers =>
    refine accounts_of_failArity rfl (fun hcount => ?_) h
    obtain ⟨test, body, hargs⟩ := List.length_eq_two.1 hcount
    exact hothers test body hargs

/-- The first of some elements that is not a symbol is at fault. -/
theorem Element.parameters_fails {elements : List Element}
    (h : Element.parameters elements = .error error) :
    ∃ before parameter behind, elements = before ++ parameter :: behind ∧
      (∀ element ∈ before, element.symbol? ≠ none) ∧ parameter.symbol? = none ∧
      error = ⟨.parameterNotSymbol, parameter.span⟩ := by
  induction elements with
  | nil => cases h
  | cons element others ih =>
    unfold Element.parameters at h
    split at h
    next id hsymbol =>
      obtain ⟨before, parameter, behind, rfl, hbefore, hparameter⟩ := ih (eq_error_of_map h)
      refine ⟨element :: before, parameter, behind, rfl, ?_, hparameter⟩
      exact List.forall_mem_cons.2 ⟨by simp [hsymbol], hbefore⟩
    next hsymbol =>
      cases h
      exact ⟨[], element, others, rfl, by simp, hsymbol, rfl⟩

theorem accounts_lambda
    (h : (call.lambda : Eval H (Value H)).apply env = (.error (.fault error), after)) :
    (Builtin.form .lambda).Accounts evaluate call scope env error after := by
  unfold Call.lambda at h
  split at h
  next list body hargs =>
    split at h
    next hform =>
      cases h
      exact ⟨[], [], env, .start, .done env, .inr ⟨rfl, .list rfl hargs hform⟩⟩
    next form hform =>
      rw [Eval.apply_bind] at h
      cases hids : Element.parameters form.elements with
      | ok ids =>
        rw [hids] at h
        cases h
      | error other =>
        rw [hids] at h
        cases h
        obtain ⟨before, parameter, behind, hsplit, hbefore, hparameter, rfl⟩ :=
          Element.parameters_fails hids
        exact ⟨[], [], env, .start, .done env,
          .inr ⟨rfl, .parameter rfl hargs hform hsplit hbefore hparameter⟩⟩
  next hothers =>
    refine accounts_of_failArity rfl (fun hcount => ?_) h
    obtain ⟨list, body, hargs⟩ := List.length_eq_two.1 hcount
    exact hothers list body hargs

/-- Elements that are evaluated in order halt with the first that does. -/
theorem Eval.inOrder_fails {last : Value H} {elements : List Element}
    (h : (Eval.inOrder evaluate scope last elements).apply env = (.error (.fault error), after)) :
    ∃ (values : List (Value H)) (mid : Environment H) (argument : Element),
      Passes evaluate scope env (elements.take values.length) (.ok values) mid ∧
      elements[values.length]? = some argument ∧
      (evaluate argument scope).apply mid = (.error (.fault error), after) := by
  induction elements generalizing env last with
  | nil => cases h
  | cons element others ih =>
    rw [Eval.inOrder, Eval.apply_bind] at h
    cases helement : (evaluate element scope).apply env with
    | mk result mid =>
      rw [helement] at h
      cases result with
      | error halt =>
        cases h
        exact ⟨[], env, element, .done env, rfl, helement⟩
      | ok value =>
        obtain ⟨values, end', argument, hpasses, hargument, hfails⟩ := ih h
        exact ⟨value :: values, end', argument, .next helement hpasses, hargument, hfails⟩

theorem accounts_sequence
    (h : (call.sequence evaluate scope).apply env = (.error (.fault error), after)) :
    (Builtin.form .sequence).Accounts evaluate call scope env error after := by
  rw [Call.sequence, Eval.apply_bind] at h
  rcases call.expect_cases (.atLeast 1) with ⟨-, hexpect⟩ | ⟨hadmits, hexpect⟩
  · have hexpect' : call.expectAtLeast 1 = .ok () := hexpect
    rw [hexpect'] at h
    obtain ⟨values, mid, argument, hpasses, hargument, hfails⟩ := Eval.inOrder_fails h
    obtain ⟨hlt, -⟩ := List.getElem?_eq_some_iff.1 hargument
    exact ⟨_, values, mid, Builtin.visits_sequence (Nat.le_of_lt hlt), hpasses,
      .inl ⟨argument, .sequence hargument, hfails⟩⟩
  · have hexpect' : call.expectAtLeast 1 = _ := hexpect
    rw [hexpect'] at h
    cases h
    exact accounts_of_count hadmits

end

/-- A call whose head is an entry of the catalog evaluates arguments in its row. If it fails, either
the next of these fails, and the call for the same cause, or the error is one of the entry itself.
Then it tells the truth about the call or about one of its arguments, and that is the leftmost that
can be blamed for its value. With `eval fuel` for `evaluate`, the step is `eval (fuel + 1)`. -/
theorem call_blames_leftmost [Host H] (fuel : Nat) (evaluate : Evaluator H) (call : Call)
    (scope : ScopeId) {env mid after : Environment H} {native : Native H} {entry : Builtin}
    {error : EvalError} (hentry : native.action = .catalog entry)
    (hhead : (evaluate call.head scope).apply env = (.ok (.native native), mid))
    (hfails : (Element.step fuel evaluate call.form.element scope).apply env =
      (.error (.fault error), after)) :
    entry.Accounts evaluate call scope mid error after := by
  rw [Call.apply_entry fuel hentry hhead] at hfails
  cases entry with
  | operation operation => exact accounts_operation hfails
  | form special =>
    cases special with
    | assign => exact accounts_assign hfails
    | branch => exact accounts_branch hfails
    | loop => exact accounts_loop hfails
    | lambda => exact accounts_lambda hfails
    | sequence => exact accounts_sequence hfails

/-- The second argument of a sum is `nil` and the third is `true`. The second is blamed. -/
theorem call_blames_leftmost_sum :
    ∃ (call : Call) (native : Native Empty) (after : Environment Empty),
      call.args.map Element.span = [⟨"t", 1, 4⟩, ⟨"t", 1, 6⟩, ⟨"t", 1, 10⟩] ∧
        native.action = .catalog (.operation (.arithmetic .add)) ∧
        (eval 5 call.head .root).apply (.full 0) = (.ok (.native native), .full 0) ∧
        (eval 6 call.form.element .root).apply (.full 0) =
          (.error (.fault ⟨.nonArithmetic .nil, ⟨"t", 1, 6⟩⟩), after) ∧
        (Builtin.operation (.arithmetic .add)).Accounts (eval 5) call .root (.full 0)
          ⟨.nonArithmetic .nil, ⟨"t", 1, 6⟩⟩ after := by
  let symbol (name : String) (column : Nat) : Element :=
    .symbol (numberOf [] name) ⟨"t", 1, column⟩
  let call : Call := ⟨.paren, symbol "+" 2,
    [.int 1 ⟨"t", 1, 4⟩, symbol "nil" 6, symbol "true" 10], ⟨"t", 1, 1⟩⟩
  have hadd : ("+", .operation (.arithmetic .add)) ∈ catalog := by decide
  obtain ⟨native, haction, hhead⟩ := eval_entry (H := Empty) 4 0 [] hadd ⟨"t", 1, 2⟩
  have hfails : (eval 6 call.form.element .root).apply (.full 0 : Environment Empty) =
      (.error (.fault ⟨.nonArithmetic .nil, ⟨"t", 1, 6⟩⟩), _) := rfl
  exact ⟨call, native, _, rfl, haction, hhead, hfails,
    call_blames_leftmost 5 (eval 5) call .root haction hhead hfails⟩

end BracketLisp
