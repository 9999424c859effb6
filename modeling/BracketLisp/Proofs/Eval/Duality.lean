import BracketLisp.Proofs.Eval.Operands

/-!
# `BracketLisp.Proofs.Eval.Duality`: disjunction against conjunction

A disjunction stops at the first operand that is true, and the conjunction of the negated operands
at the first that is false. So they evaluate the same operands, and their results are opposite.

* A conjunction or disjunction asks its first argument for a truth value as a condition does, and
  then stops or goes on (`consume_logic_cons`). A negation asks in the same way
  (`consume_not`).
* `Opposed` says that two calls are dual: the arguments of one are those of the other, negated.
  `consume_opposed` compares them by induction on the arguments.
* `logic_de_morgan` concludes for calls, over any way to evaluate elements and over `eval`.
-/

set_option autoImplicit false

namespace BracketLisp

variable {H : Type}

/-! ### Asking for a truth value -/

theorem boolOperand_of_kind {operand : Located (Value H)} (h : operand.value.kind ≠ .bool) :
    boolOperand operand = .error ⟨.notBoolean operand.value.kind, operand.span⟩ := by
  obtain ⟨value, span⟩ := operand
  cases value with
  | bool _ => exact absurd rfl h
  | _ => rfl

section

variable (evaluate : Evaluator H) (scope : ScopeId) (env : Environment H)

/-- An operation that looks at the truth value of its next argument asks for it as a condition
does. -/
theorem consume_of_bool {fold : ArgumentFold H} {state : fold.State}
    {verdict : Bool → Verdict fold.State (Value H)}
    (hstep : ∀ operand, fold.step state operand = (boolOperand operand).map verdict)
    (argument : Element) (others : List Element) :
    (fold.consume evaluate scope state (argument :: others)).apply env =
      (Eval.condition evaluate scope argument >>= fun truth =>
        match verdict truth with
        | .next later => fold.consume evaluate scope later others
        | .stop result => pure result).apply env := by
  rw [Eval.apply_bind]
  rcases Eval.condition_cases evaluate scope argument env with
    ⟨halt, after, hargument, hcondition⟩ | ⟨truth, after, hargument, hcondition⟩ |
      ⟨value, after, hargument, hkind, hcondition⟩
  · rw [hcondition, ArgumentFold.consume_of_halt hargument]
  · let operand : Located (Value H) := ⟨.bool truth, argument.span⟩
    have hvalue : (evaluate argument scope).apply env = (.ok operand.value, after) := hargument
    have hverdict : fold.step state operand = .ok (verdict truth) := hstep operand
    rw [hcondition, ArgumentFold.consume_cons hvalue rfl, hverdict]
    dsimp only
    cases verdict truth <;> rfl
  · let operand : Located (Value H) := ⟨value, argument.span⟩
    have hvalue : (evaluate argument scope).apply env = (.ok operand.value, after) := hargument
    have herror : fold.step state operand = .error ⟨.notBoolean value.kind, argument.span⟩ := by
      rw [hstep, boolOperand_of_kind hkind]
      rfl
    rw [hcondition, ArgumentFold.consume_cons hvalue rfl, herror]

/-- A conjunction or disjunction asks its first argument for a truth value, and stops there or goes
on. -/
theorem consume_logic_cons (decisive : Bool) (state : (logicFold (H := H) decisive).State)
    (argument : Element) (others : List Element) :
    ((logicFold decisive).consume evaluate scope state (argument :: others)).apply env =
      match (Eval.condition evaluate scope argument).apply env with
      | (.error halt, mid) => (.error halt, mid)
      | (.ok truth, mid) =>
        if truth = decisive then (.ok (.bool decisive), mid)
        else ((logicFold decisive).consume evaluate scope state others).apply mid := by
  rw [consume_of_bool evaluate scope env (fun _ => rfl), Eval.apply_bind]
  rcases (Eval.condition evaluate scope argument).apply env with ⟨_ | truth, mid⟩
  · rfl
  · by_cases hstop : truth = decisive
    · simp only [if_pos hstop]
      rfl
    · simp only [if_neg hstop]
      rfl

/-- A negation has the opposite value of its argument. -/
theorem consume_not (state : (ArgumentFold.unary (negation (H := H))).State) (argument : Element) :
    ((ArgumentFold.unary negation).consume evaluate scope state [argument]).apply env =
      (Eval.condition evaluate scope argument >>= fun truth => pure (.bool !truth)).apply env := by
  have hstep (operand : Located (Value H)) : (ArgumentFold.unary negation).step state operand =
      (boolOperand operand).map fun truth => .stop (.bool !truth) := by
    show ((boolOperand operand).map _).map _ = _
    cases boolOperand operand <;> rfl
  exact consume_of_bool evaluate scope env hstep argument []

end

/-! ### Dual calls -/

/-- Whether a symbol means an operation of the catalog in a scope. -/
def Environment.Means (env : Environment H) (scope : ScopeId) (id : SymbolId)
    (operation : Operation) : Prop :=
  ∃ native : Native H, env.get? scope id = some (.native native) ∧
    native.action = .catalog (.operation operation)

/-- A new session means the operations of the catalog by their names. -/
theorem Environment.means_full (owner : Nat) (met : List String) {name : String}
    {operation : Operation} (h : (name, .operation operation) ∈ catalog) :
    (full owner : Environment H).Means .root (numberOf met name) operation := by
  obtain ⟨native, hbinds, haction⟩ := Environment.offers_full (H := H) owner h
  exact ⟨native, hbinds.get?_numberOf met, haction⟩

/-- Another binding in the root leaves what a symbol means there. -/
theorem Environment.Means.set_root {env : Environment H} {id other : SymbolId}
    {operation : Operation} (h : env.Means .root id operation) (hne : id ≠ other)
    (value : Value H) : (env.set .root other value).Means .root id operation := by
  obtain ⟨native, hget, haction⟩ := h
  have hopen : env.IsOpen .root := trivial
  refine ⟨native, ?_, haction⟩
  rw [get?_root, scope_set_self hopen, Dictionary.get?_set, if_neg hne, ← get?_root, hget]

/-- Whether a way to evaluate elements gives the values of bound symbols and does nothing else to
them. -/
def Evaluator.LooksUp (evaluate : Evaluator H) : Prop :=
  ∀ (id : SymbolId) (place : Position) (scope : ScopeId) (env : Environment H) (value : Value H),
    env.get? scope id = some value →
      (evaluate (.symbol id place) scope).apply env = (.ok value, env)

/-- Any step of evaluation looks symbols up. -/
theorem looksUp_step [Host H] (fuel : Nat) (evaluate : Evaluator H) :
    Evaluator.LooksUp (Element.step fuel evaluate) := by
  intro id place scope env value hvalue
  exact Element.apply_step_symbol fuel evaluate hvalue place

/-- The operation that stops at a truth value. -/
def Operation.stoppingAt : Bool → Operation
  | true => .any
  | false => .all

/-- Whether an element is a call of a symbol with another element as its only argument. -/
def Element.Wraps (id : SymbolId) (argument wrapped : Element) : Prop :=
  ∃ bracket place span, wrapped = .list bracket [.symbol id place, argument] span

/-- Whether a call is one of the operation that stops at `decisive`, and another one is of the
operation that stops at the opposite, with the same arguments, negated. -/
structure Opposed (evaluate : Evaluator H) (scope : ScopeId) (env : Environment H)
    (decisive : Bool) (direct dual : Call) : Prop where
  count : 2 ≤ direct.args.length
  head : ∃ id place, direct.head = .symbol id place ∧
    env.Means scope id (.stoppingAt decisive)
  dualHead : ∃ id place, dual.head = .symbol id place ∧
    env.Means scope id (.stoppingAt !decisive)
  /-- The symbol for the negation keeps its meaning, as far as the calls go on. -/
  negated : ∃ id, List.Forall₂ (Element.Wraps id) direct.args dual.args ∧
    ∀ count mid, count < direct.args.length →
      Passes evaluate scope env (direct.args.take count)
        (.ok (List.replicate count (.bool !decisive))) mid →
      mid.Means scope id .not

/-- Results of dual calls: the same halt, or opposite truth values. -/
inductive Opposite {ε : Type} : Except ε (Value H) → Except ε (Value H) → Prop where
  | halts (halt : ε) : Opposite (.error halt) (.error halt)
  | truths (truth : Bool) : Opposite (.ok (.bool truth)) (.ok (.bool !truth))

/-- What is opposite to an outcome of the program is one. -/
theorem Opposite.of_left {outcome : Except EvalError (Value H)} {result : Except Halt (Value H)}
    (h : Opposite (outcome.mapError .fault) result) :
    ∃ opposite, result = opposite.mapError .fault ∧ Opposite outcome opposite := by
  cases outcome with
  | error error =>
    cases h
    exact ⟨.error error, rfl, .halts error⟩
  | ok value =>
    cases h with
    | truths truth => exact ⟨.ok (.bool !truth), rfl, .truths truth⟩

theorem Opposite.symm {ε : Type} {result result' : Except ε (Value H)}
    (h : Opposite result result') : Opposite result' result := by
  cases h with
  | halts halt => exact .halts halt
  | truths truth =>
    have htruths := Opposite.truths (ε := ε) (H := H) !truth
    rwa [Bool.not_not] at htruths

/-- Whether two computations evaluate as many of their arguments, each in its own way, come to the
same environment, and have opposite results. -/
def RunDually (evaluate evaluate' : Evaluator H) (scope : ScopeId) (env : Environment H)
    (args args' : List Element) (run run' : Eval H (Value H)) : Prop :=
  ∃ count passed passed' after, (args ≠ [] → 0 < count) ∧ count ≤ args.length ∧
    Passes evaluate scope env (args.take count) passed after ∧
    Passes evaluate' scope env (args'.take count) passed' after ∧
    ∃ result result', run.apply env = (result, after) ∧ run'.apply env = (result', after) ∧
      Opposite result result'

section

variable [Host H] (fuel : Nat) {evaluate : Evaluator H} {scope : ScopeId} {env : Environment H}
  {id : SymbolId}

/-- A negated argument asks the argument for a truth value, and has the opposite. -/
theorem apply_negated {argument negated : Element} (hlook : evaluate.LooksUp)
    (hwraps : Element.Wraps id argument negated) (hmeans : env.Means scope id .not) :
    (Element.step fuel evaluate negated scope).apply env =
      (Eval.condition evaluate scope argument >>= fun truth => pure (.bool !truth)).apply env := by
  obtain ⟨bracket, place, span, rfl⟩ := hwraps
  obtain ⟨native, hget, haction⟩ := hmeans
  let call : Call := ⟨bracket, .symbol id place, [argument], span⟩
  have hhead : (evaluate call.head scope).apply env = (.ok (.native native), env) :=
    hlook id place scope env _ hget
  have hadmits : Operation.not.arity.Admits call.args.length := rfl
  have hperform := Operation.apply_step fuel haction hhead hadmits
  exact hperform.trans (consume_not evaluate scope env _ argument)

/-- So its truth value is the opposite, and it has one if the argument has. -/
theorem condition_negated {argument negated : Element} (hlook : evaluate.LooksUp)
    (hwraps : Element.Wraps id argument negated) (hmeans : env.Means scope id .not) :
    (Eval.condition (Element.step fuel evaluate) scope negated).apply env =
      (Eval.condition evaluate scope argument >>= fun truth => pure !truth).apply env := by
  rw [Eval.condition, Eval.apply_bind, apply_negated fuel hlook hwraps hmeans, Eval.apply_bind,
    Eval.apply_bind]
  rcases (Eval.condition evaluate scope argument).apply env with ⟨_ | truth, mid⟩ <;> rfl

/-- A call of a conjunction or disjunction is its fold over the arguments. -/
theorem apply_logic {decisive : Bool} {call : Call} (hlook : evaluate.LooksUp)
    (hhead : ∃ id place, call.head = .symbol id place ∧
      env.Means scope id (.stoppingAt decisive))
    (hcount : 2 ≤ call.args.length) :
    (Element.step fuel evaluate call.form.element scope).apply env =
      ((logicFold decisive).consume evaluate scope () call.args).apply env := by
  obtain ⟨id, place, hsymbol, native, hget, haction⟩ := hhead
  have hvalue : (evaluate call.head scope).apply env = (.ok (.native native), env) := by
    rw [hsymbol]
    exact hlook id place scope env _ hget
  cases decisive <;> exact Operation.apply_step fuel haction hvalue hcount

/-- A conjunction or disjunction of arguments, and the other one of the negated arguments, run
dually. -/
theorem consume_opposed (hlook : evaluate.LooksUp) {decisive : Bool} {args negated : List Element}
    (hwraps : List.Forall₂ (Element.Wraps id) args negated)
    (hmeans : ∀ count mid, count < args.length →
      Passes evaluate scope env (args.take count)
        (.ok (List.replicate count (.bool !decisive))) mid → mid.Means scope id .not)
    (state : (logicFold (H := H) decisive).State)
    (state' : (logicFold (H := H) !decisive).State) :
    RunDually evaluate (Element.step fuel evaluate) scope env args negated
      ((logicFold decisive).consume evaluate scope state args)
      ((logicFold !decisive).consume (Element.step fuel evaluate) scope state' negated) := by
  -- Induction on the arguments. One that both go on behind is not decisive, and `hmeans` for the
  -- others follows.
  induction hwraps generalizing env with
  | nil =>
    exact ⟨0, _, _, env, absurd rfl, Nat.le_refl 0, .done env, .done env, _, _, rfl, rfl,
      .truths !decisive⟩
  | @cons argument negated others negatedOthers hwraps _ ih =>
    have hnot : env.Means scope id .not := hmeans 0 env (Nat.succ_pos _) (.done env)
    have hvalue := apply_negated fuel hlook hwraps hnot
    have htruth := condition_negated fuel hlook hwraps hnot
    rw [Eval.apply_bind] at hvalue htruth
    have hdirect := consume_logic_cons evaluate scope env decisive state argument others
    have hdual := consume_logic_cons (Element.step fuel evaluate) scope env (!decisive) state'
      negated negatedOthers
    have hsome : argument :: others ≠ [] → 0 < 1 := fun _ => Nat.one_pos
    have hone : 1 ≤ (argument :: others).length := Nat.succ_pos _
    rcases Eval.condition_cases evaluate scope argument env with
      ⟨halt, after, hargument, hcondition⟩ | ⟨truth, mid, hargument, hcondition⟩ |
        ⟨value, after, hargument, -, hcondition⟩
    all_goals
      rw [hcondition] at hvalue htruth hdirect
      rw [htruth] at hdual
    · exact ⟨1, _, _, after, hsome, hone, .halts hargument, .halts hvalue, _, _, hdirect, hdual,
        .halts halt⟩
    · by_cases hstop : truth = decisive
      · subst hstop
        exact ⟨1, _, _, mid, hsome, hone, .next hargument (.done mid), .next hvalue (.done mid),
          .ok (.bool truth), .ok (.bool !truth), hdirect.trans (if_pos rfl),
          hdual.trans (if_pos rfl), .truths truth⟩
      · obtain rfl : truth = !decisive := Bool.eq_not_of_ne hstop
        obtain ⟨count, passed, passed', after, -, hcount, hpasses, hpasses', result, result',
          hresult, hresult', hopposite⟩ := ih fun count after hcount hpasses =>
            hmeans (count + 1) after (Nat.succ_lt_succ hcount) (.next hargument hpasses)
        exact ⟨count + 1, _, _, after, fun _ => Nat.succ_pos count, Nat.succ_le_succ hcount,
          .next hargument hpasses, .next hvalue hpasses', result, result',
          (hdirect.trans (if_neg hstop)).trans hresult,
          (hdual.trans (if_neg (by simp))).trans hresult', hopposite⟩
    · exact ⟨1, _, _, after, hsome, hone, .next hargument (.done after), .halts hvalue, _, _,
        hdirect, hdual, .halts _⟩

end

/-! ### The duality of calls -/

section

variable [Host H] {scope : ScopeId} {env : Environment H} {decisive : Bool} {direct dual : Call}

/-- Dual calls run dually. -/
theorem Opposed.runDually (fuel outer inner : Nat) {evaluate : Evaluator H}
    (hlook : evaluate.LooksUp) (h : Opposed evaluate scope env decisive direct dual) :
    RunDually evaluate (Element.step inner evaluate) scope env direct.args dual.args
      (Element.step fuel evaluate direct.form.element scope)
      (Element.step outer (Element.step inner evaluate) dual.form.element scope) := by
  obtain ⟨id, hwraps, hmeans⟩ := h.negated
  have hlook' := looksUp_step inner evaluate
  have hdirect := apply_logic fuel hlook h.head h.count
  have hdual := apply_logic outer hlook' h.dualHead (hwraps.length_eq ▸ h.count)
  obtain ⟨count, passed, passed', after, hsome, hcount, hpasses, hpasses', result, result',
    hresult, hresult', hopposite⟩ := consume_opposed inner hlook hwraps hmeans () ()
  exact ⟨count, passed, passed', after, hsome, hcount, hpasses, hpasses', result, result',
    hdirect.trans hresult, hdual.trans hresult', hopposite⟩

/-- With fuel for one level, no call gets beyond its head. -/
theorem apply_eval_one (call : Call) (scope : ScopeId) (env : Environment H) :
    (eval 1 call.form.element scope).apply env = (.error .outOfFuel, env) :=
  rfl

/-- With fuel for two levels, a conjunction or disjunction gets no value of a call. -/
theorem apply_eval_two (h : Opposed (eval 1) scope env decisive direct dual) :
    (eval 2 dual.form.element scope).apply env = (.error .outOfFuel, env) := by
  obtain ⟨id, hwraps, -⟩ := h.negated
  have hcount := hwraps.length_eq ▸ h.count
  refine (apply_logic 1 (looksUp_step 0 (eval 0)) h.dualHead hcount).trans ?_
  generalize direct.args = args at hwraps
  generalize dual.args = negated at hwraps hcount
  cases hwraps with
  | nil => exact absurd hcount (by decide)
  | @cons argument _ _ negatedOthers hfirst _ =>
    obtain ⟨bracket, place, span, rfl⟩ := hfirst
    exact ArgumentFold.consume_of_halt
      (apply_eval_one ⟨bracket, .symbol id place, [argument], span⟩ scope env) () negatedOthers

/-- Dual calls have opposite results, when the one with the negations gets one more level of
fuel. -/
theorem eval_opposed {fuel : Nat} (h : Opposed (eval (fuel + 1)) scope env decisive direct dual) :
    ∃ result result' after,
      (eval (fuel + 2) direct.form.element scope).apply env = (result, after) ∧
      (eval (fuel + 3) dual.form.element scope).apply env = (result', after) ∧
      Opposite result result' := by
  have hlook : Evaluator.LooksUp (eval (H := H) (fuel + 1)) := looksUp_step fuel (eval fuel)
  obtain ⟨-, -, -, after, -, -, -, -, result, result', hresult, hresult', hopposite⟩ :=
    h.runDually (fuel + 1) (fuel + 2) (fuel + 1) hlook
  exact ⟨result, result', after, hresult, hresult', hopposite⟩

/-- A call of a disjunction and one of a conjunction of the negated arguments, or the other way
round, as long as the symbols keep their meaning, evaluate the same arguments in order, and come to
the same environment. They both fail with the same error, or have opposite truth values. -/
theorem logic_de_morgan :
    (∀ (fuel outer inner : Nat) (evaluate : Evaluator H), evaluate.LooksUp →
      Opposed evaluate scope env decisive direct dual →
        RunDually evaluate (Element.step inner evaluate) scope env direct.args dual.args
          (Element.step fuel evaluate direct.form.element scope)
          (Element.step outer (Element.step inner evaluate) dual.form.element scope)) ∧
    ((∀ fuel, Opposed (eval fuel) scope env decisive direct dual) →
      (∀ outcome after, Evaluates direct.form.element scope env outcome after →
        ∃ opposite, Opposite outcome opposite ∧
          Evaluates dual.form.element scope env opposite after) ∧
      ∀ opposite after, Evaluates dual.form.element scope env opposite after →
        ∃ outcome, Opposite outcome opposite ∧
          Evaluates direct.form.element scope env outcome after) := by
  refine ⟨fun fuel outer inner evaluate hlook h => h.runDually fuel outer inner hlook,
    fun h => ⟨?_, ?_⟩⟩
  · rintro outcome after ⟨fuel, hfuel⟩
    match fuel with
    | 0 | 1 => exact absurd (Prod.mk.inj hfuel).1.symm (mapError_fault_ne_outOfFuel outcome)
    | fuel + 2 =>
      obtain ⟨result, result', after', hresult, hresult', hopposite⟩ := eval_opposed (h (fuel + 1))
      obtain ⟨rfl, rfl⟩ := Prod.mk.inj (hresult.symm.trans hfuel)
      obtain ⟨opposite, rfl, houtcomes⟩ := hopposite.of_left
      exact ⟨opposite, houtcomes, fuel + 3, hresult'⟩
  · rintro opposite after ⟨fuel, hfuel⟩
    match fuel with
    | 0 | 1 => exact absurd (Prod.mk.inj hfuel).1.symm (mapError_fault_ne_outOfFuel opposite)
    | 2 =>
      have hhalt := (apply_eval_two (h 1)).symm.trans hfuel
      exact absurd (Prod.mk.inj hhalt).1.symm (mapError_fault_ne_outOfFuel opposite)
    | fuel + 3 =>
      obtain ⟨result, result', after', hresult, hresult', hopposite⟩ := eval_opposed (h (fuel + 1))
      obtain ⟨rfl, rfl⟩ := Prod.mk.inj (hresult'.symm.trans hfuel)
      obtain ⟨outcome, rfl, houtcomes⟩ := hopposite.symm.of_left
      exact ⟨outcome, houtcomes.symm, fuel + 2, hresult⟩

end

/-- `(or (set x false) 5)` and `(and (not (set x false)) (not 5))` bind `x` and fail because `5` is
no truth value, at the same place. -/
theorem logic_de_morgan_set :
    let number := numberOf ["x"]
    let five : Element := .int 5 ⟨"t", 1, 17⟩
    let bind : Element := .list .paren [.symbol (number "set") ⟨"t", 1, 6⟩,
      .symbol (number "x") ⟨"t", 1, 10⟩, .symbol (number "false") ⟨"t", 1, 12⟩] ⟨"t", 1, 5⟩
    let negate (element : Element) : Element :=
      .list .paren [.symbol (number "not") ⟨"u", 1, 1⟩, element] ⟨"u", 1, 1⟩
    let direct : Call := ⟨.paren, .symbol (number "or") ⟨"t", 1, 2⟩, [bind, five], ⟨"t", 1, 1⟩⟩
    let dual : Call := ⟨.paren, .symbol (number "and") ⟨"u", 1, 2⟩, [negate bind, negate five],
      ⟨"u", 1, 1⟩⟩
    RunDually (eval 5) (eval 6) .root (.full 0 : Environment Empty) direct.args dual.args
      (eval 6 direct.form.element .root) (eval 7 dual.form.element .root) ∧
    ∀ call ∈ [direct, dual], Evaluates call.form.element .root (.full 0 : Environment Empty)
      (.error ⟨.notBoolean .int, ⟨"t", 1, 17⟩⟩)
      ((.full 0 : Environment Empty).set .root (number "x") (.bool false)) := by
  intro number five bind negate direct dual
  let env : Environment Empty := .full 0
  let bound : Environment Empty := env.set .root (number "x") (.bool false)
  have hfalse (fuel : Nat) : (eval (fuel + 1) (.symbol (number "false") ⟨"t", 1, 12⟩) .root).apply
      env = (.ok (.bool false), env) :=
    eval_constant fuel 0 ["x"] (.tail _ (.head _)) _
  have hset : ("set", .form .assign) ∈ catalog := by decide
  obtain ⟨native, hnative, haction⟩ := Environment.offers_full (H := Empty) 0 hset
  have hbind (fuel : Nat) : (eval (fuel + 2) bind .root).apply env = (.ok (.bool false), bound) :=
    eval_set fuel (hnative.get?_numberOf ["x"]) haction rfl (hfalse fuel) .paren _ _
  have hor : env.Means .root (number "or") .any := Environment.means_full 0 ["x"] (by decide)
  have hand : env.Means .root (number "and") .all := Environment.means_full 0 ["x"] (by decide)
  have hnot : env.Means .root (number "not") .not := Environment.means_full 0 ["x"] (by decide)
  have hkept : bound.Means .root (number "not") .not := hnot.set_root (by decide) _
  have hopposed (fuel : Nat) : Opposed (eval fuel) .root env true direct dual := by
    refine ⟨Nat.le_refl 2, ⟨number "or", _, rfl, hor⟩, ⟨number "and", _, rfl, hand⟩, number "not",
      .cons ⟨_, _, _, rfl⟩ (.cons ⟨_, _, _, rfl⟩ .nil), ?_⟩
    intro count mid hcount hpasses
    match count, fuel with
    | 0, _ =>
      obtain ⟨-, rfl⟩ := hpasses.unique (.done _)
      exact hnot
    | 1, 0 | 1, 1 =>
      obtain ⟨later, hvalue, -⟩ := hpasses.of_cons
      cases hvalue
    | 1, fuel + 2 =>
      obtain ⟨-, rfl⟩ := hpasses.unique (.next (hbind fuel) (.done _))
      exact hkept
    | count + 2, _ => exact absurd hcount (Nat.not_lt.2 (Nat.le_add_left 2 count))
  have hgets : Operation.any.Gets (eval 4) direct .root env
      [⟨.bool false, ⟨"t", 1, 5⟩⟩, ⟨.int 5, ⟨"t", 1, 17⟩⟩] bound :=
    Operation.gets_full (by decide) (.next (hbind 2) (.next rfl (.done _))) rfl
  have hdirect : Evaluates direct.form.element .root env
      (.error ⟨.notBoolean .int, ⟨"t", 1, 17⟩⟩) bound :=
    ⟨5, hgets.result 4 (Nat.le_refl 2) (.next rfl (.refuse 0 rfl))⟩
  refine ⟨logic_de_morgan.1 5 6 5 (eval 5) (looksUp_step 4 (eval 4)) (hopposed 5), ?_⟩
  obtain ⟨opposite, hopposite, hdual⟩ := (logic_de_morgan.2 hopposed).1 _ _ hdirect
  cases hopposite
  exact List.forall_mem_cons.2 ⟨hdirect, List.forall_mem_singleton.2 hdual⟩

end BracketLisp
