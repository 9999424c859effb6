import BracketLisp.Proofs.Simulation.Operation

/-!
# `BracketLisp.Proofs.Simulation.Step`: one step of two evaluations

`Bridge` collects what has to hold where two evaluations touch their environments: at a
look-up, at a binding, when a function is made and when one is entered. It also says how an
empty list is blamed, which no call does. The rest of the evaluator only passes results on,
so a bridge carries over to a whole step:

* `Bridge.perform_operation` and `Bridge.perform_special` for entries of the catalog,
* `Bridge.perform_function` for functions of a program,
* `Bridge.step` for any element.

An induction on the fuel makes of `Bridge.step` a statement about `eval`. It is left to
the places that know the relation between the environments, because that relation
changes where a function is entered.
-/

set_option autoImplicit false

namespace BracketLisp

variable {H : Type}

/-! ### Parts of calls -/

/-- The symbol directly after the head of a list, if one stands there. -/
def Element.target? : Element → Option SymbolId
  | .list _ (_ :: second :: _) _ => second.symbol?
  | _ => none

/-- Evaluates the body of a function in a new scope, where its parameters are bound to
values. -/
def Function.enter (function : Function) (evaluate : Evaluator H) (values : List (Value H)) :
    Eval H (Value H) :=
  Eval.inNewScope (Dictionary.empty.setAll (function.parameters.zip values)) fun inner =>
    evaluate function.body inner

/-- Elements of one shape at like places, with parts related by `code`. -/
inductive Element.Match (like : Likeness) (code : Element → Element → Prop) :
    Element → Element → Prop where
  | list (bracket : Bracket) {elements elements' : List Element} {p q : Position}
      (parts : List.Forall₂ code elements elements') (span : like.spans p q) :
      Match like code (.list bracket elements p) (.list bracket elements' q)
  | int (value : Int64) {p q : Position} (span : like.spans p q) :
      Match like code (.int value p) (.int value q)
  | float (value : Float) {p q : Position} (span : like.spans p q) :
      Match like code (.float value p) (.float value q)
  | string (content : String) {p q : Position} (span : like.spans p q) :
      Match like code (.string content p) (.string content q)
  | symbol (id id' : SymbolId) {p q : Position} (span : like.spans p q) :
      Match like code (.symbol id p) (.symbol id' q)

theorem Element.Match.span_like {like : Likeness} {code : Element → Element → Prop}
    {e e' : Element} (h : e.Match like code e') : like.spans e.span e'.span := by
  cases h <;> assumption

/-! ### Bridges -/

/-- What two ways to evaluate have to do alike in their scopes, where `code` relates the
elements that stand there. -/
structure Bridge (κ : Coupling H) (code : Element → Element → Prop)
    (evaluate evaluate' : Evaluator H) (scope scope' : ScopeId) : Prop where
  shape : ∀ {e e' : Element}, code e e' → e.Match κ.like code e'
  element : ∀ {e e' : Element}, code e e' →
    κ.Sim (Value.Like κ.like) (evaluate e scope) (evaluate' e' scope')
  lookup : ∀ {id id' : SymbolId} {p q : Position}, code (.symbol id p) (.symbol id' q) →
    κ.Sim (Value.Like κ.like) (Eval.lookup id p scope) (Eval.lookup id' q scope')
  empty : ∀ {bracket : Bracket} {p q : Position}, code (.list bracket [] p) (.list bracket [] q) →
    κ.like.errors ⟨.emptyList, p⟩ ⟨.emptyList, q⟩
  assign : ∀ {e e' : Element} {id id' : SymbolId} {v w : Value H}, code e e' →
    e.target? = some id → e'.target? = some id' → v.Like κ.like w →
    κ.Sim (fun _ _ => True) (Eval.assign scope id v) (Eval.assign scope' id' w)
  closure : ∀ {list list' : List Element} {ids ids' : List SymbolId} {body body' : Element},
    List.Forall₂ code list list' → Element.parameters list = .ok ids →
    Element.parameters list' = .ok ids' → code body body' →
    κ.Sim (fun f g => (Value.function f : Value H).Like κ.like (.function g))
      (Eval.make fun env => env.newFunction ids body)
      (Eval.make fun env => env.newFunction ids' body')
  enter : ∀ {f g : Function} {values values' : List (Value H)},
    (Value.function f : Value H).Like κ.like (.function g) →
    List.Forall₂ (Value.Like κ.like) values values' →
    κ.Sim (Value.Like κ.like) (f.enter evaluate values) (g.enter evaluate' values')

namespace Bridge

variable {κ : Coupling H} {code : Element → Element → Prop} {evaluate evaluate' : Evaluator H}
  {scope scope' : ScopeId}

/-! ### Arguments -/

theorem located (h : Bridge κ code evaluate evaluate' scope scope') {e e' : Element}
    (hcode : code e e') :
    κ.Sim (Located.Like κ.like) (Eval.located evaluate scope e)
      (Eval.located evaluate' scope' e') :=
  (h.element hcode).bind fun _ _ hvalue => .pure ⟨hvalue, (h.shape hcode).span_like⟩

theorem all (h : Bridge κ code evaluate evaluate' scope scope') {args args' : List Element}
    (hargs : List.Forall₂ code args args') :
    κ.Sim (List.Forall₂ (Located.Like κ.like)) (Eval.all evaluate scope args)
      (Eval.all evaluate' scope' args') := by
  induction hargs with
  | nil => exact .pure .nil
  | cons hfirst _ ih =>
    refine (h.located hfirst).bind fun _ _ hvalue => ?_
    exact ih.bind fun _ _ hvalues => .pure (.cons hvalue hvalues)

theorem inOrder (h : Bridge κ code evaluate evaluate' scope scope') {args args' : List Element}
    (hargs : List.Forall₂ code args args') {last last' : Value H}
    (hlast : last.Like κ.like last') :
    κ.Sim (Value.Like κ.like) (Eval.inOrder evaluate scope last args)
      (Eval.inOrder evaluate' scope' last' args') := by
  induction hargs generalizing last last' with
  | nil => exact .pure hlast
  | cons hfirst _ ih => exact (h.element hfirst).bind fun _ _ hvalue => ih hvalue

theorem condition (h : Bridge κ code evaluate evaluate' scope scope') {e e' : Element}
    (hcode : code e e') :
    κ.Sim Eq (Eval.condition evaluate scope e) (Eval.condition evaluate' scope' e') := by
  refine (h.element hcode).bind fun v w hvalue => ?_
  have hspan := (h.shape hcode).span_like
  cases hvalue with
  | bool value => exact .pure rfl
  | _ => exact .fail _ (κ.like.blame trivial hspan)

theorem consume (h : Bridge κ code evaluate evaluate' scope scope') {fold : ArgumentFold H}
    {R : fold.State → fold.State → Prop} (hfold : fold.Respects κ.like R)
    {args args' : List Element} (hargs : List.Forall₂ code args args') {s s' : fold.State}
    (hs : R s s') :
    κ.Sim (Value.Like κ.like) (fold.consume evaluate scope s args)
      (fold.consume evaluate' scope' s' args') := by
  induction hargs generalizing s s' with
  | nil => exact .check (hfold.finish hs)
  | cons hfirst _ ih =>
    refine (h.located hfirst).bind fun _ _ hvalue => ?_
    refine (Coupling.Sim.check (hfold.step hs hvalue)).bind fun _ _ hverdict => ?_
    cases hverdict with
    | next hnext => exact ih hnext
    | stop hresult => exact .pure hresult

/-! ### Calls -/

/-- Two calls of one shape: their heads and arguments are related by `code`. -/
structure Calls (κ : Coupling H) (code : Element → Element → Prop) (call call' : Call) :
    Prop where
  whole : code call.form.element call'.form.element
  head : code call.head call'.head
  args : List.Forall₂ code call.args call'.args
  span : κ.like.spans call.span call'.span

theorem Calls.of_list {bracket : Bracket} {head head' : Element} {args args' : List Element}
    {p q : Position} (hhead : code head head') (hargs : List.Forall₂ code args args')
    (hspan : κ.like.spans p q)
    (hwhole : code (.list bracket (head :: args) p) (.list bracket (head' :: args') q)) :
    Calls κ code ⟨bracket, head, args, p⟩ ⟨bracket, head', args', q⟩ :=
  ⟨hwhole, hhead, hargs, hspan⟩

theorem failArity {call call' : Call} (hcall : Calls κ code call call') (expected : Nat)
    {α β : Type} {R : α → β → Prop} :
    κ.Sim R (call.failArity expected) (call'.failArity expected) := by
  have hlength : call.args.length = call'.args.length := hcall.args.length_eq
  unfold Call.failArity Call.arityError
  rw [hlength]
  exact .fail _ (κ.like.blame trivial hcall.span)

theorem expect {call call' : Call} (hcall : Calls κ code call call') (arity : Arity) :
    κ.like.Checks (fun _ _ => True) (call.expect arity) (call'.expect arity) := by
  have hlength : call.args.length = call'.args.length := hcall.args.length_eq
  cases arity with
  | exactly count =>
    simp only [Call.expect, Call.expectExactly, Call.arityError, hlength]
    split
    · exact .ok trivial
    · exact .error (κ.like.blame trivial hcall.span)
  | atLeast minimum =>
    simp only [Call.expect, Call.expectAtLeast, Call.tooFewError, hlength]
    split
    · exact .ok trivial
    · exact .error (κ.like.blame trivial hcall.span)

theorem perform_operation (h : Bridge κ code evaluate evaluate' scope scope')
    {call call' : Call} (hcall : Calls κ code call call') (op : Operation) :
    κ.Sim (Value.Like κ.like) (op.fold.perform evaluate call scope)
      (op.fold.perform evaluate' call' scope') := by
  obtain ⟨R, hfold⟩ := op.respects (H := H) κ.like
  refine (Coupling.Sim.check (expect hcall _)).bind fun _ _ _ => ?_
  exact h.consume hfold hcall.args hfold.start

/-! ### Special forms -/

theorem assign_call (h : Bridge κ code evaluate evaluate' scope scope') {call call' : Call}
    (hcall : Calls κ code call call') :
    κ.Sim (Value.Like κ.like) (call.assign evaluate scope) (call'.assign evaluate' scope') := by
  obtain ⟨bracket, head, args, span⟩ := call
  obtain ⟨bracket', head', args', span'⟩ := call'
  have hargs := hcall.args
  cases hargs with
  | nil => exact failArity hcall 2
  | cons htarget hothers =>
    have hspan := (h.shape htarget).span_like
    -- Only a symbol can be bound. Anything else is to blame before its value is asked for.
    cases h.shape htarget with
    | symbol id id' _ =>
      cases hothers with
      | nil => exact failArity hcall 2
      | cons helement hrest =>
        cases hrest with
        | nil =>
          -- The value is there before the symbol is bound, in the scope of the call.
          refine (h.element helement).bind fun _ _ hvalue => ?_
          exact (h.assign hcall.whole rfl rfl hvalue).bind fun _ _ _ => .pure hvalue
        | cons _ _ => exact failArity hcall 2
    | _ => exact .fail _ (κ.like.blame trivial hspan)

theorem branch (h : Bridge κ code evaluate evaluate' scope scope') {call call' : Call}
    (hcall : Calls κ code call call') :
    κ.Sim (Value.Like κ.like) (call.branch evaluate scope) (call'.branch evaluate' scope') := by
  obtain ⟨bracket, head, args, span⟩ := call
  obtain ⟨bracket', head', args', span'⟩ := call'
  have hargs := hcall.args
  cases hargs with
  | nil => exact failArity hcall 3
  | cons htest hbranches =>
    cases hbranches with
    | nil => exact failArity hcall 3
    | cons hconsequent hbranches =>
      cases hbranches with
      | nil => exact failArity hcall 3
      | cons halternative hrest =>
        cases hrest with
        | cons _ _ => exact failArity hcall 3
        | nil =>
          -- Both tests give the same truth value, so both runs take the same branch.
          refine (h.condition htest).bind fun value _ hvalue => ?_
          subst hvalue
          cases value with
          | true => exact h.element hconsequent
          | false => exact h.element halternative

theorem loop (h : Bridge κ code evaluate evaluate' scope scope') {call call' : Call}
    (hcall : Calls κ code call call') {fuel fuel' : Nat} (hfuel : κ.Fuels fuel fuel') :
    κ.Sim (Value.Like κ.like) (call.loop fuel evaluate scope)
      (call'.loop fuel' evaluate' scope') := by
  obtain ⟨bracket, head, args, span⟩ := call
  obtain ⟨bracket', head', args', span'⟩ := call'
  have hargs := hcall.args
  cases hargs with
  | nil => exact failArity hcall 2
  | cons htest hrest =>
    cases hrest with
    | nil => exact failArity hcall 2
    | cons hbody hrest =>
      cases hrest with
      | cons _ _ => exact failArity hcall 2
      | nil => exact .rounds (h.condition htest) (h.element hbody) hfuel .nil

/-- Parameter lists are accepted or refused alike, and refused at like places. -/
theorem parameters (h : Bridge κ code evaluate evaluate' scope scope')
    {list list' : List Element} (hlist : List.Forall₂ code list list') :
    κ.like.Checks (fun _ _ => True) (Element.parameters list) (Element.parameters list') := by
  induction hlist with
  | nil => exact .ok trivial
  | cons hfirst _ ih =>
    have hspan := (h.shape hfirst).span_like
    cases h.shape hfirst with
    | symbol id id' _ => exact ih.map fun _ _ _ => trivial
    | _ => exact .error (κ.like.blame trivial hspan)

theorem lambda (h : Bridge κ code evaluate evaluate' scope scope') {call call' : Call}
    (hcall : Calls κ code call call') :
    κ.Sim (Value.Like κ.like) (call.lambda : Eval H (Value H)) call'.lambda := by
  obtain ⟨bracket, head, args, span⟩ := call
  obtain ⟨bracket', head', args', span'⟩ := call'
  have hargs := hcall.args
  cases hargs with
  | nil => exact failArity hcall 2
  | cons hlist hrest =>
    cases hrest with
    | nil => exact failArity hcall 2
    | cons hbody hrest =>
      cases hrest with
      | cons _ _ => exact failArity hcall 2
      | nil =>
        have hspan := (h.shape hlist).span_like
        cases h.shape hlist with
        | list _ hparts _ =>
          -- The function keeps the parameters, so `closure` has to know where they come from.
          refine (Coupling.Sim.check (h.parameters hparts).attach).bind fun _ _ hids => ?_
          exact (h.closure hparts hids.2.1 hids.2.2 hbody).bind fun _ _ hf => .pure hf
        | _ => exact .fail _ (κ.like.blame trivial hspan)

theorem perform_special (h : Bridge κ code evaluate evaluate' scope scope')
    {call call' : Call} (hcall : Calls κ code call call') {fuel fuel' : Nat}
    (hfuel : κ.Fuels fuel fuel') (special : SpecialForm) :
    κ.Sim (Value.Like κ.like) (special.perform fuel evaluate call scope)
      (special.perform fuel' evaluate' call' scope') := by
  cases special with
  | assign => exact h.assign_call hcall
  | branch => exact h.branch hcall
  | loop => exact h.loop hcall hfuel
  | lambda => exact h.lambda hcall
  | sequence =>
    refine (Coupling.Sim.check (expect hcall (.atLeast 1))).bind fun _ _ _ => ?_
    exact h.inOrder hcall.args .nil

/-! ### Steps -/

theorem perform_function (h : Bridge κ code evaluate evaluate' scope scope')
    {call call' : Call} (hcall : Calls κ code call call') {f g : Function}
    (hf : (Value.function f : Value H).Like κ.like (.function g)) :
    κ.Sim (Value.Like κ.like) (f.perform evaluate call scope)
      (g.perform evaluate' call' scope') := by
  -- Like functions take the same number of arguments, so both calls pass the check or none.
  have harity : f.parameters.length = g.parameters.length := by
    cases hf with
    | function _ arity _ => exact arity
  have hexpect : κ.like.Checks (fun _ _ => True) (call.expectExactly f.parameters.length)
      (call'.expectExactly g.parameters.length) := by
    rw [← harity]
    exact expect hcall (.exactly _)
  refine (Coupling.Sim.check hexpect).bind fun _ _ _ => ?_
  refine (h.all hcall.args).bind fun values values' hvalues => h.enter hf ?_
  rw [List.forall₂_map_left_iff, List.forall₂_map_right_iff]
  exact hvalues.imp fun _ _ hvalue => hvalue.1

theorem perform_call [Host H] (h : Bridge κ code evaluate evaluate' scope scope')
    {call call' : Call} (hcall : Calls κ code call call') {fuel fuel' : Nat}
    (hfuel : κ.Fuels fuel fuel') :
    κ.Sim (Value.Like κ.like) (call.perform fuel evaluate scope)
      (call'.perform fuel' evaluate' scope') := by
  refine (h.element hcall.head).bind fun v w hvalue => ?_
  have hspan := (h.shape hcall.head).span_like
  -- Like heads are both functions, or both the same entry of the catalog, or both nothing
  -- to call.
  cases hvalue with
  | function identity arity code => exact h.perform_function hcall (.function identity arity code)
  | native entry _ _ left right =>
    simp only [Native.perform, left, right]
    cases entry with
    | operation op => exact h.perform_operation hcall op
    | form special => exact h.perform_special hcall hfuel special
  | _ => exact .fail _ (κ.like.blame trivial hspan)

/-- A step of two evaluations that a bridge connects keeps them connected. -/
theorem step [Host H] (h : Bridge κ code evaluate evaluate' scope scope') {fuel fuel' : Nat}
    (hfuel : κ.Fuels fuel fuel') {e e' : Element} (hcode : code e e') :
    κ.Sim (Value.Like κ.like) (Element.step fuel evaluate e scope)
      (Element.step fuel' evaluate' e' scope') := by
  have hshape := h.shape hcode
  cases hshape with
  | int value _ => exact .pure (.int value)
  | float value _ => exact .pure (.float value)
  | string content _ => exact .pure (.string content)
  | symbol _ _ _ => exact h.lookup hcode
  | list bracket parts span =>
    cases parts with
    | nil => exact .fail _ (h.empty hcode)
    | cons hhead hargs => exact h.perform_call (.of_list hhead hargs span hcode) hfuel

end Bridge

end BracketLisp
