import BracketLisp.Eval.Element
import Mathlib.Data.List.Forall2

/-!
# `BracketLisp.Proofs.Simulation.Basic`: two evaluations side by side

Nearly all that can be said about evaluation compares two runs: a run with more fuel,
a run in another scope, a run of the same code at other places. The comparison is
always the same walk through the evaluator, so it is made once, for a relation on
environments that is left open. A statement about a single run is the comparison of
the run with itself.

* `Likeness` says how far the values of two runs may differ. `Value.Like` relates such
  values. They have the same kind, the same text and the same truth, so no operation
  can tell them apart. Natives are entries of the catalog here, because nothing is
  known about what a host does.
* `Agree` relates two results that may both be missing, and `Likeness.Checks` the
  outcomes of checks.
* `Coupling` adds the relation between environments, and whether both runs have the
  same fuel.
* `Coupling.Sim` relates two computations that keep the environments related and end
  alike. `Sim.bind` and its companions carry it through the steps of an evaluation.
-/

set_option autoImplicit false

namespace BracketLisp

variable {H : Type}

/-! ### Like values -/

/-- Whether a fault is found by a call in its arguments or their values. The other faults
are those of a node alone: a symbol without a binding, and an empty list. -/
def EvalFault.IsOfCall : EvalFault → Prop
  | .undefinedSymbol _ | .emptyList => False
  | _ => True

/-- How far the values of two runs may differ: in places, in the identities of things
to call, and in the functions behind them. `errors` says how far their errors may. -/
structure Likeness where
  spans : Position → Position → Prop
  identities : Identity → Identity → Prop
  functions : Function → Function → Prop
  errors : EvalError → EvalError → Prop
  /-- Identities correspond one to one, so comparing two of them gives the same answer
  in both runs. -/
  faithful : ∀ {a a' b b' : Identity},
    identities a a' → identities b b' → (a = b ↔ a' = b')
  /-- What a call finds may be blamed on like places. -/
  blame : ∀ {fault : EvalFault} {p q : Position},
    fault.IsOfCall → spans p q → errors ⟨fault, p⟩ ⟨fault, q⟩

/-- Values that only differ as far as `like` allows. -/
inductive Value.Like (like : Likeness) : Value H → Value H → Prop where
  | nil : Like like .nil .nil
  | bool (value : Bool) : Like like (.bool value) (.bool value)
  | int (value : Int64) : Like like (.int value) (.int value)
  | float (value : Float) : Like like (.float value) (.float value)
  | string (content : String) : Like like (.string content) (.string content)
  | function {f g : Function} (identity : like.identities f.identity g.identity)
      (arity : f.parameters.length = g.parameters.length) (code : like.functions f g) :
      Like like (.function f) (.function g)
  | native {m n : Native H} (entry : Builtin)
      (identity : like.identities m.identity n.identity) (name : m.name = n.name)
      (left : m.action = .catalog entry) (right : n.action = .catalog entry) :
      Like like (.native m) (.native n)

/-- Values in their places, both alike. -/
def Located.Like (like : Likeness) (v w : Located (Value H)) : Prop :=
  v.value.Like like w.value ∧ like.spans v.span w.span

namespace Value.Like

variable {like : Likeness} {v v' w w' : Value H}

theorem kind_eq (h : v.Like like w) : v.kind = w.kind := by
  cases h <;> rfl

theorem text_eq (h : v.Like like w) : v.text = w.text := by
  cases h with
  | function _ arity _ => simp only [Value.text, arity]
  | native _ _ name _ _ => simp only [Value.text, name]
  | _ => rfl

/-- Identities that correspond compare alike. -/
theorem identity_beq_eq {a a' b b' : Identity} (ha : like.identities a a')
    (hb : like.identities b b') : (a == b) = (a' == b') := by
  rw [Bool.eq_iff_iff, beq_iff_eq, beq_iff_eq]
  exact like.faithful ha hb

theorem same_eq (hv : v.Like like v') (hw : w.Like like w') : v.same w = v'.same w' := by
  cases hv with
  | function hf _ _ =>
    cases hw with
    | function hg _ _ => exact identity_beq_eq hf hg
    | _ => rfl
  | native _ hm _ _ _ =>
    cases hw with
    | native _ hn _ _ _ => exact identity_beq_eq hm hn
    | _ => rfl
  | _ => cases hw <;> rfl

end Value.Like

/-! ### Results that agree -/

/-- Results that are both there and related, or both missing for related reasons. -/
inductive Agree {ε ε' α β : Type} (E : ε → ε' → Prop) (R : α → β → Prop) :
    Except ε α → Except ε' β → Prop where
  | ok {a : α} {b : β} (h : R a b) : Agree E R (.ok a) (.ok b)
  | error {e : ε} {e' : ε'} (h : E e e') : Agree E R (.error e) (.error e')

namespace Agree

variable {ε ε' α β γ δ : Type} {E : ε → ε' → Prop} {R : α → β → Prop} {S : γ → δ → Prop}
  {x : Except ε α} {y : Except ε' β}

theorem bind {f : α → Except ε γ} {g : β → Except ε' δ} (h : Agree E R x y)
    (hfg : ∀ a b, R a b → Agree E S (f a) (g b)) : Agree E S (x >>= f) (y >>= g) := by
  cases h with
  | ok h => exact hfg _ _ h
  | error h => exact .error h

theorem map {f : α → γ} {g : β → δ} (h : Agree E R x y) (hfg : ∀ a b, R a b → S (f a) (g b)) :
    Agree E S (x.map f) (y.map g) := by
  cases h with
  | ok h => exact .ok (hfg _ _ h)
  | error h => exact .error h

theorem imp {E' : ε → ε' → Prop} {R' : α → β → Prop} (h : Agree E R x y)
    (herror : ∀ e e', E e e' → E' e e') (hresult : ∀ a b, R a b → R' a b) : Agree E' R' x y := by
  cases h with
  | ok h => exact .ok (hresult _ _ h)
  | error h => exact .error (herror _ _ h)

theorem of_eq {x y : Except ε α} (h : x = y) : Agree Eq Eq x y := by
  subst h
  cases x with
  | ok a => exact .ok rfl
  | error e => exact .error rfl

/-- The results are what the relation speaks of. -/
theorem attach (h : Agree E R x y) : Agree E (fun a b => R a b ∧ x = .ok a ∧ y = .ok b) x y := by
  cases h with
  | ok h => exact .ok ⟨h, rfl, rfl⟩
  | error h => exact .error h

end Agree

/-- Outcomes of checks that agree. -/
abbrev Likeness.Checks (like : Likeness) {α β : Type} (R : α → β → Prop) :
    Except EvalError α → Except EvalError β → Prop :=
  Agree like.errors R

/-- The same fault, found by calls. -/
def EvalFault.Like (fault fault' : EvalFault) : Prop :=
  fault = fault' ∧ fault.IsOfCall

/-- A result whose faults are found by calls agrees with itself. -/
theorem Agree.of_isOfCall {α : Type} {x : Except EvalFault α}
    (h : ∀ fault, x = .error fault → fault.IsOfCall) : Agree EvalFault.Like Eq x x := by
  cases x with
  | ok a => exact .ok rfl
  | error fault => exact .error ⟨rfl, h fault rfl⟩

/-- Faults that agree still do so at the places of like values. -/
theorem Located.blame_like {like : Likeness} {α β : Type} {R : α → β → Prop}
    {v w : Located (Value H)} (h : v.Like like w) {x : Except EvalFault α}
    {y : Except EvalFault β} (hxy : Agree EvalFault.Like R x y) :
    like.Checks R (v.blame x) (w.blame y) := by
  cases hxy with
  | ok hab => exact .ok hab
  | error hfault =>
    obtain ⟨rfl, hcall⟩ := hfault
    exact .error (like.blame hcall h.2)

/-! ### Coupled computations -/

/-- What two runs have in common while they go on: how far their values may differ, how
their environments are related, and whether one runs out of fuel only with the other. -/
structure Coupling (H : Type) where
  like : Likeness
  env : Environment H → Environment H → Prop
  /-- Both runs have the same fuel. Else the second may have more. -/
  lockstep : Prop

namespace Coupling

variable {α β γ δ : Type}

/-- Outcomes that agree. A first run without fuel says nothing about the second, unless
they go in lockstep. -/
inductive Outcomes (κ : Coupling H) (R : α → β → Prop) :
    Except Halt α × Environment H → Except Halt β × Environment H → Prop where
  | ok {a : α} {b : β} {env env' : Environment H} (result : R a b)
      (after : κ.env env env') : Outcomes κ R (.ok a, env) (.ok b, env')
  | fault {e e' : EvalError} {env env' : Environment H} (error : κ.like.errors e e')
      (after : κ.env env env') :
      Outcomes κ R (.error (.fault e), env) (.error (.fault e'), env')
  | outOfFuel {env : Environment H} {other : Except Halt β × Environment H}
      (h : κ.lockstep → other.1 = .error .outOfFuel) :
      Outcomes κ R (.error .outOfFuel, env) other

/-- Computations that keep environments related and have outcomes that agree. -/
def Sim (κ : Coupling H) (R : α → β → Prop) (x : Eval H α) (y : Eval H β) : Prop :=
  ∀ ⦃env env' : Environment H⦄, κ.env env env' → κ.Outcomes R (x.apply env) (y.apply env')

/-- Amounts of fuel that go together. -/
def Fuels (κ : Coupling H) (fuel fuel' : Nat) : Prop :=
  fuel ≤ fuel' ∧ (κ.lockstep → fuel = fuel')

variable {κ : Coupling H} {R : α → β → Prop} {S : γ → δ → Prop}

/-- Outcomes still agree after a last change to the environments. If the fuel ran out
nothing is asked of it. -/
theorem Outcomes.change {E : Environment H → Environment H → Prop}
    {f g : Environment H → Environment H} {x : Except Halt α × Environment H}
    {y : Except Halt β × Environment H} (h : κ.Outcomes R x y)
    (hE : x.1 ≠ .error .outOfFuel → y.1 ≠ .error .outOfFuel → κ.env x.2 y.2 →
      E (f x.2) (g y.2)) :
    Outcomes { κ with env := E } R (x.1, f x.2) (y.1, g y.2) := by
  cases h with
  | ok result after => exact .ok result (hE nofun nofun after)
  | fault error after => exact .fault error (hE nofun nofun after)
  | outOfFuel hκ => exact .outOfFuel hκ

namespace Sim

theorem pure {a : α} {b : β} (h : R a b) : κ.Sim R (Pure.pure a) (Pure.pure b) :=
  fun _ _ henv => .ok h henv

theorem fail (fault : EvalFault) {p q : Position} (h : κ.like.errors ⟨fault, p⟩ ⟨fault, q⟩) :
    κ.Sim R (Eval.fail fault p) (Eval.fail fault q) :=
  fun _ _ henv => .fault h henv

theorem check {x : Except EvalError α} {y : Except EvalError β} (h : κ.like.Checks R x y) :
    κ.Sim R (Eval.check x) (Eval.check y) := by
  intro env env' henv
  cases h with
  | ok h => exact .ok h henv
  | error h => exact .fault h henv

theorem outOfFuel {y : Eval H β} (h : κ.lockstep → y = throw .outOfFuel) :
    κ.Sim R (throw .outOfFuel) y :=
  fun _ _ _ => .outOfFuel fun hκ => h hκ ▸ rfl

/-- The second steps go on where the first ones end, so they may rely on what these
have in common. -/
theorem bind {x : Eval H α} {y : Eval H β} {f : α → Eval H γ} {g : β → Eval H δ}
    (h : κ.Sim R x y) (hfg : ∀ a b, R a b → κ.Sim S (f a) (g b)) :
    κ.Sim S (x >>= f) (y >>= g) := by
  intro env env' henv
  have hxy := h henv
  rw [Eval.apply_bind, Eval.apply_bind]
  generalize x.apply env = left at hxy
  generalize y.apply env' = right at hxy
  -- If the first steps halt, the second ones are not reached in either run.
  cases hxy with
  | ok result after => exact hfg _ _ result after
  | fault error after => exact .fault error after
  | outOfFuel hκ =>
    obtain ⟨result, env''⟩ := right
    refine .outOfFuel fun hlock => ?_
    obtain rfl : result = .error .outOfFuel := hκ hlock
    rfl

/-- Loops with coupled tests and bodies. The second may have more fuel for rounds. -/
theorem rounds {test test' : Eval H Bool} {body body' : Eval H (Value H)}
    (htest : κ.Sim Eq test test') (hbody : κ.Sim (Value.Like κ.like) body body')
    {fuel fuel' : Nat} (hfuel : κ.Fuels fuel fuel') {last last' : Value H}
    (hlast : last.Like κ.like last') :
    κ.Sim (Value.Like κ.like) (Eval.rounds test body fuel last)
      (Eval.rounds test' body' fuel' last') := by
  induction fuel generalizing fuel' last last' with
  | zero =>
    refine outOfFuel fun hκ => ?_
    rw [← hfuel.2 hκ]
    rfl
  | succ fuel ih =>
    cases fuel' with
    | zero => exact absurd hfuel.1 (Nat.not_succ_le_zero fuel)
    | succ fuel' =>
      have hless : κ.Fuels fuel fuel' :=
        ⟨Nat.le_of_succ_le_succ hfuel.1, fun hκ => Nat.succ.inj (hfuel.2 hκ)⟩
      rw [Eval.rounds, Eval.rounds]
      -- The tests agree, so both loops go on or both end.
      refine bind htest fun a b hab => ?_
      subst hab
      cases a with
      | false => exact pure hlast
      | true => exact bind hbody fun _ _ hvalue => ih hless hvalue

end Sim

end Coupling

end BracketLisp
