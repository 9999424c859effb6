import BracketLisp.Proofs.Environment.Scopes
import BracketLisp.Proofs.Simulation.Step

/-!
# `BracketLisp.Proofs.Eval.HostFree`: evaluation without a host

A host may do anything with an environment, so little holds of all evaluations. An
environment is *host-free* if every native that it binds is an entry of the catalog.
Values are bound nowhere else, and a function holds none, so nothing of the host can
come up in such an environment.

* `Environment.AllBound` says of a property that all bindings have it. `AllBound.set`,
  `AllBound.openScope` and `AllBound.closeScope` keep it, and `allBound_full` gives the
  first environment. Being host-free is such a property.
* `Coupling.single` couples a run with itself, which is how statements about one run
  come out of a simulation. `Bridge.single` says what is left to show for such a
  statement.
-/

set_option autoImplicit false

namespace BracketLisp

variable {H : Type}

/-- Whether a value has nothing of the host: a native has to be an entry of the
catalog. -/
def Value.HostFree : Value H → Prop
  | .native n => ∃ entry, n.action = .catalog entry
  | _ => True

namespace Dictionary

variable {κ α : Type} [DecidableEq κ]

/-- What a dictionary binds after a binding is either the new thing or bound before. -/
theorem get?_set_eq_some {dictionary : Dictionary κ α} {key other : κ} {a b : α}
    (h : (dictionary.set key a).get? other = some b) :
    (other = key ∧ b = a) ∨ dictionary.get? other = some b := by
  rw [get?_set] at h
  split at h
  next heq => exact .inl ⟨heq, (Option.some.inj h).symm⟩
  next => exact .inr h

/-- What a dictionary binds after several bindings is one of the new things or bound
before. -/
theorem get?_setAll_eq_some {bindings : List (κ × α)} {dictionary : Dictionary κ α} {key : κ}
    {a : α} (h : (dictionary.setAll bindings).get? key = some a) :
    (key, a) ∈ bindings ∨ dictionary.get? key = some a := by
  induction bindings generalizing dictionary with
  | nil => exact .inr h
  | cons binding others ih =>
    have hothers : ((dictionary.set binding.1 binding.2).setAll others).get? key = some a := h
    rcases ih hothers with hmem | hget
    · exact .inl (List.mem_cons_of_mem _ hmem)
    · rcases get?_set_eq_some hget with ⟨rfl, rfl⟩ | hget
      · exact .inl (List.mem_cons_self ..)
      · exact .inr hget

end Dictionary

namespace Environment

/-! ### What is bound -/

/-- Whether `P` holds of all symbols and the values that they are bound to, in whatever
scope. -/
def AllBound (P : SymbolId → Value H → Prop) (env : Environment H) : Prop :=
  ∀ (scope : ScopeId) (id : SymbolId) (value : Value H),
    (env.scope scope).get? id = some value → P id value

namespace AllBound

variable {P : SymbolId → Value H → Prop} {env : Environment H}

theorem get? (h : env.AllBound P) {scope : ScopeId} {id : SymbolId} {value : Value H}
    (hget : env.get? scope id = some value) : P id value := by
  unfold Environment.get? at hget
  split at hget
  next found hfound =>
    cases hget
    exact h scope id _ hfound
  next =>
    obtain ⟨parent, -, hparent⟩ := Option.bind_eq_some_iff.1 hget
    exact h parent id value hparent

theorem set (h : env.AllBound P) {id : SymbolId} {value : Value H} (hvalue : P id value)
    (target : ScopeId) : (env.set target id value).AllBound P := by
  intro scope other found hfound
  rcases scope_set_cases env target scope id value with hscope | ⟨-, hscope⟩
  · exact h scope other found (hscope ▸ hfound)
  · rw [hscope] at hfound
    rcases Dictionary.get?_set_eq_some hfound with ⟨rfl, rfl⟩ | hfound
    · exact hvalue
    · exact h scope other found hfound

theorem imp {Q : SymbolId → Value H → Prop} (h : env.AllBound P)
    (hPQ : ∀ id value, P id value → Q id value) : env.AllBound Q :=
  fun scope id value hget => hPQ id value (h scope id value hget)

/-- Only what is bound counts. -/
theorem of_scope_eq (h : env.AllBound P) {after : Environment H}
    (hscope : ∀ scope, after.scope scope = env.scope scope) : after.AllBound P := by
  intro scope id value hget
  rw [hscope scope] at hget
  exact h scope id value hget

/-- A scope may be opened for bindings that `P` holds of. -/
theorem openScope (h : env.AllBound P) {bindings : List (SymbolId × Value H)}
    (hbindings : ∀ binding ∈ bindings, P binding.1 binding.2) :
    (env.openScope (Dictionary.empty.setAll bindings)).2.AllBound P := by
  intro scope id value hget
  -- Only the new scope holds something new, and that is one of the bindings.
  by_cases hscope : scope = (env.openScope (Dictionary.empty.setAll bindings)).1
  · subst hscope
    rw [scope_openScope_self] at hget
    rcases Dictionary.get?_setAll_eq_some hget with hmem | hnone
    · exact hbindings _ hmem
    · cases hnone
  · rw [scope_openScope_of_ne hscope] at hget
    exact h scope id value hget

theorem closeScope (h : env.AllBound P) : env.closeScope.AllBound P := by
  intro scope id value hget
  -- The last scope is gone, and the others are as they were.
  by_cases hscope : scope = .inner (env.locals.size - 1)
  · subst hscope
    rw [scope_closeScope_last] at hget
    cases hget
  · rw [scope_closeScope_of_ne hscope] at hget
    exact h scope id value hget

/-- A name may be bound to a value that `P` holds of. -/
theorem define (h : env.AllBound P) {name : String} {value : Value H}
    (hvalue : P (env.intern name).1 value) : (env.define name value).2.AllBound P := by
  -- A new name has a number and no binding yet.
  have hintern : (env.intern name).2.AllBound P :=
    h.of_scope_eq fun scope => by cases scope <;> rfl
  exact hintern.set hvalue .root

/-- A native may be registered if `P` holds of it. -/
theorem register (h : env.AllBound P) {name : String} {action : Action H}
    (hnative : ∀ id identity, P id (.native ⟨identity, name, action⟩)) :
    (env.register name action).2.AllBound P := by
  have hcount : ({ env with natives := env.natives + 1 } : Environment H).AllBound P :=
    h.of_scope_eq fun scope => by cases scope <;> rfl
  exact hcount.define (hnative _ _)

end AllBound

/-- An environment that binds nothing binds nothing wrong. -/
theorem allBound_bare (P : SymbolId → Value H → Prop) (owner : Nat) :
    (bare owner : Environment H).AllBound P := by
  intro scope id value hget
  cases scope <;> cases hget

/-- What holds of the constants and of all entries of the catalog holds of all that a new
session binds. -/
theorem allBound_full {P : Value H → Prop} (owner : Nat)
    (hconstants : ∀ pair ∈ (constants : List (String × Value H)), P pair.2)
    (hcatalog : ∀ identity name entry, P (.native ⟨identity, name, .catalog entry⟩)) :
    (full owner : Environment H).AllBound fun _ => P := by
  have hdefined : (constants.foldl (fun env pair => (env.define pair.1 pair.2).2)
      (bare owner : Environment H)).AllBound fun _ => P :=
    List.foldlRecOn _ _ (allBound_bare _ owner) fun _ henv pair hpair =>
      henv.define (hconstants pair hpair)
  exact List.foldlRecOn _ _ hdefined fun _ henv entry _ =>
    henv.register fun _ identity => hcatalog identity entry.1 entry.2

/-- No function is bound in a new session. -/
theorem no_function_full (owner : Nat) :
    (full owner : Environment H).AllBound fun _ value => value.kind ≠ .function := by
  refine allBound_full owner ?_ fun _ _ _ => nofun
  simp [constants, Value.kind]

/-! ### Environments without a host -/

/-- Whether all natives that are bound are entries of the catalog. -/
def HostFree (env : Environment H) : Prop :=
  ∀ (scope : ScopeId) (id : SymbolId) (value : Value H),
    (env.scope scope).get? id = some value → value.HostFree

namespace HostFree

variable {env : Environment H}

theorem allBound (h : env.HostFree) : env.AllBound fun _ value => value.HostFree :=
  h

theorem get? (h : env.HostFree) {scope : ScopeId} {id : SymbolId} {value : Value H}
    (hget : env.get? scope id = some value) : value.HostFree :=
  h.allBound.get? hget

theorem set (h : env.HostFree) {value : Value H} (hvalue : value.HostFree) (target : ScopeId)
    (id : SymbolId) : (env.set target id value).HostFree := by
  show (env.set target id value).AllBound fun _ value => value.HostFree
  exact h.allBound.set hvalue target

theorem newFunction (h : env.HostFree) (parameters : List SymbolId) (body : Element) :
    (env.newFunction parameters body).2.HostFree :=
  h.allBound.of_scope_eq (env.scope_newFunction parameters body)

/-- A scope may be opened for values without a host. -/
theorem openScope (h : env.HostFree) {values : List (Value H)}
    (hvalues : ∀ value ∈ values, value.HostFree) (ids : List SymbolId) :
    (env.openScope (Dictionary.empty.setAll (ids.zip values))).2.HostFree :=
  h.allBound.openScope fun _ hbinding => hvalues _ (List.of_mem_zip hbinding).2

theorem closeScope (h : env.HostFree) : env.closeScope.HostFree :=
  h.allBound.closeScope

/-- An entry of the catalog may be registered. -/
theorem register (h : env.HostFree) (name : String) (entry : Builtin) :
    (env.register name (.catalog entry)).2.HostFree :=
  h.allBound.register fun _ _ => ⟨entry, rfl⟩

end HostFree

/-- An environment that binds nothing is host-free. -/
theorem hostFree_bare (owner : Nat) : (bare owner : Environment H).HostFree :=
  allBound_bare _ owner

/-- The environment of a new session is host-free. -/
theorem hostFree_full (owner : Nat) : (full owner : Environment H).HostFree := by
  have hconstants : ∀ pair ∈ (constants : List (String × Value H)), pair.2.HostFree := by
    simp [constants, Value.HostFree]
  exact allBound_full owner hconstants fun _ _ entry => ⟨entry, rfl⟩

end Environment

/-! ### A run beside itself -/

/-- Nothing may differ. -/
def Likeness.exact : Likeness where
  spans := Eq
  identities := Eq
  functions := Eq
  errors := Eq
  faithful ha hb := by rw [ha, hb]
  blame _ hspan := by rw [hspan]

theorem Value.like_exact_iff {v w : Value H} : v.Like .exact w ↔ v = w ∧ v.HostFree := by
  constructor
  · intro h
    cases h with
    | function _ _ code =>
      obtain rfl := code
      exact ⟨rfl, trivial⟩
    | @native m n entry identity name left right =>
      obtain ⟨identity', name', action⟩ := m
      obtain ⟨_, _, _⟩ := n
      -- The same entry behind the same identity and the same name is the same native.
      cases identity
      cases name
      cases left
      cases right
      exact ⟨rfl, entry, rfl⟩
    | _ => exact ⟨rfl, trivial⟩
  · rintro ⟨rfl, hfree⟩
    cases v with
    | nil => exact .nil
    | bool value => exact .bool value
    | int value => exact .int value
    | float value => exact .float value
    | string content => exact .string content
    | function f => exact .function rfl rfl rfl
    | native n =>
      obtain ⟨entry, hentry⟩ := hfree
      exact .native entry rfl rfl hentry hentry

theorem forall₂_like_exact_iff {values values' : List (Value H)} :
    List.Forall₂ (Value.Like .exact) values values' ↔
      values = values' ∧ ∀ value ∈ values, value.HostFree := by
  constructor
  · intro h
    induction h with
    | nil => exact ⟨rfl, by simp⟩
    | cons hfirst _ ih =>
      obtain ⟨rfl, hfree⟩ := Value.like_exact_iff.1 hfirst
      obtain ⟨rfl, hall⟩ := ih
      exact ⟨rfl, List.forall_mem_cons.2 ⟨hfree, hall⟩⟩
  · rintro ⟨rfl, hall⟩
    exact List.forall₂_same.2 fun value hmem => Value.like_exact_iff.2 ⟨rfl, hall value hmem⟩

/-- An element matches itself if all parts of a list are related to themselves. -/
theorem Element.match_self {code : Element → Element → Prop} {element : Element}
    (h : ∀ bracket elements span, element = .list bracket elements span →
      ∀ part ∈ elements, code part part) : element.Match .exact code element := by
  cases element with
  | list bracket elements span =>
    exact .list bracket (List.forall₂_same.2 (h bracket elements span rfl)) rfl
  | int value span => exact .int value rfl
  | float value span => exact .float value rfl
  | string content span => exact .string content rfl
  | symbol id span => exact .symbol id id rfl

namespace Coupling

/-- A run beside itself in host-free environments, which keeps `invariant`. -/
def single (invariant : Environment H → Prop) (lockstep : Prop) : Coupling H where
  like := .exact
  env env env' := env = env' ∧ env.HostFree ∧ invariant env
  lockstep := lockstep

variable {invariant : Environment H → Prop} {lockstep : Prop}

theorem Sim.single_lookup (id : SymbolId) (span : Position) (scope : ScopeId) :
    (single invariant lockstep).Sim (Value.Like .exact) (Eval.lookup id span scope : Eval H _)
      (Eval.lookup id span scope) := by
  rintro env _ ⟨rfl, hfree, hinv⟩
  rw [Eval.apply_lookup]
  cases hget : env.get? scope id with
  | some value => exact .ok (Value.like_exact_iff.2 ⟨rfl, hfree.get? hget⟩) ⟨rfl, hfree, hinv⟩
  | none => exact .fault rfl ⟨rfl, hfree, hinv⟩

theorem Sim.single_assign {scope : ScopeId} {id : SymbolId} {v w : Value H}
    (hvalue : v.Like .exact w)
    (hinv : ∀ env, invariant env → invariant (env.set scope id v)) :
    (single invariant lockstep).Sim (fun _ _ => True) (Eval.assign scope id v)
      (Eval.assign scope id w) := by
  obtain ⟨rfl, hv⟩ := Value.like_exact_iff.1 hvalue
  rintro env _ ⟨rfl, hfree, henv⟩
  exact .ok trivial ⟨rfl, hfree.set hv scope id, hinv env henv⟩

theorem Sim.single_make {ids : List SymbolId} {body : Element}
    (hinv : ∀ env : Environment H, invariant env → invariant (env.newFunction ids body).2) :
    (single invariant lockstep).Sim
      (fun f g => (Value.function f : Value H).Like .exact (.function g))
      (Eval.make fun env => env.newFunction ids body)
      (Eval.make fun env => env.newFunction ids body) := by
  rintro env _ ⟨rfl, hfree, henv⟩
  exact .ok (.function rfl rfl rfl) ⟨rfl, hfree.newFunction ids body, hinv env henv⟩

/-- Outcomes that may not differ are the same, unless the fuel ran out. -/
theorem Outcomes.of_exact {κ : Coupling H} (hlike : κ.like = .exact)
    {x y : Except Halt (Value H) × Environment H} (h : κ.Outcomes (Value.Like .exact) x y)
    (hfuel : x.1 ≠ .error .outOfFuel) : x.1 = y.1 ∧ κ.env x.2 y.2 := by
  cases h with
  | ok result after =>
    obtain ⟨rfl, -⟩ := Value.like_exact_iff.1 result
    exact ⟨rfl, after⟩
  | fault error after =>
    rw [hlike] at error
    obtain rfl := error
    exact ⟨rfl, after⟩
  | outOfFuel _ => exact absurd rfl hfuel

/-- A run beside itself ends as it does and keeps the invariant, unless the fuel ran
out. -/
theorem Outcomes.of_single {x y : Except Halt (Value H) × Environment H}
    (h : (single invariant lockstep).Outcomes (Value.Like .exact) x y)
    (hfuel : x.1 ≠ .error .outOfFuel) : x = y ∧ x.2.HostFree ∧ invariant x.2 := by
  obtain ⟨hresult, hafter, hinvariant⟩ := h.of_exact rfl hfuel
  exact ⟨Prod.ext hresult hafter, hinvariant⟩

end Coupling

/-- A run beside itself, of code that satisfies `P`: what is left to show are the steps
that change an environment, and what is evaluated inside. -/
theorem Bridge.single {invariant : Environment H → Prop} {lockstep : Prop}
    {P : Element → Prop} {evaluate evaluate' : Evaluator H} {scope : ScopeId}
    (hparts : ∀ bracket elements span, P (.list bracket elements span) →
      ∀ part ∈ elements, P part)
    (heval : ∀ element, P element → (Coupling.single invariant lockstep).Sim
      (Value.Like .exact) (evaluate element scope) (evaluate' element scope))
    (hassign : ∀ element id value env, P element → element.target? = some id →
      invariant env → invariant (env.set scope id value))
    (hmake : ∀ ids body env, invariant env → invariant (env.newFunction ids body).2)
    (henter : ∀ (f : Function) (values : List (Value H)),
      (∀ value ∈ values, value.HostFree) → (Coupling.single invariant lockstep).Sim
        (Value.Like .exact) (f.enter evaluate values) (f.enter evaluate' values)) :
    Bridge (Coupling.single invariant lockstep) (fun e e' => e = e' ∧ P e) evaluate evaluate'
      scope scope where
  shape := by
    rintro e _ ⟨rfl, he⟩
    refine e.match_self fun bracket elements span heq part hpart => ⟨rfl, ?_⟩
    exact hparts bracket elements span (heq ▸ he) part hpart
  element := by
    rintro e _ ⟨rfl, he⟩
    exact heval e he
  lookup := by
    intro id id' p q hcode
    cases hcode.1
    exact .single_lookup id p scope
  empty := by
    intro bracket p q hcode
    cases hcode.1
    rfl
  assign := by
    rintro e _ id id' v w ⟨rfl, he⟩ hid hid' hvalue
    cases Option.some.inj (hid.symm.trans hid')
    exact .single_assign hvalue fun env henv => hassign e id v env he hid henv
  closure := by
    intro list list' ids ids' body body' hlist hids hids' hbody
    obtain rfl : list = list' := by
      simpa using hlist.imp fun _ _ h => h.1
    cases Except.ok.inj (hids.symm.trans hids')
    cases hbody.1
    exact .single_make fun env henv => hmake ids body env henv
  enter := by
    intro f g values values' hf hvalues
    obtain ⟨rfl, hfree⟩ := forall₂_like_exact_iff.1 hvalues
    cases (Value.like_exact_iff.1 hf).1
    exact henter f values hfree

end BracketLisp
