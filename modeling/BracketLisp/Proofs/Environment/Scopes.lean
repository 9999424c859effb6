import BracketLisp.Environment

/-!
# `BracketLisp.Proofs.Environment.Scopes`: what each step does to an environment

An environment changes in few ways: a symbol is bound, a function is made, a scope is opened
or closed. Each of them leaves nearly everything as it was. `scope_set_cases` says what a
binding does to the scopes, whether they are open or not, and `symbols_set` and its like what
it leaves alone besides.
-/

set_option autoImplicit false

namespace BracketLisp.Environment

variable {H : Type}

/-! ### Scopes -/

theorem get?_root (env : Environment H) (id : SymbolId) :
    env.get? .root id = (env.scope .root).get? id := by
  unfold get?
  split
  next hvalue => exact hvalue.symm
  next hnone => exact hnone.symm

/-- A local scope has the root behind it. -/
theorem get?_inner (env : Environment H) (index : Nat) (id : SymbolId) :
    env.get? (.inner index) id =
      ((env.scope (.inner index)).get? id).or ((env.scope .root).get? id) := by
  unfold get?
  split
  next hvalue => rw [hvalue, Option.some_or]
  next hnone => rw [hnone, Option.none_or]; rfl

/-- A scope that is not open takes no binding. -/
theorem scope_set_of_not_isOpen {env : Environment H} {target : ScopeId} (h : ¬env.IsOpen target)
    (other : ScopeId) (id : SymbolId) (value : Value H) :
    (env.set target id value).scope other = env.scope other := by
  cases target with
  | root => exact absurd trivial h
  | inner index =>
    cases other with
    | root => rfl
    | inner place =>
      have hnone : env.locals[index]? = none := Array.getElem?_eq_none (Nat.le_of_not_lt h)
      simp only [set, scope, Array.getElem?_modify]
      split
      next heq => rw [← heq, hnone, Option.map_none]
      next => rfl

/-- A binding changes at most the scope that it is made in. That scope stays as it is if
it is not open. -/
theorem scope_set_cases (env : Environment H) (target other : ScopeId) (id : SymbolId)
    (value : Value H) :
    (env.set target id value).scope other = env.scope other ∨
      other = target ∧ (env.set target id value).scope other = (env.scope other).set id value := by
  by_cases hopen : env.IsOpen target
  · by_cases h : other = target
    · exact .inr ⟨h, h ▸ scope_set_self hopen id value⟩
    · exact .inl (scope_set_of_ne h env id value)
  · exact .inl (scope_set_of_not_isOpen hopen other id value)

/-- Making a function changes no scope. -/
@[simp]
theorem scope_newFunction (env : Environment H) (parameters : List SymbolId) (body : Element)
    (scope : ScopeId) : (env.newFunction parameters body).2.scope scope = env.scope scope := by
  cases scope <;> rfl

/-- Closing a scope leaves the others as they are. -/
theorem scope_closeScope_of_ne {env : Environment H} {scope : ScopeId}
    (h : scope ≠ .inner (env.locals.size - 1)) : env.closeScope.scope scope = env.scope scope := by
  cases scope with
  | root => rfl
  | inner index =>
    have hne : index ≠ env.locals.size - 1 := fun heq => h (heq ▸ rfl)
    simp only [closeScope, Environment.scope, Array.getElem?_pop]
    split
    · rfl
    · rw [Array.getElem?_eq_none (by omega)]

/-- The scope that was opened last binds nothing once it is closed. -/
theorem scope_closeScope_last (env : Environment H) :
    env.closeScope.scope (.inner (env.locals.size - 1)) = .empty := by
  simp [closeScope, Environment.scope]

/-! ### Symbols, counts and open scopes -/

/-- Symbols and counts are bound nowhere. -/
theorem scope_with (env : Environment H) (symbols : SymbolTable) (natives : Nat)
    (scope : ScopeId) :
    Environment.scope { env with symbols := symbols, natives := natives } scope =
      env.scope scope := by
  cases scope <;> rfl

@[simp]
theorem owner_set (env : Environment H) (target : ScopeId) (id : SymbolId) (value : Value H) :
    (env.set target id value).owner = env.owner := by
  cases target <;> rfl

@[simp]
theorem symbols_set (env : Environment H) (target : ScopeId) (id : SymbolId) (value : Value H) :
    (env.set target id value).symbols = env.symbols := by
  cases target <;> rfl

@[simp]
theorem functions_set (env : Environment H) (target : ScopeId) (id : SymbolId)
    (value : Value H) : (env.set target id value).functions = env.functions := by
  cases target <;> rfl

@[simp]
theorem natives_set (env : Environment H) (target : ScopeId) (id : SymbolId) (value : Value H) :
    (env.set target id value).natives = env.natives := by
  cases target <;> rfl

@[simp]
theorem size_locals_set (env : Environment H) (target : ScopeId) (id : SymbolId)
    (value : Value H) : (env.set target id value).locals.size = env.locals.size := by
  cases target with
  | root => rfl
  | inner index => exact Array.size_modify

/-- A scope stays open while symbols are bound. -/
theorem IsOpen.set {env : Environment H} {scope : ScopeId} (h : env.IsOpen scope)
    (target : ScopeId) (id : SymbolId) (value : Value H) :
    (env.set target id value).IsOpen scope := by
  cases scope with
  | root => trivial
  | inner index =>
    show index < _
    rw [size_locals_set]
    exact h

end BracketLisp.Environment
