import BracketLisp.Symbol
import BracketLisp.Value

/-!
# `BracketLisp.Environment`: the state of a session

An `Environment` holds the symbols, the root scope, and the local scopes that are open.
A local scope has no other scope between itself and the root, whichever scope it was
opened from, so `get?` looks in at most two places. All scopes share the symbols. This is what
the references between namespaces come to, however many there are
(`Namespaces.environment_perform`).

Things to call get an `Identity` when they are made. Functions and natives are counted
apart.

The view of an environment is `scope`. `scope_set_self` and `scope_set_of_ne` say what
binding does to it, and `scope_openScope_self`, `scope_openScope_of_ne` and
`closeScope_openScope` what opening and closing do.
-/

set_option autoImplicit false

namespace BracketLisp

/-- What symbols are bound to. -/
abbrev Scope (α : Type) := Dictionary SymbolId α

/-- Names one of the scopes of an environment. -/
inductive ScopeId where
  | root
  /-- The local scope at a place in the row of open ones. -/
  | inner (index : Nat)
deriving DecidableEq, Repr

/-- The scope behind a scope: the root behind a local one, and none behind the root. -/
def ScopeId.parent? : ScopeId → Option ScopeId
  | root => none
  | inner _ => some root

/-- Whether the scope is the root. -/
def ScopeId.isRoot : ScopeId → Bool
  | root => true
  | inner _ => false

/-- Symbols, scopes, and how many things to call there have been. `owner` is the mark
that identities made here bear. -/
structure Environment (H : Type) where
  owner : Nat
  symbols : SymbolTable
  root : Scope (Value H)
  locals : Array (Scope (Value H))
  functions : Nat
  natives : Nat

namespace Environment

variable {H : Type}

/-- An environment without symbols and bindings. -/
def bare (owner : Nat) : Environment H :=
  ⟨owner, .empty, .empty, #[], 0, 0⟩

instance : Inhabited (Environment H) := ⟨bare 0⟩

/-! ### Scopes -/

/-- The bindings made in one scope. A scope that is not open has none. -/
def scope (env : Environment H) : ScopeId → Scope (Value H)
  | .root => env.root
  | .inner index => env.locals[index]?.getD .empty

/-- What a symbol means in a scope: its binding there, else its binding in the root. -/
def get? (env : Environment H) (scope : ScopeId) (id : SymbolId) : Option (Value H) :=
  match (env.scope scope).get? id with
  | some value => some value
  | none => scope.parent?.bind fun parent => (env.scope parent).get? id

/-- Binds a symbol in one scope. -/
def set (env : Environment H) (scope : ScopeId) (id : SymbolId) (value : Value H) :
    Environment H :=
  match scope with
  | .root => { env with root := env.root.set id value }
  | .inner index => { env with locals := env.locals.modify index (·.set id value) }

/-- Opens a local scope with the given bindings. -/
def openScope (env : Environment H) (bindings : Scope (Value H)) : ScopeId × Environment H :=
  (.inner env.locals.size, { env with locals := env.locals.push bindings })

/-- Closes the scope that was opened last. -/
def closeScope (env : Environment H) : Environment H :=
  { env with locals := env.locals.pop }

/-- Whether a scope takes bindings. The root always does. -/
def IsOpen (env : Environment H) : ScopeId → Prop
  | .root => True
  | .inner index => index < env.locals.size

/-- A binding shows in the scope that it is made in. -/
theorem scope_set_self {env : Environment H} {target : ScopeId} (h : env.IsOpen target)
    (id : SymbolId) (value : Value H) :
    (env.set target id value).scope target = (env.scope target).set id value := by
  cases target with
  | root => rfl
  | inner index =>
    have hlt : index < env.locals.size := h
    simp [set, scope, Array.getElem?_modify, Array.getElem?_eq_getElem hlt]

/-- A binding shows in no other scope. -/
theorem scope_set_of_ne {target other : ScopeId} (h : other ≠ target) (env : Environment H)
    (id : SymbolId) (value : Value H) :
    (env.set target id value).scope other = env.scope other := by
  cases target with
  | root =>
    cases other with
    | root => exact absurd rfl h
    | inner _ => rfl
  | inner index =>
    cases other with
    | root => rfl
    | inner place =>
      have hne : index ≠ place := fun heq => h (heq ▸ rfl)
      simp [set, scope, Array.getElem?_modify, hne]

/-- A new scope has the bindings that it is opened with. -/
theorem scope_openScope_self (env : Environment H) (bindings : Scope (Value H)) :
    (env.openScope bindings).2.scope (env.openScope bindings).1 = bindings := by
  simp [openScope, scope]

/-- Opening a scope changes no other. -/
theorem scope_openScope_of_ne {env : Environment H} {bindings : Scope (Value H)}
    {other : ScopeId} (h : other ≠ (env.openScope bindings).1) :
    (env.openScope bindings).2.scope other = env.scope other := by
  cases other with
  | root => rfl
  | inner place =>
    have hne : place ≠ env.locals.size := fun heq => h (heq ▸ rfl)
    simp [openScope, scope, Array.getElem?_push, hne]

/-- Closing a scope right after opening it leaves all as it was. -/
@[simp]
theorem closeScope_openScope (env : Environment H) (bindings : Scope (Value H)) :
    (env.openScope bindings).2.closeScope = env := by
  simp [openScope, closeScope]

/-! ### Symbols -/

/-- The number of a name, which gets one if it has none. -/
def intern (env : Environment H) (name : String) : SymbolId × Environment H :=
  let (id, symbols) := env.symbols.intern name
  (id, { env with symbols })

/-- Binds a name in the root. -/
def define (env : Environment H) (name : String) (value : Value H) : SymbolId × Environment H :=
  let (id, env) := env.intern name
  (id, env.set .root id value)

/-! ### Things to call -/

/-- Makes a function. -/
def newFunction (env : Environment H) (parameters : List SymbolId) (body : Element) :
    Function × Environment H :=
  (⟨⟨env.owner, env.functions⟩, parameters, body⟩, { env with functions := env.functions + 1 })

/-- Makes a native for an action and binds it to a name in the root. -/
def register (env : Environment H) (name : String) (action : Action H) :
    SymbolId × Environment H :=
  let native : Native H := ⟨⟨env.owner, env.natives⟩, name, action⟩
  { env with natives := env.natives + 1 }.define name (.native native)

/-- Binds a native to a further name in the root. It stays the same native. -/
def registerAgain (env : Environment H) (name : String) (native : Native H) :
    SymbolId × Environment H :=
  env.define name (.native { native with name })

/-! ### The catalog -/

/-- The constants of the catalog. -/
def constants : List (String × Value H) :=
  [("true", .bool true), ("false", .bool false), ("nil", .nil)]

/-- Takes up the constants and the entries of the catalog, in order. -/
def withCatalog (env : Environment H) : Environment H :=
  let env := constants.foldl (fun env (name, value) => (env.define name value).2) env
  catalog.foldl (fun env (name, entry) => (env.register name (.catalog entry)).2) env

/-- The environment of a session that knows the catalog. -/
def full (owner : Nat) : Environment H :=
  (bare owner).withCatalog

end Environment

end BracketLisp
