import BracketLisp.Environment

/-!
# `BracketLisp.Namespace`: namespaces and what they refer to

A `Namespace` refers to its bindings and, if it is a root, to its symbols. Any other one refers
to its parent. Once made it stays as it is. What changes is the `Store` that holds all bindings
and symbols.

Nothing in a namespace but its chain of parents says what stands behind it: `root`, `table` and
`Store.get?` follow that chain. A child is made through any namespace, and a native registered
through any, and both go to the root of that namespace first. An `Environment` is what this comes
to for one root and its children.
-/

set_option autoImplicit false

namespace BracketLisp

/-- Where the bindings of a namespace are in the store, and what stands behind it. -/
inductive Namespace where
  /-- A root, and where its symbols are in the store. -/
  | outermost (bindings symbols : Nat)
  /-- Any other namespace, and its parent. -/
  | inner (bindings : Nat) (parent : Namespace)
deriving DecidableEq, Repr

namespace Namespace

/-- Where the bindings are. -/
def bindings : Namespace → Nat
  | outermost bindings _ | inner bindings _ => bindings

/-- The last of the chain of parents. -/
def root : Namespace → Namespace
  | outermost bindings symbols => outermost bindings symbols
  | inner _ parent => parent.root

def parent? : Namespace → Option Namespace
  | outermost _ _ => none
  | inner _ parent => some parent

def isRoot : Namespace → Bool
  | outermost _ _ => true
  | inner _ _ => false

/-- Where the symbols are. -/
def table : Namespace → Nat
  | outermost _ symbols => symbols
  | inner _ parent => parent.table

end Namespace

/-- The bindings and the symbols of namespaces. `natives` counts the natives that have been made
here, and `owner` is the mark that they bear. -/
structure Store (H : Type) where
  owner : Nat
  natives : Nat
  bindings : Array (Scope (Value H))
  tables : Array SymbolTable

namespace Store

variable {H : Type}

/-- A store without namespaces. -/
def empty (owner : Nat) : Store H :=
  ⟨owner, 0, #[], #[]⟩

/-- The bindings that a namespace refers to. -/
def scope (store : Store H) (space : Namespace) : Scope (Value H) :=
  store.bindings[space.bindings]?.getD .empty

/-- The symbols that a namespace refers to. -/
def symbols (store : Store H) (space : Namespace) : SymbolTable :=
  store.tables[space.table]?.getD .empty

/-- Makes a root for some symbols. -/
def newRoot (store : Store H) (symbols : SymbolTable) : Namespace × Store H :=
  (.outermost store.bindings.size store.tables.size,
    { store with bindings := store.bindings.push .empty, tables := store.tables.push symbols })

/-- Makes a namespace without bindings, whose parent is the root of `creator` and never `creator`
itself. -/
def childOfRoot (store : Store H) (creator : Namespace) : Namespace × Store H :=
  (.inner store.bindings.size creator.root,
    { store with bindings := store.bindings.push .empty })

/-- What a symbol means in a namespace: its binding there, else what it means in the parent. -/
def get? (store : Store H) (id : SymbolId) : Namespace → Option (Value H)
  | .outermost bindings symbols => (store.scope (.outermost bindings symbols)).get? id
  | .inner bindings parent =>
    match (store.scope (.inner bindings parent)).get? id with
    | some value => some value
    | none => store.get? id parent

/-- Binds a symbol in one namespace. -/
def set (store : Store H) (space : Namespace) (id : SymbolId) (value : Value H) : Store H :=
  { store with bindings := store.bindings.modify space.bindings (·.set id value) }

/-- The number of a name in the symbols of a namespace. It gets one if it has none. -/
def intern (store : Store H) (space : Namespace) (name : String) : SymbolId × Store H :=
  let (id, symbols) := (store.symbols space).intern name
  (id, { store with tables := store.tables.setIfInBounds space.table symbols })

/-- Binds a name to a native in the root, whichever namespace this is done through. The native
does `action` and is told apart by `identity`. -/
def registerNative (store : Store H) (space : Namespace) (name : String) (identity : Identity)
    (action : Action H) : SymbolId × Store H :=
  let root := space.root
  let (id, store) := store.intern root name
  (id, store.set root id (.native ⟨identity, name, action⟩))

/-- Makes a native for an action and binds a name to it in the root. -/
def registerFn (store : Store H) (space : Namespace) (name : String) (action : Action H) :
    SymbolId × Store H :=
  let identity : Identity := ⟨store.owner, store.natives⟩
  { store with natives := store.natives + 1 }.registerNative space name identity action

/-! ### What the operations leave alone -/

/-- A binding shows in the namespace that it is made in. -/
theorem scope_set_self {store : Store H} {space : Namespace}
    (h : space.bindings < store.bindings.size) (id : SymbolId) (value : Value H) :
    (store.set space id value).scope space = (store.scope space).set id value := by
  simp [set, scope, Array.getElem?_modify, Array.getElem?_eq_getElem h]

/-- A binding shows in no namespace that has its bindings elsewhere. -/
theorem scope_set_of_ne {space other : Namespace} (h : other.bindings ≠ space.bindings)
    (store : Store H) (id : SymbolId) (value : Value H) :
    (store.set space id value).scope other = store.scope other := by
  simp [set, scope, Array.getElem?_modify, Ne.symm h]

/-- A new namespace binds nothing. -/
theorem scope_childOfRoot_self (store : Store H) (creator : Namespace) :
    (store.childOfRoot creator).2.scope (store.childOfRoot creator).1 = .empty := by
  simp [childOfRoot, scope, Namespace.bindings]

/-- A new namespace leaves the others as they are. -/
theorem scope_childOfRoot_of_lt {store : Store H} {other : Namespace}
    (h : other.bindings < store.bindings.size) (creator : Namespace) :
    (store.childOfRoot creator).2.scope other = store.scope other := by
  simp [childOfRoot, scope, Array.getElem?_push, Nat.ne_of_lt h]

/-- Interning changes the symbols for all namespaces that refer to the same ones. -/
theorem symbols_intern {store : Store H} {space other : Namespace}
    (h : space.table < store.tables.size) (heq : other.table = space.table) (name : String) :
    (store.intern space name).2.symbols other = ((store.symbols space).intern name).2 := by
  simp [intern, symbols, heq, h]

end Store

end BracketLisp
