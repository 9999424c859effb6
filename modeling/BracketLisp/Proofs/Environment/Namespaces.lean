import BracketLisp.Namespace
import BracketLisp.Proofs.Environment.LastBinding

/-!
# `BracketLisp.Proofs.Environment.Namespaces`: namespaces are the scopes of an environment

An environment knows one root and scopes right before it, and that is all that namespaces come to,
however they are made: through a root, through its children, and through the children that those
make. `Namespaces` are a root and all that was made from it, and `Namespaces.environment` is the
environment that they amount to.

* `Rooted` is the invariant. The root has no parent, and it is the parent of all others, which
  refer to bindings of their own. `Rooted.perform` preserves it for one request and
  `Rooted.of_logged` for a log of them.
* `environment_perform` shows that a request does to the namespaces what it does to the scopes of
  the environment, and `get?_eq` and `intern_eq` that the answers are the same. So
  `environment_of_logged` leads from a log of the one to a log of the other.
* `latest_binding_counts` is what the two levels show in the end.
-/

set_option autoImplicit false

namespace BracketLisp

open ScopeRequest (latest?)

variable {H : Type}

/-- A root and the other namespaces that there are, in the order in which they were made. -/
structure Namespaces (H : Type) where
  store : Store H
  root : Namespace
  children : Array Namespace

/-- Does what is asked, through a namespace. -/
def ScopeRequest.performThrough (space : Namespace) (spaces : Namespaces H) :
    ScopeRequest H → Namespaces H
  | child _ =>
    let (made, store) := spaces.store.childOfRoot space
    { spaces with store, children := spaces.children.push made }
  | set _ id value => { spaces with store := spaces.store.set space id value }
  | get _ _ => spaces
  | intern _ name => { spaces with store := (spaces.store.intern space name).2 }
  | register _ name action =>
    { spaces with store := (spaces.store.registerFn space name action).2 }
  | registerAgain _ name native =>
    { spaces with
      store := (spaces.store.registerNative space name native.identity native.action).2 }

namespace Namespaces

/-- A new root for symbols that there may be, in a new store. -/
def around (owner : Nat) (symbols : SymbolTable) : Namespaces H :=
  let (root, store) := (Store.empty owner).newRoot symbols
  ⟨store, root, #[]⟩

/-- The namespace that a scope stands for. -/
def find? (spaces : Namespaces H) : ScopeId → Option Namespace
  | .root => some spaces.root
  | .inner index => spaces.children[index]?

@[simp]
theorem find?_root (spaces : Namespaces H) : spaces.find? .root = some spaces.root :=
  rfl

/-- The environment that has the bindings of the namespaces, and the symbols of the root. -/
def environment (spaces : Namespaces H) : Environment H where
  owner := spaces.store.owner
  symbols := spaces.store.symbols spaces.root
  root := spaces.store.scope spaces.root
  locals := spaces.children.map spaces.store.scope
  functions := 0
  natives := spaces.store.natives

/-- Whether requests lead from namespaces to others, each through a namespace that there is by
then. The latest comes first. -/
inductive Logged (start : Namespaces H) : List (ScopeRequest H) → Namespaces H → Prop where
  | nil : Logged start [] start
  | cons {log : List (ScopeRequest H)} {spaces : Namespaces H} (h : Logged start log spaces)
      (request : ScopeRequest H) (space : Namespace)
      (hspace : spaces.find? request.through = some space) :
      Logged start (request :: log) (request.performThrough space spaces)

/-- What holds of all namespaces that come from one root. -/
structure Rooted (spaces : Namespaces H) : Prop where
  /-- The root has no parent. -/
  root : spaces.root = .outermost 0 0
  /-- The root is the parent of every other namespace, and each has bindings of its own. -/
  children : ∀ index space, spaces.children[index]? = some space →
    space = Namespace.inner (index + 1) spaces.root
  /-- All bindings are in the store. -/
  bindings : spaces.store.bindings.size = spaces.children.size + 1
  /-- There is one table of symbols. -/
  tables : spaces.store.tables.size = 1

namespace Rooted

variable {spaces : Namespaces H} {space : Namespace} {scope : ScopeId}

/-- Every chain of parents ends in the same root. -/
theorem root_of_find? (h : spaces.Rooted) (hspace : spaces.find? scope = some space) :
    space.root = spaces.root := by
  cases scope with
  | root =>
    obtain rfl := Option.some.inj hspace
    rw [h.root]
    rfl
  | inner index =>
    rw [h.children index space hspace, h.root]
    rfl

/-- Every chain of parents ends in the same symbols. -/
theorem table_of_find? (h : spaces.Rooted) (hspace : spaces.find? scope = some space) :
    space.table = spaces.root.table := by
  cases scope with
  | root => rw [Option.some.inj hspace]
  | inner index =>
    rw [h.children index space hspace]
    rfl

theorem symbols_of_find? (h : spaces.Rooted) (hspace : spaces.find? scope = some space) :
    spaces.store.symbols space = spaces.store.symbols spaces.root := by
  rw [Store.symbols, Store.symbols, h.table_of_find? hspace]

theorem bindings_root (h : spaces.Rooted) : spaces.root.bindings = 0 := by
  rw [h.root]
  rfl

theorem bindings_child (h : spaces.Rooted) {index : Nat}
    (hspace : spaces.children[index]? = some space) : space.bindings = index + 1 := by
  rw [h.children index space hspace]
  rfl

/-- Bindings that a namespace refers to are there. -/
theorem bindings_lt (h : spaces.Rooted) (hspace : spaces.find? scope = some space) :
    space.bindings < spaces.store.bindings.size := by
  rw [h.bindings]
  cases scope with
  | root =>
    obtain rfl := Option.some.inj hspace
    rw [h.bindings_root]
    exact Nat.zero_lt_succ _
  | inner index =>
    rw [h.bindings_child hspace]
    exact Nat.succ_lt_succ (Array.getElem?_eq_some_iff.1 hspace).1

theorem table_lt (h : spaces.Rooted) (hspace : spaces.find? scope = some space) :
    space.table < spaces.store.tables.size := by
  rw [h.tables, h.table_of_find? hspace, h.root]
  exact Nat.zero_lt_one

/-- Different scopes stand for namespaces that have different bindings. -/
theorem bindings_ne (h : spaces.Rooted) {other : ScopeId} {space' : Namespace}
    (hspace : spaces.find? scope = some space) (hother : spaces.find? other = some space')
    (hne : other ≠ scope) : space'.bindings ≠ space.bindings := by
  cases scope with
  | root =>
    cases other with
    | root => exact absurd rfl hne
    | inner index =>
      obtain rfl := Option.some.inj hspace
      rw [h.bindings_root, h.bindings_child hother]
      exact Nat.succ_ne_zero index
  | inner index =>
    rw [h.bindings_child hspace]
    cases other with
    | root =>
      obtain rfl := Option.some.inj hother
      rw [h.bindings_root]
      exact (Nat.succ_ne_zero index).symm
    | inner place =>
      rw [h.bindings_child hother]
      exact fun heq => hne (congrArg ScopeId.inner (Nat.succ.inj heq))

/-- A symbol means in a namespace, along the chain of its parents, what it is bound to there or
else in the root. -/
theorem get?_of_find? (h : spaces.Rooted) (hspace : spaces.find? scope = some space)
    (store : Store H) (id : SymbolId) :
    store.get? id space = ((store.scope space).get? id).or ((store.scope spaces.root).get? id) := by
  have hroot : store.get? id spaces.root = (store.scope spaces.root).get? id := by
    rw [h.root, Store.get?]
  cases scope with
  | root =>
    obtain rfl := Option.some.inj hspace
    rw [hroot, Option.or_self]
  | inner index =>
    rw [← hroot, h.children index space hspace, Store.get?]
    cases (store.scope (.inner (index + 1) spaces.root)).get? id <;> rfl

/-! ### What holds of a new root, and after each request -/

theorem around (owner : Nat) (symbols : SymbolTable) :
    (Namespaces.around owner symbols : Namespaces H).Rooted :=
  ⟨rfl, fun _ _ hnone => by simp [Namespaces.around] at hnone, rfl, rfl⟩

/-- The parent of a new child is the root, through whichever namespace the child is made. -/
theorem childOfRoot (h : spaces.Rooted) (hspace : spaces.find? scope = some space) :
    (spaces.store.childOfRoot space).1 = .inner (spaces.children.size + 1) spaces.root := by
  rw [Store.childOfRoot, h.root_of_find? hspace, h.bindings]

/-- Nothing that is done through a namespace gives any namespace another parent. -/
theorem perform (h : spaces.Rooted) {request : ScopeRequest H}
    (hspace : spaces.find? request.through = some space) :
    (request.performThrough space spaces).Rooted := by
  cases request with
  | child _ =>
    refine ⟨h.root, fun index made hmade => ?_, ?_, h.tables⟩
    · have hmade : (spaces.children.push (spaces.store.childOfRoot space).1)[index]? = some made :=
        hmade
      rw [Array.getElem?_push] at hmade
      split at hmade
      -- The new child is the last one, and only its parent is in question.
      next heq =>
        rw [← Option.some.inj hmade, heq]
        exact h.childOfRoot hspace
      next => exact h.children index made hmade
    · show (spaces.store.bindings.push .empty).size =
        (spaces.children.push (spaces.store.childOfRoot space).1).size + 1
      rw [Array.size_push, Array.size_push, h.bindings]
  | set _ id value =>
    exact ⟨h.root, h.children, Array.size_modify.trans h.bindings, h.tables⟩
  | get _ _ => exact h
  | intern _ name =>
    exact ⟨h.root, h.children, h.bindings, Array.size_setIfInBounds.trans h.tables⟩
  | register _ name action | registerAgain _ name native =>
    exact ⟨h.root, h.children, Array.size_modify.trans h.bindings,
      Array.size_setIfInBounds.trans h.tables⟩

/-- At every moment the root is the parent of all other namespaces. -/
theorem of_logged {start : Namespaces H} (hstart : start.Rooted) {log : List (ScopeRequest H)}
    (h : Logged start log spaces) : spaces.Rooted := by
  induction h with
  | nil => exact hstart
  | cons _ _ _ hspace ih => exact ih.perform hspace

end Rooted

/-! ### What namespaces amount to -/

variable {spaces : Namespaces H} {space : Namespace} {scope : ScopeId}

/-- The scopes of the environment have the bindings of the namespaces that they stand for. -/
theorem scope_environment (hspace : spaces.find? scope = some space) :
    spaces.environment.scope scope = spaces.store.scope space := by
  cases scope with
  | root => rw [← Option.some.inj hspace, Environment.scope, environment]
  | inner index =>
    have hchild : spaces.children[index]? = some space := hspace
    simp [Environment.scope, environment, hchild]

/-- A scope that stands for a namespace is open. -/
theorem isOpen_environment (hspace : spaces.find? scope = some space) :
    spaces.environment.IsOpen scope := by
  cases scope with
  | root => trivial
  | inner index =>
    show index < (spaces.children.map spaces.store.scope).size
    rw [Array.size_map]
    exact (Array.getElem?_eq_some_iff.1 hspace).1

/-- A symbol means in a namespace what it means in the scope. -/
theorem get?_eq (h : spaces.Rooted) (hspace : spaces.find? scope = some space) (id : SymbolId) :
    spaces.store.get? id space = spaces.environment.get? scope id := by
  rw [h.get?_of_find? hspace, ← scope_environment hspace,
    ← scope_environment spaces.find?_root]
  cases scope with
  | root => rw [Environment.get?_root, Option.or_self]
  | inner index => rw [Environment.get?_inner]

/-- Interning through any namespace gives the number that the environment gives. -/
theorem intern_eq (h : spaces.Rooted) (hspace : spaces.find? scope = some space) (name : String) :
    (spaces.store.intern space name).1 = (spaces.environment.intern name).1 :=
  congrArg (fun symbols : SymbolTable => (symbols.intern name).1) (h.symbols_of_find? hspace)

/-- A new child is a scope that is opened without bindings. -/
theorem environment_child (h : spaces.Rooted) (space : Namespace) (through : ScopeId) :
    ((ScopeRequest.child through).performThrough space spaces).environment =
      (spaces.environment.openScope .empty).2 := by
  have hold (other : ScopeId) (space' : Namespace) (hother : spaces.find? other = some space') :
      (spaces.store.childOfRoot space).2.scope space' = spaces.store.scope space' :=
    Store.scope_childOfRoot_of_lt (h.bindings_lt hother) space
  have hlocals : (spaces.children.push (spaces.store.childOfRoot space).1).map
      (spaces.store.childOfRoot space).2.scope =
        (spaces.children.map spaces.store.scope).push .empty := by
    rw [Array.map_push, Store.scope_childOfRoot_self]
    congr 1
    refine Array.map_congr_left fun child hchild => ?_
    obtain ⟨index, hindex⟩ := Array.mem_iff_getElem?.1 hchild
    exact hold (.inner index) child hindex
  simp only [environment, ScopeRequest.performThrough, Environment.openScope,
    Environment.mk.injEq]
  exact ⟨rfl, rfl, hold .root spaces.root rfl, hlocals, trivial, rfl⟩

/-- A binding in a namespace is one in the scope. -/
theorem environment_set (h : spaces.Rooted) (hspace : spaces.find? scope = some space)
    (id : SymbolId) (value : Value H) :
    environment { spaces with store := spaces.store.set space id value } =
      spaces.environment.set scope id value := by
  have hself := Store.scope_set_self (h.bindings_lt hspace) id value
  have hother (other : ScopeId) (space' : Namespace) (hother : spaces.find? other = some space')
      (hne : other ≠ scope) :
      (spaces.store.set space id value).scope space' = spaces.store.scope space' :=
    Store.scope_set_of_ne (h.bindings_ne hspace hother hne) spaces.store id value
  cases scope with
  | root =>
    obtain rfl := Option.some.inj hspace
    have hlocals : spaces.children.map (spaces.store.set spaces.root id value).scope =
        spaces.children.map spaces.store.scope := by
      refine Array.map_congr_left fun child hchild => ?_
      obtain ⟨index, hindex⟩ := Array.mem_iff_getElem?.1 hchild
      exact hother (.inner index) child hindex (by simp)
    simp only [environment, Environment.set, Environment.mk.injEq]
    exact ⟨rfl, rfl, hself, hlocals, trivial, rfl⟩
  | inner index =>
    have hlocals : spaces.children.map (spaces.store.set space id value).scope =
        (spaces.children.map spaces.store.scope).modify index (·.set id value) := by
      -- Place by place: the binding shows at the place of this child and at no other.
      refine Array.ext_getElem? fun place => ?_
      rw [Array.getElem?_modify, Array.getElem?_map, Array.getElem?_map]
      cases hplace : spaces.children[place]? with
      | none => split <;> rfl
      | some child =>
        split
        next heq =>
          subst heq
          obtain rfl := Option.some.inj (hspace.symm.trans hplace)
          exact congrArg some hself
        next hne =>
          exact congrArg some (hother (.inner place) child hplace fun heq =>
            hne (ScopeId.inner.inj heq).symm)
    simp only [environment, Environment.set, Environment.mk.injEq]
    exact ⟨rfl, rfl, hother .root spaces.root rfl (by simp), hlocals, trivial, rfl⟩

/-- Interning through any namespace adds to the symbols that all of them share. -/
theorem environment_intern (h : spaces.Rooted) (hspace : spaces.find? scope = some space)
    (name : String) :
    environment { spaces with store := (spaces.store.intern space name).2 } =
      (spaces.environment.intern name).2 := by
  have hsymbols : (spaces.store.intern space name).2.symbols spaces.root =
      ((spaces.store.symbols spaces.root).intern name).2 := by
    rw [Store.symbols_intern (h.table_lt hspace) (h.table_of_find? hspace).symm,
      h.symbols_of_find? hspace]
  simp only [environment, Environment.intern, Environment.mk.injEq]
  exact ⟨rfl, hsymbols, rfl, rfl, trivial, rfl⟩

/-- A native that is registered through any namespace is a definition in the root. -/
theorem environment_registerNative (h : spaces.Rooted) (hspace : spaces.find? scope = some space)
    (name : String) (identity : Identity) (action : Action H) :
    environment { spaces with
      store := (spaces.store.registerNative space name identity action).2 } =
      (spaces.environment.define name (.native ⟨identity, name, action⟩)).2 := by
  have hroot := spaces.find?_root
  let request : ScopeRequest H := .intern .root name
  have hset := environment_set (h.perform (show spaces.find? request.through = _ from hroot))
    (find?_root _) (spaces.store.intern spaces.root name).1 (.native ⟨identity, name, action⟩)
  rw [Store.registerNative, h.root_of_find? hspace]
  refine hset.trans ?_
  show _ = (spaces.environment.intern name).2.set .root (spaces.environment.intern name).1 _
  rw [← environment_intern h hroot, ← intern_eq h hroot]
  rfl

/-- A request does to the namespaces what it does to the scopes that they stand for. -/
theorem environment_perform (h : spaces.Rooted) {request : ScopeRequest H}
    (hspace : spaces.find? request.through = some space) :
    (request.performThrough space spaces).environment = request.perform spaces.environment := by
  cases request with
  | child through => exact environment_child h space through
  | set through id value => exact environment_set h hspace id value
  | get through id => rfl
  | intern through name => exact environment_intern h hspace name
  | register through name action =>
    have hcounted : Rooted { spaces with
        store := { spaces.store with natives := spaces.store.natives + 1 } } :=
      ⟨h.root, h.children, h.bindings, h.tables⟩
    exact environment_registerNative hcounted hspace name _ action
  | registerAgain through name native =>
    exact environment_registerNative h hspace name native.identity native.action

/-- Requests lead from namespaces to others as they lead from one environment to the other. -/
theorem environment_of_logged {start : Namespaces H} (hstart : start.Rooted)
    {log : List (ScopeRequest H)} (h : Logged start log spaces) :
    BracketLisp.Logged start.environment log spaces.environment := by
  induction h with
  | nil => exact .nil
  | cons hlog request _ hspace ih =>
    rw [environment_perform (hstart.of_logged hlog) hspace]
    exact ih.cons request (isOpen_environment hspace)

/-- A new root amounts to a new environment. -/
theorem environment_around (owner : Nat) (symbols : SymbolTable) :
    (Namespaces.around owner symbols : Namespaces H).environment =
      Environment.around owner symbols := by
  simp [environment, around, Environment.around, Environment.bare, Store.newRoot, Store.empty,
    Store.symbols, Store.scope, Namespace.table, Namespace.bindings]

/-- The namespaces of a new root show what the log of requests says that its scopes show. -/
theorem get?_of_logged {owner : Nat} {symbols : SymbolTable} {log : List (ScopeRequest H)}
    (h : Logged (.around owner symbols) log spaces) (hspace : spaces.find? scope = some space)
    (id : SymbolId) :
    spaces.store.get? id space = match scope with
      | .root => latest? (spaces.store.symbols spaces.root) owner .root id log
      | .inner index => (latest? (spaces.store.symbols spaces.root) owner (.inner index) id log).or
          (latest? (spaces.store.symbols spaces.root) owner .root id log) := by
  have hstart : (Namespaces.around owner symbols : Namespaces H).Rooted := .around owner symbols
  have hlogged : BracketLisp.Logged (.around owner symbols) log spaces.environment :=
    environment_around (H := H) owner symbols ▸ environment_of_logged hstart h
  rw [get?_eq (hstart.of_logged h) hspace]
  cases scope with
  | root => rw [Environment.get?_root, hlogged.scope_of_logged List.prefix_rfl]; rfl
  | inner index =>
    rw [Environment.get?_inner, hlogged.scope_of_logged List.prefix_rfl,
      hlogged.scope_of_logged List.prefix_rfl]
    rfl

end Namespaces

/-! ### All together -/

/-- What the namespaces that come from a root show after a log of requests. -/
structure TwoLevels (owner : Nat) (log : List (ScopeRequest H)) (spaces : Namespaces H) : Prop where
  /-- The root shows its latest binding. -/
  root : ∀ id, spaces.store.get? id spaces.root =
    latest? (spaces.store.symbols spaces.root) owner .root id log
  /-- Any other namespace shows its own latest binding, or else that of the root. -/
  inner : ∀ index space, spaces.children[index]? = some space → ∀ id,
    spaces.store.get? id space =
      (latest? (spaces.store.symbols spaces.root) owner (.inner index) id log).or
        (latest? (spaces.store.symbols spaces.root) owner .root id log)
  /-- The root has no parent, and it is the parent of every other namespace, whichever that was
  made through. -/
  parent : spaces.root.parent? = none ∧ ∀ space ∈ spaces.children,
    space.parent? = some spaces.root
  /-- A new namespace shows what the root shows, whichever it is made through. -/
  child : ∀ through space, spaces.find? through = some space → ∀ id,
    (spaces.store.childOfRoot space).1.parent? = some spaces.root ∧
      (spaces.store.childOfRoot space).2.get? id (spaces.store.childOfRoot space).1 =
        spaces.store.get? id spaces.root
  /-- A binding in a namespace other than the root shows in no other. -/
  shadow : ∀ index space, spaces.children[index]? = some space → ∀ other space',
    spaces.find? other = some space' → other ≠ .inner index → ∀ shadowed value id,
      (spaces.store.set space shadowed value).get? id space' = spaces.store.get? id space'
  /-- All of them have the same symbols. -/
  symbols : ∀ scope space, spaces.find? scope = some space →
    space.table = spaces.root.table ∧
      spaces.store.symbols space = spaces.store.symbols spaces.root
  /-- Names that are interned, through whichever namespaces, have the same number if and only if
  they are the same. -/
  shared : ∀ through space name, spaces.find? through = some space → ∀ later after,
    Namespaces.Logged ((ScopeRequest.intern through name).performThrough space spaces) later after →
      ∀ through' space' other, after.find? through' = some space' →
        ((after.store.intern space' other).1 = (spaces.store.intern space name).1 ↔ other = name)

/-- Whatever is done through the namespaces that come from a new root, each of them shows the
latest binding that counts for it. In any but the root that is one made through itself, and only
if there is none, one made for the root. -/
theorem latest_binding_counts {owner : Nat} {symbols : SymbolTable}
    {log : List (ScopeRequest H)} {spaces : Namespaces H}
    (h : Namespaces.Logged (.around owner symbols) log spaces) : TwoLevels owner log spaces := by
  have hrooted : spaces.Rooted := (Namespaces.Rooted.around owner symbols).of_logged h
  exact
    { root := fun id => Namespaces.get?_of_logged h spaces.find?_root id
      inner := fun index space hspace id =>
        Namespaces.get?_of_logged h (show spaces.find? (.inner index) = some space from hspace) id
      parent := by
        refine ⟨by rw [hrooted.root]; rfl, fun space hmem => ?_⟩
        obtain ⟨index, hspace⟩ := Array.mem_iff_getElem?.1 hmem
        rw [hrooted.children index space hspace]
        rfl
      child := fun through space hspace id => by
        refine ⟨by rw [hrooted.childOfRoot hspace]; rfl, ?_⟩
        let request : ScopeRequest H := .child through
        have hthrough : spaces.find? request.through = some space := hspace
        have hnext := hrooted.perform hthrough
        have hmade : (request.performThrough space spaces).find? (.inner spaces.children.size) =
            some (spaces.store.childOfRoot space).1 := Array.getElem?_push_size
        have hold : (spaces.store.childOfRoot space).2.scope spaces.root =
            spaces.store.scope spaces.root :=
          Store.scope_childOfRoot_of_lt (hrooted.bindings_lt spaces.find?_root) space
        rw [hnext.get?_of_find? hmade, hrooted.get?_of_find? spaces.find?_root,
          Store.scope_childOfRoot_self, Dictionary.get?_empty, Option.none_or, Option.or_self]
        exact congrArg (Dictionary.get? · id) hold
      shadow := fun index space hspace other space' hother hne shadowed value id => by
        have hchild : spaces.find? (.inner index) = some space := hspace
        rw [hrooted.get?_of_find? hother, hrooted.get?_of_find? hother,
          Store.scope_set_of_ne (hrooted.bindings_ne hchild hother hne),
          Store.scope_set_of_ne (hrooted.bindings_ne hchild spaces.find?_root nofun)]
      symbols := fun scope space hspace =>
        ⟨hrooted.table_of_find? hspace, hrooted.symbols_of_find? hspace⟩
      shared := fun through space name hspace later after hafter through' space' other hother => by
        let request : ScopeRequest H := .intern through name
        have hthrough : spaces.find? request.through = some space := hspace
        have hnext := hrooted.perform hthrough
        have hlogged := Namespaces.environment_of_logged hnext hafter
        rw [Namespaces.environment_perform hrooted hthrough] at hlogged
        rw [Namespaces.intern_eq (hnext.of_logged hafter) hother,
          Namespaces.intern_eq hrooted hspace]
        exact BracketLisp.Logged.intern_eq_iff hlogged }

/-- A child that has bound `x` makes another. Then `x` is bound in the root, and a native is
registered under this name through the first. -/
theorem latest_binding_counts_nested :
    ∃ (log : List (ScopeRequest Empty)) (spaces : Namespaces Empty) (first second : Namespace)
      (native : Native Empty),
      Namespaces.Logged (.around 0 .empty) log spaces ∧ TwoLevels 0 log spaces ∧
        spaces.children = #[first, second] ∧
        spaces.store.get? ⟨0⟩ spaces.root = some (.native native) ∧
        spaces.store.get? ⟨0⟩ first = some (.int 1) ∧
        spaces.store.get? ⟨0⟩ second = some (.native native) := by
  let root : Namespace := .outermost 0 0
  have hstart : Namespaces.Logged (.around 0 .empty) [] (.around (H := Empty) 0 .empty) := .nil
  have hchild := hstart.cons (.child .root) root rfl
  have hset := (hchild.cons (.intern (.inner 0) "x") (.inner 1 root) rfl).cons
    (.set (.inner 0) ⟨0⟩ (.int 1)) (.inner 1 root) rfl
  have hroot := (hset.cons (.child (.inner 0)) (.inner 1 root) rfl).cons
    (.set .root ⟨0⟩ (.int 2)) root rfl
  have hlog := hroot.cons (.register (.inner 0) "x" (.catalog (.operation .equal)))
    (.inner 1 root) rfl
  exact ⟨_, _, .inner 1 root, .inner 2 root, ⟨⟨0, 0⟩, "x", .catalog (.operation .equal)⟩, hlog,
    latest_binding_counts hlog, rfl, rfl, rfl, rfl⟩

/-- In the root there is one level only: a native that is registered under a name replaces what
was bound there with `set` before. -/
theorem registration_replaces_binding :
    ¬ ∀ (log : List (ScopeRequest Empty)) (spaces : Namespaces Empty),
      Namespaces.Logged (.around 0 .empty) log spaces → ∀ (scope : ScopeId) (space : Namespace),
        spaces.find? scope = some space → ∀ (id : SymbolId),
          spaces.store.get? id space =
            (latest? (spaces.store.symbols spaces.root) 0 scope id
              (log.filter ScopeRequest.isSet)).or
              (latest? (spaces.store.symbols spaces.root) 0 .root id log) := by
  intro hset
  let root : Namespace := .outermost 0 0
  have hstart : Namespaces.Logged (.around 0 .empty) [] (.around (H := Empty) 0 .empty) := .nil
  have hbound := (hstart.cons (.intern .root "x") root rfl).cons (.set .root ⟨0⟩ (.int 1)) root rfl
  have hlog := hbound.cons (.register .root "x" (.catalog (.operation .equal))) root rfl
  -- The root shows the native, and the latest of the bindings made with `set` is the number.
  cases hset _ _ hlog .root root rfl ⟨0⟩

end BracketLisp
