import BracketLisp.Proofs.Eval.HostFree
import BracketLisp.Proofs.Form.Alike

/-!
# `BracketLisp.Proofs.Simulation.Correspondence`: one program in two sessions

The same program may meet two sessions that number its symbols differently, have other
marks on their functions, and know the program from texts with other places. Evaluation
uses a number only to look up and to bind, a mark only to compare, and a place only to
blame. So if all three correspond, evaluation does the same in both sessions.

* A `Correspondence` relates the nodes of code, the numbers of symbols and the identities
  of two sessions. `Correspondence.like` is how far values may differ then, and what is
  blamed for their faults.
* `Environment.Corresponds` relates the environments. `Corresponds.set`,
  `Corresponds.openScope` and their companions keep it.
* `sim_alike` carries it through an evaluation.
-/

set_option autoImplicit false

namespace BracketLisp

variable {H : Type}

/-- A parameter list that begins with a symbol has it as the first parameter. -/
theorem Element.parameters_symbol_cons {id : SymbolId} {span : Position} {others : List Element}
    {ids : List SymbolId} (h : parameters (.symbol id span :: others) = .ok ids) :
    ∃ rest, parameters others = .ok rest ∧ id :: rest = ids := by
  simp only [parameters, symbol?] at h
  cases hothers : parameters others with
  | error error => simp [hothers, Except.map] at h
  | ok rest => exact ⟨rest, rfl, by simpa [hothers, Except.map] using h⟩

/-! ### Correspondences -/

/-- What stays as it is in a session while forms are evaluated: the symbols, the mark on
identities, the count of natives, and which symbols may come to be bound. -/
structure Side where
  symbols : SymbolTable
  owner : Nat
  natives : Nat
  bound : SymbolId → Prop

/-- How the code, the symbols and the identities of two sessions go together. -/
structure Correspondence where
  nodes : Element → Element → Prop
  ids : SymbolId → SymbolId → Prop
  identities : Identity → Identity → Prop
  left : Side
  right : Side
  symbol : ∀ {id id' : SymbolId} {p q : Position},
    nodes (.symbol id p) (.symbol id' q) → ids id id'
  /-- Numbers correspond one to one. -/
  distinct : ∀ {a a' b b' : SymbolId}, ids a a' → ids b b' → (a = b ↔ a' = b')
  label : ∀ {id id' : SymbolId}, ids id id' → left.symbols.label id = right.symbols.label id'
  mayBind : ∀ {id id' : SymbolId}, ids id id' → left.bound id ∧ right.bound id'
  /-- Functions that are made at the same time correspond. -/
  made : ∀ serial, identities ⟨left.owner, serial⟩ ⟨right.owner, serial⟩
  /-- Identities correspond one to one. -/
  faithful : ∀ {a a' b b' : Identity}, identities a a' → identities b b' → (a = b ↔ a' = b')

/-- Whether a fault can be that of a node. A symbol without a binding is blamed under its
own name, and only a list without elements is an empty one. -/
def EvalFault.Fits (symbols : SymbolTable) (node : Element) : EvalFault → Prop
  | .undefinedSymbol name => ∃ id span, node = .symbol id span ∧ symbols.label id = name
  | .emptyList => ∃ bracket span, node = .list bracket [] span
  | _ => True

/-- Any node may be blamed for what a call finds. -/
theorem EvalFault.IsOfCall.fits {fault : EvalFault} (h : fault.IsOfCall) (symbols : SymbolTable)
    (node : Element) : fault.Fits symbols node := by
  cases fault with
  | undefinedSymbol name => exact h.elim
  | emptyList => exact h.elim
  | _ => trivial

namespace Correspondence

/-- Elements that correspond node by node. -/
abbrev Code (τ : Correspondence) : Element → Element → Prop :=
  Element.Alike τ.nodes

/-- Values may differ in the numbers, identities and places that correspond. A fault is
the same on both sides, and nodes that correspond are to blame for it. -/
def like (τ : Correspondence) : Likeness where
  spans p q := ∃ node node', τ.nodes node node' ∧ node.span = p ∧ node'.span = q
  identities := τ.identities
  functions f g := List.Forall₂ τ.ids f.parameters g.parameters ∧ τ.Code f.body g.body
  errors e e' := e.value = e'.value ∧ ∃ node node', τ.nodes node node' ∧
    node.span = e.span ∧ node'.span = e'.span ∧ e.value.Fits τ.left.symbols node
  faithful := τ.faithful
  blame hcall hspan := by
    obtain ⟨node, node', hnode, hp, hq⟩ := hspan
    exact ⟨rfl, node, node', hnode, hp, hq, hcall.fits _ node⟩

variable {τ : Correspondence}

theorem spans_of_code {e e' : Element} (h : τ.Code e e') : τ.like.spans e.span e'.span :=
  ⟨e, e', h.node, rfl, rfl⟩

/-- Elements that correspond match. -/
theorem match_of_code {e e' : Element} (h : τ.Code e e') : e.Match τ.like τ.Code e' := by
  have hspan := spans_of_code h
  cases h with
  | list bracket _ parts => exact .list bracket parts hspan
  | int value _ => exact .int value hspan
  | float value _ => exact .float value hspan
  | string content _ => exact .string content hspan
  | symbol id id' _ => exact .symbol id id' hspan

theorem ids_of_symbol? {e e' : Element} (h : τ.Code e e') {id id' : SymbolId}
    (hid : e.symbol? = some id) (hid' : e'.symbol? = some id') : τ.ids id id' := by
  cases h with
  | symbol _ _ node =>
    cases hid
    cases hid'
    exact τ.symbol node
  | _ => cases hid

theorem ids_of_target? {e e' : Element} (h : τ.Code e e') {id id' : SymbolId}
    (hid : e.target? = some id) (hid' : e'.target? = some id') : τ.ids id id' := by
  cases h with
  | list bracket _ parts =>
    cases parts with
    | nil => cases hid
    | cons _ hothers =>
      cases hothers with
      | nil => cases hid
      | cons hsecond _ => exact ids_of_symbol? hsecond hid hid'
  | _ => cases hid

/-- Parameters correspond one by one. -/
theorem ids_of_parameters {list list' : List Element} (h : List.Forall₂ τ.Code list list')
    {ids ids' : List SymbolId} (hids : Element.parameters list = .ok ids)
    (hids' : Element.parameters list' = .ok ids') : List.Forall₂ τ.ids ids ids' := by
  induction h generalizing ids ids' with
  | nil =>
    cases hids
    cases hids'
    exact .nil
  | @cons e e' others others' hfirst _ ih =>
    cases hfirst with
    | symbol id id' node =>
      obtain ⟨rest, hrest, rfl⟩ := Element.parameters_symbol_cons hids
      obtain ⟨rest', hrest', rfl⟩ := Element.parameters_symbol_cons hids'
      exact .cons (τ.symbol node) (ih hrest hrest')
    | _ => cases hids

/-- Values stay alike under a correspondence that relates more. -/
theorem like_mono {τ' : Correspondence} {v w : Value H} (h : v.Like τ.like w)
    (hids : ∀ id id', τ.ids id id' → τ'.ids id id')
    (hnodes : ∀ e e', τ.nodes e e' → τ'.nodes e e')
    (hidentities : ∀ a b, τ.identities a b → τ'.identities a b) : v.Like τ'.like w := by
  cases h with
  | nil => exact .nil
  | bool value => exact .bool value
  | int value => exact .int value
  | float value => exact .float value
  | string content => exact .string content
  | function identity arity code =>
    exact .function (hidentities _ _ identity) arity ⟨code.1.imp hids, code.2.mono hnodes⟩
  | native entry identity name left right =>
    exact .native entry (hidentities _ _ identity) name left right

end Correspondence

/-! ### Scopes -/

/-- Things that are related, if there are any, may be related otherwise. -/
theorem optionRel_imp {α β : Type} {R S : α → β → Prop} {x : Option α} {y : Option β}
    (h : Option.Rel R x y) (hRS : ∀ a b, x = some a → R a b → S a b) : Option.Rel S x y := by
  cases h with
  | some h => exact .some (hRS _ _ rfl h)
  | none => exact .none

namespace Dictionary

variable {α β : Type} {ids : SymbolId → SymbolId → Prop} {R : α → β → Prop}

/-- Scopes that bind corresponding symbols to related things, or bind neither of them. -/
def Corresponds (ids : SymbolId → SymbolId → Prop) (R : α → β → Prop) (s : Scope α)
    (t : Scope β) : Prop :=
  ∀ ⦃id id' : SymbolId⦄, ids id id' → Option.Rel R (s.get? id) (t.get? id')

theorem Corresponds.empty : Corresponds ids R (empty : Scope α) (empty : Scope β) :=
  fun _ _ _ => .none

theorem Corresponds.set {s : Scope α} {t : Scope β} (h : s.Corresponds ids R t)
    (hdistinct : ∀ {a a' b b' : SymbolId}, ids a a' → ids b b' → (a = b ↔ a' = b'))
    {id id' : SymbolId} (hid : ids id id') {a : α} {b : β} (hab : R a b) :
    (s.set id a).Corresponds ids R (t.set id' b) := by
  intro other other' hother
  rw [get?_set, get?_set]
  by_cases heq : other = id
  · rw [if_pos heq, if_pos ((hdistinct hother hid).1 heq)]
    exact .some hab
  · rw [if_neg heq, if_neg fun heq' => heq ((hdistinct hother hid).2 heq')]
    exact h hother

/-- Corresponding parameters may be bound to related things. -/
theorem Corresponds.setAll_zip {s : Scope α} {t : Scope β} (h : s.Corresponds ids R t)
    (hdistinct : ∀ {a a' b b' : SymbolId}, ids a a' → ids b b' → (a = b ↔ a' = b'))
    {list list' : List SymbolId} (hids : List.Forall₂ ids list list') {as : List α} {bs : List β}
    (hab : List.Forall₂ R as bs) :
    (s.setAll (list.zip as)).Corresponds ids R (t.setAll (list'.zip bs)) := by
  induction hids generalizing s t as bs with
  | nil => exact h
  | cons hid _ ih =>
    cases hab with
    | nil => exact h
    | cons hfirst hothers => exact ih (h.set hdistinct hid hfirst) hothers

end Dictionary

/-! ### Environments -/

namespace Environment

/-- Whether an environment is one of a side. -/
structure OnSide (side : Side) (env : Environment H) : Prop where
  symbols : env.symbols = side.symbols
  owner : env.owner = side.owner
  natives : env.natives = side.natives
  bound : env.AllBound fun id _ => side.bound id

namespace OnSide

variable {side : Side} {env : Environment H}

theorem set (h : env.OnSide side) {id : SymbolId} (hid : side.bound id) (target : ScopeId)
    (value : Value H) : (env.set target id value).OnSide side where
  symbols := by rw [symbols_set, h.symbols]
  owner := by rw [owner_set, h.owner]
  natives := by rw [natives_set, h.natives]
  bound := AllBound.set h.bound (P := fun id _ => side.bound id) hid target

theorem newFunction (h : env.OnSide side) (parameters : List SymbolId) (body : Element) :
    (env.newFunction parameters body).2.OnSide side :=
  ⟨h.symbols, h.owner, h.natives, h.bound.of_scope_eq (env.scope_newFunction parameters body)⟩

theorem openScope (h : env.OnSide side) {ids : List SymbolId} (hids : ∀ id ∈ ids, side.bound id)
    (values : List (Value H)) :
    (env.openScope (Dictionary.empty.setAll (ids.zip values))).2.OnSide side :=
  ⟨h.symbols, h.owner, h.natives,
    h.bound.openScope fun _ hbinding => hids _ (List.of_mem_zip hbinding).1⟩

theorem closeScope (h : env.OnSide side) : env.closeScope.OnSide side :=
  ⟨h.symbols, h.owner, h.natives, h.bound.closeScope⟩

end OnSide

/-- Environments of the two sides of a correspondence that bind corresponding symbols to
like values, in every scope. -/
structure Corresponds (τ : Correspondence) (env env' : Environment H) : Prop where
  left : env.OnSide τ.left
  right : env'.OnSide τ.right
  functions : env.functions = env'.functions
  size : env.locals.size = env'.locals.size
  scopes : ∀ scope, (env.scope scope).Corresponds τ.ids (Value.Like τ.like) (env'.scope scope)

namespace Corresponds

variable {τ : Correspondence} {env env' : Environment H}

/-- Corresponding symbols mean like values, or have no binding on either side. -/
theorem get? (h : env.Corresponds τ env') (scope : ScopeId) {id id' : SymbolId}
    (hid : τ.ids id id') :
    Option.Rel (Value.Like τ.like) (env.get? scope id) (env'.get? scope id') := by
  have hscope := h.scopes scope hid
  have hroot := h.scopes .root hid
  unfold Environment.get?
  generalize (env.scope scope).get? id = found at hscope
  generalize (env'.scope scope).get? id' = found' at hscope
  cases hscope with
  | some hvalue => exact .some hvalue
  | none =>
    -- Behind a local scope there is the root, and behind the root nothing.
    cases scope with
    | root => exact .none
    | inner index => exact hroot

theorem isOpen_iff (h : env.Corresponds τ env') (scope : ScopeId) :
    env.IsOpen scope ↔ env'.IsOpen scope := by
  cases scope with
  | root => exact Iff.rfl
  | inner index => simp only [IsOpen, h.size]

/-- Corresponding symbols may be bound to like values. -/
theorem set (h : env.Corresponds τ env') {id id' : SymbolId} (hid : τ.ids id id')
    {v w : Value H} (hvalue : v.Like τ.like w) (target : ScopeId) :
    (env.set target id v).Corresponds τ (env'.set target id' w) where
  left := h.left.set (τ.mayBind hid).1 target v
  right := h.right.set (τ.mayBind hid).2 target w
  functions := by rw [functions_set, functions_set, h.functions]
  size := by rw [size_locals_set, size_locals_set, h.size]
  scopes := by
    intro scope
    by_cases hopen : env.IsOpen target
    · by_cases hscope : scope = target
      · subst hscope
        rw [scope_set_self hopen, scope_set_self ((h.isOpen_iff scope).1 hopen)]
        exact (h.scopes scope).set τ.distinct hid hvalue
      · rw [scope_set_of_ne hscope, scope_set_of_ne hscope]
        exact h.scopes scope
    · rw [scope_set_of_not_isOpen hopen,
        scope_set_of_not_isOpen fun hopen' => hopen ((h.isOpen_iff target).2 hopen')]
      exact h.scopes scope

/-- Functions of corresponding code are like values. -/
theorem newFunction (h : env.Corresponds τ env') {ids ids' : List SymbolId}
    (hids : List.Forall₂ τ.ids ids ids') {body body' : Element} (hbody : τ.Code body body') :
    (Value.function (env.newFunction ids body).1 : Value H).Like τ.like
        (.function (env'.newFunction ids' body').1) ∧
      (env.newFunction ids body).2.Corresponds τ (env'.newFunction ids' body').2 := by
  constructor
  · refine .function ?_ hids.length_eq ⟨hids, hbody⟩
    show τ.identities ⟨env.owner, env.functions⟩ ⟨env'.owner, env'.functions⟩
    rw [h.left.owner, h.right.owner, h.functions]
    exact τ.made _
  · exact {
      left := h.left.newFunction ids body
      right := h.right.newFunction ids' body'
      functions := congrArg (· + 1) h.functions
      size := h.size
      scopes := by
        intro scope
        rw [scope_newFunction, scope_newFunction]
        exact h.scopes scope }

/-- The scopes of a call correspond if parameters and values do. -/
theorem openScope (h : env.Corresponds τ env') {ids ids' : List SymbolId}
    (hids : List.Forall₂ τ.ids ids ids') {values values' : List (Value H)}
    (hvalues : List.Forall₂ (Value.Like τ.like) values values') :
    (env.openScope (Dictionary.empty.setAll (ids.zip values))).2.Corresponds τ
      (env'.openScope (Dictionary.empty.setAll (ids'.zip values'))).2 where
  left := by
    refine h.left.openScope ?_ values
    exact ((List.forall₂_and_left _ _).1 (hids.imp fun _ _ hid => ⟨(τ.mayBind hid).1, hid⟩)).1
  right := by
    refine h.right.openScope ?_ values'
    have hflip : List.Forall₂ (flip τ.ids) ids' ids := hids.flip
    exact ((List.forall₂_and_left _ _).1 (hflip.imp fun _ _ hid => ⟨(τ.mayBind hid).2, hid⟩)).1
  functions := h.functions
  size := by simp [Environment.openScope, h.size]
  scopes := by
    intro scope
    -- As many scopes were open on both sides, so the new ones have the same place.
    by_cases hscope : scope = .inner env.locals.size
    · have hscope' : scope = .inner env'.locals.size := by rw [hscope, h.size]
      have hleft := scope_openScope_self env (Dictionary.empty.setAll (ids.zip values))
      have hright := scope_openScope_self env' (Dictionary.empty.setAll (ids'.zip values'))
      rw [show (env.openScope _).1 = scope from hscope.symm] at hleft
      rw [show (env'.openScope _).1 = scope from hscope'.symm] at hright
      rw [hleft, hright]
      exact Dictionary.Corresponds.empty.setAll_zip τ.distinct hids hvalues
    · rw [scope_openScope_of_ne hscope, scope_openScope_of_ne fun hscope' => hscope ?_]
      · exact h.scopes scope
      · rw [hscope', h.size]
        rfl

/-- The scopes that were opened last may be closed. -/
theorem closeScope (h : env.Corresponds τ env') : env.closeScope.Corresponds τ env'.closeScope where
  left := h.left.closeScope
  right := h.right.closeScope
  functions := h.functions
  size := by simp [Environment.closeScope, h.size]
  scopes := by
    intro scope
    by_cases hscope : scope = .inner (env.locals.size - 1)
    · subst hscope
      rw [scope_closeScope_last, h.size, scope_closeScope_last]
      exact .empty
    · rw [scope_closeScope_of_ne hscope, scope_closeScope_of_ne (h.size ▸ hscope)]
      exact h.scopes scope

end Corresponds

end Environment

/-! ### Evaluation -/

/-- Two evaluations in corresponding environments, which have the same fuel. -/
def Coupling.along (τ : Correspondence) : Coupling H where
  like := τ.like
  env := Environment.Corresponds τ
  lockstep := True

/-- Evaluations that do alike with corresponding code do so at every step. -/
theorem Bridge.along {τ : Correspondence} {evaluate evaluate' : Evaluator H}
    (heval : ∀ {e e' : Element}, τ.Code e e' → ∀ scope,
      (Coupling.along τ).Sim (Value.Like τ.like) (evaluate e scope) (evaluate' e' scope))
    (scope : ScopeId) :
    Bridge (Coupling.along τ) τ.Code evaluate evaluate' scope scope where
  shape hcode := Correspondence.match_of_code hcode
  element hcode := heval hcode scope
  lookup := by
    intro id id' p q hcode env env' henv
    have hid : τ.ids id id' := τ.symbol hcode.node
    have hget := henv.get? scope hid
    rw [Eval.apply_lookup, Eval.apply_lookup]
    generalize env.get? scope id = found at hget
    generalize env'.get? scope id' = found' at hget
    cases hget with
    | some hvalue => exact .ok hvalue henv
    | none =>
      -- The name is the same on both sides, whatever the numbers are.
      have hlabel : env.symbols.label id = env'.symbols.label id' := by
        rw [henv.left.symbols, henv.right.symbols]
        exact τ.label hid
      refine .fault ⟨congrArg EvalFault.undefinedSymbol hlabel, _, _, hcode.node, rfl, rfl, ?_⟩ henv
      exact ⟨id, p, rfl, by rw [henv.left.symbols]⟩
  empty hcode := ⟨rfl, _, _, hcode.node, rfl, rfl, _, _, rfl⟩
  assign := by
    intro e e' id id' v w hcode hid hid' hvalue env env' henv
    exact .ok trivial (henv.set (Correspondence.ids_of_target? hcode hid hid') hvalue scope)
  closure := by
    intro list list' ids ids' body body' hlist hids hids' hbody env env' henv
    obtain ⟨hfunction, hafter⟩ :=
      henv.newFunction (Correspondence.ids_of_parameters hlist hids hids') hbody
    exact .ok hfunction hafter
  enter := by
    intro f g values values' hf hvalues env env' henv
    cases hf with
    | function _ _ code =>
      obtain ⟨hids, hbody⟩ := code
      have hopen := henv.openScope hids hvalues
      have hrun := heval hbody (.inner env.locals.size) hopen
      -- As many scopes are open on both sides, so the bodies run in scopes of one place.
      have hscope : (env'.openScope (Dictionary.empty.setAll (g.parameters.zip values'))).1 =
          .inner env.locals.size := by
        rw [henv.size]
        rfl
      rw [Function.enter, Function.enter, Eval.apply_inNewScope, Eval.apply_inNewScope, hscope]
      exact hrun.change fun _ _ hafter => hafter.closeScope

/-- Corresponding code does the same in corresponding environments. -/
theorem sim_alike [Host H] {τ : Correspondence} (fuel : Nat) {e e' : Element} (h : τ.Code e e')
    (scope : ScopeId) :
    (Coupling.along (H := H) τ).Sim (Value.Like τ.like) (eval fuel e scope)
      (eval fuel e' scope) := by
  induction fuel generalizing e e' scope with
  | zero => exact .outOfFuel fun _ => rfl
  | succ fuel ih =>
    exact (Bridge.along (fun hcode scope => ih hcode scope) scope).step
      ⟨Nat.le_refl fuel, fun _ => rfl⟩ h

/-- The bridge between two evaluations in corresponding environments. -/
theorem bridge_alike [Host H] (τ : Correspondence) (fuel : Nat) (scope : ScopeId) :
    Bridge (Coupling.along (H := H) τ) τ.Code (eval fuel) (eval fuel) scope scope :=
  .along (fun hcode scope => sim_alike fuel hcode scope) scope

/-! ### A session beside itself -/

/-- The correspondence of a session with itself, for code whose nodes are related by `nodes`
and, if they are symbols, have the same number. -/
def Correspondence.itself (nodes : Element → Element → Prop) (symbols : SymbolTable)
    (owner natives : Nat) : Correspondence where
  nodes e e' := nodes e e' ∧
    ∀ id id', e.symbol? = some id → e'.symbol? = some id' → id = id'
  ids := Eq
  identities := Eq
  left := ⟨symbols, owner, natives, fun _ => True⟩
  right := ⟨symbols, owner, natives, fun _ => True⟩
  symbol h := h.2 _ _ rfl rfl
  distinct ha hb := ha ▸ hb ▸ Iff.rfl
  label hid := congrArg symbols.label hid
  mayBind _ := ⟨trivial, trivial⟩
  made _ := rfl
  faithful := @Likeness.exact.faithful

section

variable {nodes nodes' : Element → Element → Prop}

/-- Code is like itself if its nodes are related to themselves. -/
theorem Correspondence.code_itself {symbols : SymbolTable} {owner natives : Nat}
    (element : Element) (h : ∀ node ∈ element.nodes, nodes node node) :
    (Correspondence.itself nodes symbols owner natives).Code element element :=
  element.alike_self fun node hnode =>
    ⟨h node hnode, fun _ _ hid hid' => Option.some.inj (hid.symm.trans hid')⟩

/-- A host-free environment corresponds to itself if the nodes of all functions in it are
related to themselves. -/
theorem Environment.corresponds_itself {env : Environment H} (hfree : env.HostFree)
    (hcode : env.AllBound fun _ value =>
      ∀ f, value = .function f → ∀ node ∈ f.body.nodes, nodes node node) :
    env.Corresponds (.itself nodes env.symbols env.owner env.natives) env where
  left := ⟨rfl, rfl, rfl, fun _ _ _ _ => trivial⟩
  right := ⟨rfl, rfl, rfl, fun _ _ _ _ => trivial⟩
  functions := rfl
  size := rfl
  scopes := by
    rintro scope id _ rfl
    cases hfound : (env.scope scope).get? id with
    | none => exact .none
    | some value =>
      have hvalue := hfree scope id value hfound
      refine .some ?_
      cases value with
      | nil => exact .nil
      | bool value => exact .bool value
      | int value => exact .int value
      | float value => exact .float value
      | string content => exact .string content
      | function f =>
        exact .function rfl rfl ⟨List.forall₂_same.2 fun _ _ => rfl,
          Correspondence.code_itself f.body (hcode scope id _ hfound f rfl)⟩
      | native n =>
        obtain ⟨entry, hentry⟩ := hvalue
        exact .native entry rfl rfl hentry hentry

/-- A session may get more symbols and natives, and more nodes may be related. -/
theorem Environment.Corresponds.itself_mono {env : Environment H}
    (h : env.Corresponds (.itself nodes env.symbols env.owner env.natives) env)
    (hnodes : ∀ e e', nodes e e' → nodes' e e') (later : SymbolTable) (natives : Nat) :
    Corresponds (.itself nodes' later env.owner natives)
      { env with symbols := later, natives := natives }
      { env with symbols := later, natives := natives } where
  left := ⟨rfl, rfl, rfl, fun _ _ _ _ => trivial⟩
  right := ⟨rfl, rfl, rfl, fun _ _ _ _ => trivial⟩
  functions := rfl
  size := rfl
  scopes := by
    rintro scope id _ rfl
    rw [env.scope_with later natives scope]
    refine optionRel_imp (h.scopes scope rfl) fun _ _ _ hvalue =>
      Correspondence.like_mono hvalue (fun _ _ hid => hid) ?_ fun _ _ hidentity => hidentity
    exact fun e e' hnode => ⟨hnodes e e' hnode.1, hnode.2⟩

end

end BracketLisp
