import BracketLisp.Eval.Element
import BracketLisp.Proofs.Environment.Scopes
import BracketLisp.Proofs.Symbol.Table

/-!
# `BracketLisp.Proofs.Environment.Catalog`: the names of a new session

A new session binds the names of the constants to their values and each name of the catalog to its
entry. The names are distinct, so no binding hides another.

* `Environment.Binds` is about names, whatever their numbers are. `binds_define` and `Binds.define`
  say what one definition does, and `binds_full` and `offers_full` what they come to.
* `numberOf` is the number of a name (`lookup_numberOf`, `eq_numberOf_of_lookup`). By
  `eval_constant` and `eval_entry`, the symbol with this number has the value of the name.
-/

set_option autoImplicit false

namespace BracketLisp

variable {H : Type}

namespace Environment

/-! ### Names and their values -/

/-- Whether a name is bound to a value in the root. -/
def Binds (env : Environment H) (name : String) (value : Value H) : Prop :=
  ∃ id, env.symbols.lookup name = some id ∧ env.get? .root id = some value

/-- Whether a name is bound in the root to a native that is an entry of the catalog. -/
def Offers (env : Environment H) (name : String) (entry : Builtin) : Prop :=
  ∃ native : Native H, env.Binds name (.native native) ∧ native.action = .catalog entry

/-- A definition binds the number of its name. -/
theorem get?_define (env : Environment H) (name : String) (value : Value H) (id : SymbolId) :
    (env.define name value).2.get? .root id =
      if id = (env.symbols.intern name).1 then some value else env.get? .root id := by
  have hopen : (env.intern name).2.IsOpen .root := trivial
  rw [get?_root, get?_root, define, scope_set_self hopen, Dictionary.get?_set]
  rfl

/-- A definition binds its name. -/
theorem binds_define (env : Environment H) (name : String) (value : Value H) :
    (env.define name value).2.Binds name value := by
  refine ⟨(env.symbols.intern name).1, env.symbols.lookup_intern name, ?_⟩
  rw [get?_define]
  exact if_pos rfl

/-- A definition of another name leaves a binding as it is. -/
theorem Binds.define {env : Environment H} {name other : String} {value : Value H}
    (h : env.Binds name value) (hne : name ≠ other) (value' : Value H) :
    (env.define other value').2.Binds name value := by
  obtain ⟨id, hlookup, hget⟩ := h
  have hlater : (env.symbols.intern other).2.lookup name = some id :=
    SymbolTable.lookup_of_names (env.symbols.prefix_intern other) hlookup
  refine ⟨id, hlater, ?_⟩
  rw [get?_define, if_neg, hget]
  rintro rfl
  have hname := SymbolTable.lookup_eq_some_iff.1 hlater
  rw [SymbolTable.nameOf_intern, Except.ok.injEq] at hname
  exact hne hname.symm

/-- Takes up entries under names, in order. -/
def registerAll (env : Environment H) (entries : List (String × Builtin)) : Environment H :=
  entries.foldl (fun env pair => (env.register pair.1 (.catalog pair.2)).2) env

/-- Entries under other names leave a binding as it is. -/
theorem Binds.registerAll {env : Environment H} {name : String} {value : Value H}
    {entries : List (String × Builtin)} (h : env.Binds name value)
    (hname : name ∉ entries.map Prod.fst) : (env.registerAll entries).Binds name value := by
  refine List.foldlRecOn entries _ (motive := fun later => Binds later name value) h
    fun later hlater pair hpair => ?_
  have hne : name ≠ pair.1 := fun heq => hname (heq ▸ List.mem_map_of_mem hpair)
  have hcounted : Binds { later with natives := later.natives + 1 } name value := hlater
  exact hcounted.define hne _

/-- Entries under distinct names are all offered once they are registered. -/
theorem offers_registerAll {entries : List (String × Builtin)}
    (hnames : (entries.map Prod.fst).Nodup) (env : Environment H) :
    ∀ pair ∈ entries, (env.registerAll entries).Offers pair.1 pair.2 := by
  induction entries generalizing env with
  | nil => exact List.forall_mem_nil _
  | cons first others ih =>
    rw [List.map_cons, List.nodup_cons] at hnames
    -- The others have other names, so the first stays offered.
    have hfirst := binds_define { env with natives := env.natives + 1 } first.1
      (.native ⟨⟨env.owner, env.natives⟩, first.1, .catalog first.2⟩)
    exact List.forall_mem_cons.2
      ⟨⟨_, hfirst.registerAll hnames.1, rfl⟩, ih hnames.2 (env.register first.1 _).2⟩

/-! ### A new session -/

/-- A new session offers the catalog. -/
theorem offers_full (owner : Nat) {name : String} {entry : Builtin}
    (h : (name, entry) ∈ catalog) : (full owner : Environment H).Offers name entry :=
  offers_registerAll (by decide) _ (name, entry) h

/-- A new session binds the constants. -/
theorem binds_full (owner : Nat) {name : String} {value : Value H}
    (h : (name, value) ∈ (constants : List (String × Value H))) :
    (full owner : Environment H).Binds name value := by
  have hfirst : ∀ pair ∈ (constants : List (String × Value H)),
      (constants.foldl (fun env pair => (env.define pair.1 pair.2).2)
        (bare owner : Environment H)).Binds pair.1 pair.2 :=
    List.forall_mem_cons.2 ⟨⟨_, rfl, rfl⟩, List.forall_mem_cons.2 ⟨⟨_, rfl, rfl⟩,
      List.forall_mem_singleton.2 ⟨_, rfl, rfl⟩⟩⟩
  have hnames : ∀ name ∈ (constants : List (String × Value H)).map Prod.fst,
      name ∉ catalog.map Prod.fst := by
    show ∀ name ∈ ["true", "false", "nil"], name ∉ catalog.map Prod.fst
    decide
  exact (hfirst _ h).registerAll (hnames name (List.mem_map_of_mem h))

end Environment

/-! ### Names and their numbers -/

/-- The names of a new session, in the order of their numbers. -/
def catalogNames : List String :=
  ["true", "false", "nil"] ++ catalog.map Prod.fst

/-- The number of a name in a session that has met no names after those of the catalog but the
given ones. -/
def numberOf (met : List String) (name : String) : SymbolId :=
  ⟨(catalogNames ++ met).idxOf name⟩

theorem symbols_full (owner : Nat) :
    (Environment.full owner : Environment H).symbols = .ofNames catalogNames :=
  rfl

/-- A session that meets new names, all different, gives them the numbers behind the catalog. -/
theorem lookup_numberOf (owner : Nat) {met : List String} {name : String}
    (h : (catalogNames ++ met).Nodup) (hname : name ∈ catalogNames ++ met) :
    (met.foldl (fun table name => (table.intern name).2)
      (Environment.full owner : Environment H).symbols).lookup name = some (numberOf met name) := by
  rw [symbols_full, SymbolTable.ofNames, ← List.foldl_append]
  exact SymbolTable.lookup_ofNames h hname

/-- The names that a new session knows have the numbers that they have in the catalog. -/
theorem eq_numberOf_of_lookup (owner : Nat) (met : List String) {name : String} {id : SymbolId}
    (h : (Environment.full owner : Environment H).symbols.lookup name = some id) :
    id = numberOf met name := by
  have hnodup : catalogNames.Nodup := by decide
  have hname : name ∈ catalogNames := by
    rw [← SymbolTable.names_ofNames hnodup, ← symbols_full]
    exact SymbolTable.exists_lookup_iff.1 ⟨id, h⟩
  rw [symbols_full, SymbolTable.lookup_ofNames hnodup hname, Option.some.injEq] at h
  rw [← h, numberOf, List.idxOf_append_of_mem hname]

/-- What a new session binds a name to is the value of its number. -/
theorem Environment.Binds.get?_numberOf {owner : Nat} {name : String} {value : Value H}
    (h : (Environment.full owner : Environment H).Binds name value) (met : List String) :
    (Environment.full owner).get? .root (numberOf met name) = some value := by
  obtain ⟨id, hlookup, hget⟩ := h
  rw [← eq_numberOf_of_lookup owner met hlookup, hget]

variable [Host H]

/-- The symbol of a constant has its value in a new session. -/
theorem eval_constant (fuel owner : Nat) (met : List String) {name : String} {value : Value H}
    (h : (name, value) ∈ (Environment.constants : List (String × Value H))) (span : Position) :
    (eval (fuel + 1) (.symbol (numberOf met name) span) .root).apply (.full owner) =
      (.ok value, .full owner) :=
  have hget := (Environment.binds_full owner h).get?_numberOf met
  Element.apply_step_symbol fuel (eval fuel) hget span

/-- The symbol of an entry of the catalog has it as its value in a new session. -/
theorem eval_entry (fuel owner : Nat) (met : List String) {name : String} {entry : Builtin}
    (h : (name, entry) ∈ catalog) (span : Position) :
    ∃ native : Native H, native.action = .catalog entry ∧
      (eval (fuel + 1) (.symbol (numberOf met name) span) .root).apply (.full owner) =
        (.ok (.native native), .full owner) := by
  obtain ⟨native, hbinds, haction⟩ := Environment.offers_full (H := H) owner h
  exact ⟨native, haction,
    Element.apply_step_symbol fuel (eval fuel) (hbinds.get?_numberOf met) span⟩

/-- Where a symbol means `set`, a call of it binds its target to the value of its second
argument. -/
theorem eval_set (fuel : Nat) {scope : ScopeId} {env mid : Environment H} {native : Native H}
    {head id : SymbolId} {target element : Element} {value : Value H}
    (hhead : env.get? scope head = some (.native native))
    (haction : native.action = .catalog (.form .assign)) (htarget : target.symbol? = some id)
    (hvalue : (eval (fuel + 1) element scope).apply env = (.ok value, mid)) (bracket : Bracket)
    (place span : Position) :
    (eval (fuel + 2) (.list bracket [.symbol head place, target, element] span) scope).apply env =
      (.ok value, mid.set scope id value) := by
  let call : Call := ⟨bracket, .symbol head place, [target, element], span⟩
  have hcall : (eval (fuel + 2) call.form.element scope).apply env =
      (call.assign (eval (fuel + 1)) scope).apply env :=
    Call.apply_entry (fuel + 1) haction (Element.apply_step_symbol fuel (eval fuel) hhead place)
  refine hcall.trans ?_
  simp only [Call.assign, call, htarget, Eval.apply_bind, hvalue, Eval.apply_assign,
    Eval.apply_pure]

end BracketLisp
