import BracketLisp.Proofs.Environment.Scopes
import BracketLisp.Proofs.Symbol.Table

/-!
# `BracketLisp.Proofs.Environment.LastBinding`: what a scope binds a symbol to

Any number of scopes may be opened, read and bound through each other. What a scope binds a
symbol to in the end is told by the latest binding alone that was made in it. A native that is
registered is bound in the root, through whichever scope it is registered.

`latest?` reads this off a log of requests, without an environment. `scope_of_logged` finds
the same in every scope: the induction is on the log, and it is made for any table that goes
on from that of the environment, because names keep their numbers while others are added.
-/

set_option autoImplicit false

namespace BracketLisp

variable {H : Type}

/-- What can be done through a scope of an environment. -/
inductive ScopeRequest (H : Type) where
  /-- Opens a new local scope. -/
  | child (through : ScopeId)
  | set (through : ScopeId) (id : SymbolId) (value : Value H)
  | get (through : ScopeId) (id : SymbolId)
  | intern (through : ScopeId) (name : String)
  /-- Makes a native and binds it to a name. -/
  | register (through : ScopeId) (name : String) (action : Action H)
  /-- Binds a native that there is to a name. -/
  | registerAgain (through : ScopeId) (name : String) (native : Native H)

namespace ScopeRequest

/-- The scope that the request is made through. -/
def through : ScopeRequest H → ScopeId
  | child through | set through _ _ | get through _ | intern through _
  | register through _ _ | registerAgain through _ _ => through

/-- Whether a symbol is bound, and no name registered. -/
def isSet : ScopeRequest H → Bool
  | set _ _ _ => true
  | _ => false

/-- Whether a native is made. -/
def isRegister : ScopeRequest H → Bool
  | register _ _ _ => true
  | _ => false

/-- Does what is asked. -/
def perform (request : ScopeRequest H) (env : Environment H) : Environment H :=
  match request with
  | child _ => (env.openScope .empty).2
  | set through id value => env.set through id value
  | get _ _ => env
  | intern _ name => (env.intern name).2
  | register _ name action => (env.register name action).2
  | registerAgain _ name native => (env.registerAgain name native).2

/-- What the request binds a symbol to in a scope, if it binds it there. Names have the
numbers of `table`, and a native that is made is told apart by `identity`. -/
def binding? (table : SymbolTable) (identity : Identity) (scope : ScopeId) (id : SymbolId) :
    ScopeRequest H → Option (Value H)
  | set through other value => if through = scope ∧ other = id then some value else none
  | register _ name action =>
    if scope = .root ∧ table.lookup name = some id then
      some (.native ⟨identity, name, action⟩)
    else
      none
  | registerAgain _ name native =>
    if scope = .root ∧ table.lookup name = some id then
      some (.native { native with name })
    else
      none
  | _ => none

/-- The latest binding of a symbol in a scope, in a log that has the latest request first.
The natives of `owner` are counted from zero. -/
def latest? (table : SymbolTable) (owner : Nat) (scope : ScopeId) (id : SymbolId) :
    List (ScopeRequest H) → Option (Value H)
  | [] => none
  | request :: earlier =>
    (request.binding? table ⟨owner, earlier.countP isRegister⟩ scope id).or
      (latest? table owner scope id earlier)

end ScopeRequest

open ScopeRequest (latest?)

/-- Whether requests lead from an environment to another, each through a scope that is open.
The latest comes first. -/
inductive Logged (start : Environment H) : List (ScopeRequest H) → Environment H → Prop where
  | nil : Logged start [] start
  | cons {log : List (ScopeRequest H)} {env : Environment H} (h : Logged start log env)
      (request : ScopeRequest H) (hopen : env.IsOpen request.through) :
      Logged start (request :: log) (request.perform env)

/-- The environment of a root that has just been made, for symbols that there may be. -/
def Environment.around (owner : Nat) (symbols : SymbolTable) : Environment H :=
  { Environment.bare owner with symbols := symbols }

namespace Environment

/-- Binding a name in the root binds its number there, and nothing else. -/
theorem get?_scope_define {env : Environment H} {later : SymbolTable} {name : String}
    {value : Value H} (hlater : (env.define name value).2.symbols.names <+: later.names)
    (scope : ScopeId) (id : SymbolId) :
    ((env.define name value).2.scope scope).get? id =
      if scope = .root ∧ later.lookup name = some id then some value
      else (env.scope scope).get? id := by
  have hname : later.lookup name = some (env.symbols.intern name).1 :=
    SymbolTable.lookup_of_names hlater (env.symbols.lookup_intern name)
  cases scope with
  | inner index => rfl
  | root =>
    show (env.root.set (env.symbols.intern name).1 value).get? id = _
    rw [Dictionary.get?_set]
    by_cases hid : id = (env.symbols.intern name).1
    · rw [if_pos hid, if_pos ⟨rfl, hid ▸ hname⟩]
    · rw [if_neg hid, if_neg fun h => hid (Option.some.inj (h.2.symm.trans hname))]
      rfl

end Environment

namespace Logged

variable {owner : Nat} {symbols : SymbolTable} {start env after : Environment H}
  {log later : List (ScopeRequest H)}

/-- Names are only added. -/
theorem prefix_names (h : Logged start log env) : start.symbols.names <+: env.symbols.names := by
  induction h with
  | nil => exact List.prefix_rfl
  | @cons _ env _ request _ ih =>
    refine ih.trans ?_
    cases request with
    | child _ | get _ _ => exact List.prefix_rfl
    | set through id value => simp [ScopeRequest.perform]
    | intern _ name | register _ name _ | registerAgain _ name _ =>
      exact env.symbols.prefix_intern name

/-- The natives that are made are counted. -/
theorem count (h : Logged (.around owner symbols) log env) :
    env.owner = owner ∧ env.natives = log.countP ScopeRequest.isRegister := by
  induction h with
  | nil => exact ⟨rfl, rfl⟩
  | @cons _ _ _ request _ ih =>
    obtain ⟨howner, hnatives⟩ := ih
    cases request with
    | set through id value =>
      simp [ScopeRequest.perform, ScopeRequest.isRegister, howner, hnatives]
    | register _ name action =>
      refine ⟨howner, ?_⟩
      show _ + 1 = _
      rw [hnatives, List.countP_cons_of_pos rfl]
    | child _ | get _ _ | intern _ _ | registerAgain _ _ _ =>
      exact ⟨howner, hnatives.trans (List.countP_cons_of_neg Bool.false_ne_true).symm⟩

/-- Every scope binds a symbol to what it was bound to there last. -/
theorem scope_of_logged (h : Logged (.around owner symbols) log env) {table : SymbolTable}
    (htable : env.symbols.names <+: table.names) (scope : ScopeId) (id : SymbolId) :
    (env.scope scope).get? id = latest? table owner scope id log := by
  induction h generalizing scope id with
  | nil => cases scope <;> rfl
  | @cons log env h request hopen ih =>
    have hearlier := ih ((((Logged.nil).cons request hopen).prefix_names).trans htable)
    obtain ⟨rfl, hnatives⟩ := h.count
    rw [latest?, ← hearlier scope id]
    cases request with
    | get _ _ => rfl
    | intern _ name => cases scope <;> rfl
    | child _ =>
      simp only [ScopeRequest.perform, ScopeRequest.binding?, Option.none_or]
      by_cases hscope : scope = (env.openScope .empty).1
      · -- The new scope binds nothing, and before it was not there.
        subst hscope
        rw [Environment.scope_openScope_self]
        simp [Environment.openScope, Environment.scope]
      · rw [Environment.scope_openScope_of_ne hscope]
    | set through other value =>
      simp only [ScopeRequest.perform, ScopeRequest.binding?]
      by_cases hscope : through = scope
      · subst hscope
        have hopen' : env.IsOpen through := hopen
        rw [Environment.scope_set_self hopen', Dictionary.get?_set]
        by_cases hid : other = id
        · rw [if_pos hid.symm, if_pos ⟨rfl, hid⟩, Option.some_or]
        · rw [if_neg (Ne.symm hid), if_neg fun h => hid h.2, Option.none_or]
      · rw [Environment.scope_set_of_ne (Ne.symm hscope), if_neg fun h => hscope h.1,
          Option.none_or]
    | register _ name action =>
      rw [← hnatives]
      show ((Environment.define _ _ _).2.scope scope).get? id = _
      rw [Environment.get?_scope_define htable]
      simp only [ScopeRequest.binding?]
      split
      · rfl
      · cases scope <;> rfl
    | registerAgain _ name native =>
      show ((Environment.define _ _ _).2.scope scope).get? id = _
      rw [Environment.get?_scope_define htable]
      simp only [ScopeRequest.binding?]
      split <;> rfl

/-- Scopes share their symbols: names that are interned through whichever scopes, at whatever
moments, get the same number only if they are the same. -/
theorem intern_eq_iff {name other : String} (h : Logged (env.intern name).2 later after) :
    (after.intern other).1 = (env.intern name).1 ↔ other = name :=
  SymbolTable.intern_fst_eq_iff h.prefix_names

end Logged

end BracketLisp
