import BracketLisp.Proofs.Environment.Catalog
import BracketLisp.Proofs.Eval.Fuel
import BracketLisp.Proofs.Form.Nodes

/-!
# `BracketLisp.Proofs.Eval.Frame`: what an evaluation leaves as it was

An evaluation stands in one scope. It never changes the symbols or another scope, and in
its own scope it only adds bindings or replaces those of symbols that it names as targets.
A function that it calls runs in a scope of its own, which is gone afterwards, so calls
change no scope at all.

`Frame` states this of two environments. `sim_frame` carries it through an evaluation as
an invariant: `Frame.set` is the only step that changes a scope, and `Frame.enter` puts
the caller's frame back after a call.
-/

set_option autoImplicit false

namespace BracketLisp

variable {H : Type}

/-- What stays the same from `before` to `after` around an evaluation in `scope` that may
bind `targets`. -/
structure Frame (scope : ScopeId) (targets : List SymbolId)
    (before after : Environment H) : Prop where
  /-- No symbol gets a number. -/
  symbols : after.symbols = before.symbols
  /-- No scope stays open. -/
  size : after.locals.size = before.locals.size
  /-- No other scope changes. -/
  others : ∀ other, other ≠ scope → after.scope other = before.scope other
  /-- No binding goes away. -/
  kept : ∀ id, (before.scope scope).get? id ≠ none → (after.scope scope).get? id ≠ none
  /-- Only targets are bound to something else. -/
  changed : ∀ id, (after.scope scope).get? id ≠ (before.scope scope).get? id → id ∈ targets

namespace Frame

variable {scope : ScopeId} {targets : List SymbolId} {before env after : Environment H}

theorem refl (scope : ScopeId) (targets : List SymbolId) (env : Environment H) :
    Frame scope targets env env where
  symbols := rfl
  size := rfl
  others _ _ := rfl
  kept _ h := h
  changed _ h := absurd rfl h

/-- A frame does not see more of an environment than symbols and scopes. -/
theorem of_same (h : Frame scope targets before env) (hsymbols : after.symbols = env.symbols)
    (hsize : after.locals.size = env.locals.size)
    (hscope : ∀ scope, after.scope scope = env.scope scope) :
    Frame scope targets before after where
  symbols := hsymbols.trans h.symbols
  size := hsize.trans h.size
  others other hother := (hscope other).trans (h.others other hother)
  kept id hid := hscope scope ▸ h.kept id hid
  changed id hid := h.changed id (hscope scope ▸ hid)

/-- A target may be bound. -/
theorem set (h : Frame scope targets before env) {id : SymbolId} (hid : id ∈ targets)
    (value : Value H) : Frame scope targets before (env.set scope id value) where
  symbols := (env.symbols_set scope id value).trans h.symbols
  size := (env.size_locals_set scope id value).trans h.size
  others other hother :=
    (Environment.scope_set_of_ne hother env id value).trans (h.others other hother)
  kept other hother := by
    rcases env.scope_set_cases scope scope id value with hset | ⟨-, hset⟩
    · rw [hset]
      exact h.kept other hother
    · rw [hset, Dictionary.get?_set]
      split
      · simp
      · exact h.kept other hother
  changed other hother := by
    rcases env.scope_set_cases scope scope id value with hset | ⟨-, hset⟩
    · rw [hset] at hother
      exact h.changed other hother
    · rw [hset, Dictionary.get?_set] at hother
      split at hother
      next heq => exact heq ▸ hid
      next => exact h.changed other hother

/-- An evaluation in a new scope changes nothing that is left when the scope is closed. -/
theorem scope_closeScope {bindings : Scope (Value H)}
    (h : Frame (env.openScope bindings).1 targets (env.openScope bindings).2 after)
    (scope : ScopeId) : after.closeScope.scope scope = env.scope scope := by
  have hsize : after.locals.size - 1 = env.locals.size := by
    simp [h.size, Environment.openScope]
  by_cases hscope : scope = (env.openScope bindings).1
  · subst hscope
    -- The new scope is gone, and before it was not there yet.
    have hlast : (env.openScope bindings).1 = .inner (after.locals.size - 1) := by
      rw [hsize]
      rfl
    rw [hlast, Environment.scope_closeScope_last, hsize]
    simp [Environment.scope]
  · have hne : scope ≠ .inner (after.locals.size - 1) := by
      rw [hsize]
      exact hscope
    rw [Environment.scope_closeScope_of_ne hne, h.others scope hscope,
      Environment.scope_openScope_of_ne hscope]

/-- A call keeps the frame of the caller. -/
theorem enter (h : Frame scope targets before env) {bindings : Scope (Value H)}
    {inside : List SymbolId}
    (hcall : Frame (env.openScope bindings).1 inside (env.openScope bindings).2 after) :
    Frame scope targets before after.closeScope := by
  refine h.of_same hcall.symbols ?_ hcall.scope_closeScope
  simp [Environment.closeScope, hcall.size, Environment.openScope]

end Frame

/-! ### Evaluation -/

/-- Evaluation keeps the frame of its scope, whatever has happened before. -/
theorem sim_frame [Host H] (fuel : Nat) {element : Element} {scope : ScopeId}
    {targets : List SymbolId} (htargets : element.targets ⊆ targets) (before : Environment H) :
    (Coupling.single (Frame scope targets before) True).Sim (Value.Like .exact)
      (eval fuel element scope) (eval fuel element scope) := by
  -- A call is a run in a new scope, with a frame that begins where the scope is opened. So the
  -- hypothesis has to hold for any scope and any environment before.
  induction fuel generalizing element scope targets before with
  | zero => exact .outOfFuel fun _ => rfl
  | succ fuel ih =>
    have hbridge : Bridge (Coupling.single (Frame scope targets before) True)
        (fun e e' => e = e' ∧ e.targets ⊆ targets) (eval fuel) (eval fuel) scope scope := by
      refine .single ?_ ?_ ?_ ?_ ?_
      · intro bracket elements span hlist part hpart
        exact List.Subset.trans (Element.targets_subset_of_mem hpart) hlist
      · intro element helement
        exact ih helement before
      · intro element id value env helement hid henv
        exact henv.set (helement (Element.mem_targets_of_target? hid)) value
      · intro ids body env henv
        exact henv.of_same rfl rfl (env.scope_newFunction ids body)
      -- Whatever the body binds is gone with its scope.
      · rintro f values hvalues env _ ⟨rfl, hfree, henv⟩
        have hopened := hfree.openScope hvalues f.parameters
        have hbody := ih (List.Subset.refl f.body.targets) _
          ⟨rfl, hopened, .refl (.inner env.locals.size) _ _⟩
        exact hbody.change fun _ _ hafter => ⟨congrArg Environment.closeScope hafter.1,
          hafter.2.1.closeScope, henv.enter hafter.2.2⟩
    exact hbridge.step ⟨Nat.le_refl fuel, fun _ => rfl⟩ ⟨rfl, htargets⟩

/-- Evaluation leaves a host-free environment and keeps the frame of its scope, unless the
fuel ran out. -/
theorem frame_eval [Host H] (fuel : Nat) (element : Element) (scope : ScopeId)
    {before : Environment H} (hfree : before.HostFree)
    (hfuel : ((eval fuel element scope).apply before).1 ≠ .error .outOfFuel) :
    ((eval fuel element scope).apply before).2.HostFree ∧
      Frame scope element.targets before ((eval fuel element scope).apply before).2 :=
  ((sim_frame fuel (List.Subset.refl element.targets) before
    ⟨rfl, hfree, .refl scope _ _⟩).of_single hfuel).2

/-- An evaluation that ends leaves a host-free environment and the frame of its scope. -/
theorem Evaluates.frame [Host H] {element : Element} {scope : ScopeId}
    {before after : Environment H} {outcome : Except EvalError (Value H)}
    (hfree : before.HostFree) (h : Evaluates element scope before outcome after) :
    after.HostFree ∧ Frame scope element.targets before after := by
  obtain ⟨fuel, hfuel⟩ := h
  have hframe := frame_eval fuel element scope hfree
  rw [hfuel] at hframe
  exact hframe (mapError_fault_ne_outOfFuel outcome)

/-- A call of a function changes no symbol and no scope. -/
theorem Function.Returns.scope_eq [Host H] {function : Function} {values : List (Value H)}
    {before after : Environment H} {outcome : Except EvalError (Value H)}
    (hfree : before.HostFree) (hvalues : ∀ value ∈ values, value.HostFree)
    (h : function.Returns values before outcome after) :
    after.symbols = before.symbols ∧ ∀ scope, after.scope scope = before.scope scope := by
  obtain ⟨fuel, hfuel⟩ := h
  obtain ⟨hresult, rfl⟩ := Prod.mk.inj hfuel
  have hbody : ((eval fuel function.body (.inner before.locals.size)).apply
      (before.openScope (Dictionary.empty.setAll (function.parameters.zip values))).2).1 ≠
        .error .outOfFuel := by
    intro hout
    exact mapError_fault_ne_outOfFuel outcome (hresult.symm.trans hout)
  have hframe := (frame_eval fuel _ _ (hfree.openScope hvalues function.parameters) hbody).2
  exact ⟨hframe.symbols, hframe.scope_closeScope⟩

/-- An evaluation that ends, with a value or an error, leaves the frame of its scope: the
symbols and all other scopes are as before, no binding is gone, and only symbols that stand
directly after the head of a list may be bound to something else. The body of a function
is evaluated in a scope of its own, so a call leaves every scope as it was, the root and
those of all callers included. -/
theorem evaluation_frame [Host H] {before : Environment H} (hfree : before.HostFree) :
    (∀ element scope outcome after, Evaluates element scope before outcome after →
      Frame scope element.targets before after) ∧
    ∀ function values outcome after, (∀ value ∈ values, value.HostFree) →
      Function.Returns function values before outcome after →
      after.symbols = before.symbols ∧ ∀ scope, after.scope scope = before.scope scope :=
  ⟨fun _ _ _ _ h => (h.frame hfree).2, fun _ _ _ _ hvalues h => h.scope_eq hfree hvalues⟩

/-- A function that binds `y` in its own scope is bound to `f` in the root and called there. The
root keeps `f`, and `y` has no binding in it. Called by itself, the function leaves nothing behind
at all. -/
theorem evaluation_frame_call :
    let number := numberOf ["f", "x", "y"]
    ∃ (element : Element) (f : Function) (after later : Environment Empty),
      element.targets = [number "f", number "y"] ∧ f.body.targets = [number "y"] ∧
        Evaluates element .root (.full 0) (.ok (.int 1)) after ∧
        Frame .root element.targets (.full 0) after ∧
        (after.scope .root).get? (number "f") = some (.function f) ∧
        (after.scope .root).get? (number "y") = none ∧
        f.Returns [.int 2] (.full 0) (.ok (.int 2)) later ∧
        ∀ scope, later.scope scope = (Environment.full 0).scope scope := by
  intro number
  let place : Position := ⟨"t", 1, 1⟩
  let symbol (name : String) : Element := .symbol (number name) place
  let list (elements : List Element) : Element := .list .paren elements place
  let body := list [symbol "do", list [symbol "set", symbol "y", symbol "x"], symbol "y"]
  let binding := list [symbol "set", symbol "f", list [symbol "func", list [symbol "x"], body]]
  let element := list [symbol "do", binding, list [symbol "f", .int 1 place]]
  let f : Function := ⟨⟨0, 0⟩, [number "x"], body⟩
  have hframe := evaluation_frame (H := Empty) (Environment.hostFree_full 0)
  have h : Evaluates element .root (.full 0 : Environment Empty) (.ok (.int 1)) _ :=
    .of_apply 10 rfl
  have hcall : f.Returns [.int 2] (.full 0 : Environment Empty) (.ok (.int 2)) _ :=
    .of_apply 10 rfl
  have hvalues : ∀ value ∈ [(.int 2 : Value Empty)], value.HostFree :=
    List.forall_mem_singleton.2 trivial
  exact ⟨element, f, _, _, rfl, rfl, h, hframe.1 _ _ _ _ h, rfl, rfl, hcall,
    (hframe.2 _ _ _ _ hvalues hcall).2⟩

end BracketLisp
