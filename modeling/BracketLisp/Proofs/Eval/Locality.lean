import BracketLisp.Proofs.Eval.Frame

/-!
# `BracketLisp.Proofs.Eval.Locality`: locals are seen where they are written

A function is called with values and runs in a scope that has only the root behind it.
So a local binding shows to the code that stands in its scope, and to no function that
is called from there. Two evaluations beside each other make this precise: their
environments may differ in all local scopes, and the two scopes that the evaluations
stand in have to agree on the symbols that occur in the code.

* `Environment.SameRoot` is the part of a session that no local scope belongs to.
* `Environment.Beside` relates the environments of the two evaluations, and
  `Beside.get?`, `Beside.set`, `SameRoot.open` and `Beside.close` say what each step
  makes of that.
* `sim_beside` carries the relation through an evaluation, and `locals_stay_local`
  states the result.
-/

set_option autoImplicit false

namespace BracketLisp

variable {H : Type}

/-- Whether two scopes bind each of the symbols `ids` to the same thing, or both do not
bind it. -/
def Scope.AgreeOn {α : Type} (ids : List SymbolId) (s t : Scope α) : Prop :=
  ∀ id ∈ ids, s.get? id = t.get? id

namespace Environment

/-- Whether two environments are the same in all that is seen from the root: the symbols,
the root scope, and the count that new functions are told apart by. -/
structure SameRoot (a b : Environment H) : Prop where
  owner : a.owner = b.owner
  symbols : a.symbols = b.symbols
  root : a.root = b.root
  functions : a.functions = b.functions

theorem SameRoot.symm {a b : Environment H} (h : a.SameRoot b) : b.SameRoot a :=
  ⟨h.owner.symm, h.symbols.symm, h.root.symm, h.functions.symm⟩

/-- Scopes that are opened in one environment have one root. -/
theorem sameRoot_openScope (env : Environment H) (bindings bindings' : Scope (Value H)) :
    (env.openScope bindings).2.SameRoot (env.openScope bindings').2 :=
  ⟨rfl, rfl, rfl, rfl⟩

/-- The environments of two evaluations, in the local scopes `l` and `r`, of code with the
symbols `ids`. -/
structure Beside (ids : List SymbolId) (l r : Nat) (a b : Environment H) : Prop where
  sameRoot : a.SameRoot b
  freeLeft : a.HostFree
  freeRight : b.HostFree
  openLeft : a.IsOpen (.inner l)
  openRight : b.IsOpen (.inner r)
  agree : (a.scope (.inner l)).AgreeOn ids (b.scope (.inner r))

namespace Beside

variable {ids : List SymbolId} {l r : Nat} {a b : Environment H}

/-- A symbol of the code means the same in both scopes. -/
theorem get? (h : Beside ids l r a b) {id : SymbolId} (hid : id ∈ ids) :
    a.get? (.inner l) id = b.get? (.inner r) id := by
  have hlocal : (a.scope (.inner l)).get? id = (b.scope (.inner r)).get? id := h.agree id hid
  have hroot : (a.scope .root).get? id = (b.scope .root).get? id := by
    show a.root.get? id = b.root.get? id
    rw [h.sameRoot.root]
  -- Behind both scopes there is the root, and nothing else.
  simp only [Environment.get?, hlocal, ScopeId.parent?, Option.bind_some, hroot]

theorem symm (h : Beside ids l r a b) : Beside ids r l b a where
  sameRoot := h.sameRoot.symm
  freeLeft := h.freeRight
  freeRight := h.freeLeft
  openLeft := h.openRight
  openRight := h.openLeft
  agree id hid := (h.agree id hid).symm

/-- Any symbol may be bound in both scopes. -/
theorem set (h : Beside ids l r a b) {value : Value H} (hvalue : value.HostFree)
    (id : SymbolId) :
    Beside ids l r (a.set (.inner l) id value) (b.set (.inner r) id value) where
  sameRoot := ⟨h.sameRoot.owner, h.sameRoot.symbols, h.sameRoot.root, h.sameRoot.functions⟩
  freeLeft := h.freeLeft.set hvalue _ id
  freeRight := h.freeRight.set hvalue _ id
  openLeft := h.openLeft.set _ id value
  openRight := h.openRight.set _ id value
  agree := by
    intro other hother
    rw [scope_set_self h.openLeft, scope_set_self h.openRight, Dictionary.get?_set,
      Dictionary.get?_set, h.agree other hother]

/-- A function that is made on both sides is the same. -/
theorem newFunction (h : Beside ids l r a b) (parameters : List SymbolId) (body : Element) :
    (a.newFunction parameters body).1 = (b.newFunction parameters body).1 ∧
      Beside ids l r (a.newFunction parameters body).2 (b.newFunction parameters body).2 := by
  constructor
  · simp only [Environment.newFunction, h.sameRoot.owner, h.sameRoot.functions]
  · exact {
      sameRoot := ⟨h.sameRoot.owner, h.sameRoot.symbols, h.sameRoot.root,
        congrArg (· + 1) h.sameRoot.functions⟩
      freeLeft := h.freeLeft.newFunction parameters body
      freeRight := h.freeRight.newFunction parameters body
      openLeft := h.openLeft
      openRight := h.openRight
      agree := fun id hid => h.agree id hid }

end Beside

/-- Scopes with the same bindings may be opened beside each other, whatever is local in
the environments. -/
theorem SameRoot.open {a b : Environment H} (h : a.SameRoot b) (hleft : a.HostFree)
    (hright : b.HostFree) {values : List (Value H)} (hvalues : ∀ value ∈ values, value.HostFree)
    (parameters ids : List SymbolId) :
    Beside ids a.locals.size b.locals.size
      (a.openScope (Dictionary.empty.setAll (parameters.zip values))).2
      (b.openScope (Dictionary.empty.setAll (parameters.zip values))).2 where
  sameRoot := ⟨h.owner, h.symbols, h.root, h.functions⟩
  freeLeft := hleft.openScope hvalues parameters
  freeRight := hright.openScope hvalues parameters
  openLeft := by simp [Environment.openScope, IsOpen]
  openRight := by simp [Environment.openScope, IsOpen]
  agree := by
    intro id _
    have hopen (env : Environment H) (bindings : Scope (Value H)) :
        (env.openScope bindings).2.scope (.inner env.locals.size) = bindings :=
      env.scope_openScope_self bindings
    rw [hopen, hopen]

/-- Closing a scope changes nothing that is seen from the root. -/
theorem SameRoot.closeScope {a b : Environment H} (h : a.SameRoot b) :
    a.closeScope.SameRoot b.closeScope :=
  ⟨h.owner, h.symbols, h.root, h.functions⟩

/-- Once the scopes of two calls are closed, those of the callers are seen as before. -/
theorem Beside.close {ids inside targets : List SymbolId} {l r : Nat}
    {a b after after' : Environment H} (h : Beside ids l r a b) {bindings : Scope (Value H)}
    (hcall : Beside inside a.locals.size b.locals.size after after')
    (hleft : Frame (a.openScope bindings).1 targets (a.openScope bindings).2 after)
    (hright : Frame (b.openScope bindings).1 targets (b.openScope bindings).2 after') :
    Beside ids l r after.closeScope after'.closeScope where
  sameRoot := hcall.sameRoot.closeScope
  freeLeft := hcall.freeLeft.closeScope
  freeRight := hcall.freeRight.closeScope
  openLeft := by
    have hopen : l < a.locals.size := h.openLeft
    simpa [IsOpen, Environment.closeScope, hleft.size, Environment.openScope] using hopen
  openRight := by
    have hopen : r < b.locals.size := h.openRight
    simpa [IsOpen, Environment.closeScope, hright.size, Environment.openScope] using hopen
  agree := by
    intro id hid
    rw [hleft.scope_closeScope, hright.scope_closeScope]
    exact h.agree id hid

end Environment

/-! ### Two evaluations -/

open Environment (SameRoot Beside)

/-- Two evaluations of the same code, in different local scopes. -/
def Coupling.beside (ids : List SymbolId) (l r : Nat) : Coupling H where
  like := .exact
  env := Beside ids l r
  lockstep := True

/-- Functions are entered beside each other alike, if their bodies are evaluated so. -/
theorem sim_enter_beside [Host H] {fuel : Nat}
    (hbody : ∀ (element : Element) (l r : Nat),
      (Coupling.beside (H := H) element.symbols l r).Sim (Value.Like .exact)
        (eval fuel element (.inner l)) (eval fuel element (.inner r)))
    {ids : List SymbolId} {l r : Nat} (f : Function) {values : List (Value H)}
    (hvalues : ∀ value ∈ values, value.HostFree) :
    (Coupling.beside ids l r).Sim (Value.Like .exact) (f.enter (eval fuel) values)
      (f.enter (eval fuel) values) := by
  intro a b hab
  -- The new scopes agree on all symbols, because they are opened with the same values. What
  -- the callers see afterwards follows from the frames of the two bodies.
  have hopen := hab.sameRoot.open hab.freeLeft hab.freeRight hvalues f.parameters f.body.symbols
  refine (hbody f.body _ _ hopen).change fun hleft hright hafter => ?_
  exact hab.close hafter (frame_eval fuel _ _ hopen.freeLeft hleft).2
    (frame_eval fuel _ _ hopen.freeRight hright).2

/-- Evaluations beside each other end alike. -/
theorem sim_beside [Host H] (fuel : Nat) {element : Element} {ids : List SymbolId}
    (hids : element.symbols ⊆ ids) (l r : Nat) :
    (Coupling.beside (H := H) ids l r).Sim (Value.Like .exact)
      (eval fuel element (.inner l)) (eval fuel element (.inner r)) := by
  -- A call goes on in other scopes and with the symbols of another body, so these vary.
  induction fuel generalizing element ids l r with
  | zero => exact .outOfFuel fun _ => rfl
  | succ fuel ih =>
    have hbridge : Bridge (Coupling.beside (H := H) ids l r)
        (fun e e' => e = e' ∧ e.symbols ⊆ ids) (eval fuel) (eval fuel) (.inner l)
        (.inner r) := by
      constructor
      case shape =>
        rintro e _ ⟨rfl, he⟩
        refine e.match_self fun bracket elements span hlist part hpart => ⟨rfl, ?_⟩
        exact List.Subset.trans (Element.symbols_subset_of_mem hpart) (hlist ▸ he)
      case element =>
        rintro e _ ⟨rfl, he⟩
        exact ih he l r
      case lookup =>
        intro id id' p q hcode a b hab
        obtain ⟨heq, hid⟩ := hcode
        cases heq
        have hmem : id ∈ ids := hid (Element.mem_symbols_symbol id p)
        rw [Eval.apply_lookup, Eval.apply_lookup, ← hab.get? hmem, ← hab.sameRoot.symbols]
        -- Both find the same value, or blame the same name.
        cases hget : a.get? (.inner l) id with
        | some value => exact .ok (Value.like_exact_iff.2 ⟨rfl, hab.freeLeft.get? hget⟩) hab
        | none => exact .fault rfl hab
      case empty =>
        intro bracket p q hcode
        cases hcode.1
        rfl
      case assign =>
        rintro e _ id id' v w ⟨rfl, -⟩ hid hid' hvalue a b hab
        obtain ⟨rfl, hfree⟩ := Value.like_exact_iff.1 hvalue
        cases Option.some.inj (hid.symm.trans hid')
        exact .ok trivial (hab.set hfree id)
      case closure =>
        intro list list' ids' ids'' body body' hlist hparameters hparameters' hbody a b hab
        obtain rfl : list = list' := by
          simpa using hlist.imp fun _ _ h => h.1
        cases Except.ok.inj (hparameters.symm.trans hparameters')
        obtain rfl := hbody.1
        -- The count of functions belongs to the root, so the new functions are the same one.
        obtain ⟨hsame, hafter⟩ := hab.newFunction ids' body
        exact .ok (Value.like_exact_iff.2 ⟨congrArg _ hsame, trivial⟩) hafter
      case enter =>
        intro f g values values' hf hvalues
        obtain ⟨rfl, hfree⟩ := forall₂_like_exact_iff.1 hvalues
        cases (Value.like_exact_iff.1 hf).1
        exact sim_enter_beside (fun element l r => ih (List.Subset.refl _) l r) f hfree
    exact hbridge.step ⟨Nat.le_refl fuel, fun _ => rfl⟩ ⟨rfl, hids⟩

/-! ### The outcomes -/

/-- Whether two computations, given by what they may end with, end alike: one of them ends
if the other does, and then outcomes are the same and the environments are related. -/
def EndAlike {α : Type} (first second : Except EvalError α → Environment H → Prop)
    (related : Environment H → Environment H → Prop) : Prop :=
  ((∃ outcome after, first outcome after) ↔ ∃ outcome after, second outcome after) ∧
    ∀ outcome outcome' after after', first outcome after → second outcome' after' →
      outcome = outcome' ∧ related after after'

/-- Computations that do alike with the same fuel end alike. -/
theorem Ends.transfer {κ : Coupling H} (hlike : κ.like = .exact)
    {run run' : Nat → Eval H (Value H)}
    (hrun : ∀ fuel, κ.Sim (Value.Like .exact) (run fuel) (run' fuel))
    {before before' after : Environment H} (hbefore : κ.env before before')
    {outcome : Except EvalError (Value H)} (h : Ends run before outcome after) :
    ∃ after', Ends run' before' outcome after' ∧ κ.env after after' := by
  obtain ⟨fuel, hfuel⟩ := h
  have hfirst : ((run fuel).apply before).1 ≠ .error .outOfFuel := by
    rw [hfuel]
    exact mapError_fault_ne_outOfFuel outcome
  obtain ⟨hresult, hafter⟩ := (hrun fuel hbefore).of_exact hlike hfirst
  rw [hfuel] at hresult hafter
  exact ⟨_, .of_apply fuel hresult.symm, hafter⟩

/-- If outcomes carry over both ways and are determined, two computations end alike. -/
theorem EndAlike.of_transfer {α : Type}
    {first second : Except EvalError α → Environment H → Prop}
    {related : Environment H → Environment H → Prop}
    (hthere : ∀ outcome after, first outcome after →
      ∃ after', second outcome after' ∧ related after after')
    (hback : ∀ outcome after', second outcome after' → ∃ after, first outcome after)
    (hunique : ∀ outcome outcome' after after', second outcome after →
      second outcome' after' → outcome = outcome' ∧ after = after') :
    EndAlike first second related := by
  refine ⟨⟨?_, ?_⟩, ?_⟩
  · rintro ⟨outcome, after, h⟩
    obtain ⟨after', h', -⟩ := hthere outcome after h
    exact ⟨outcome, after', h'⟩
  · rintro ⟨outcome, after', h'⟩
    obtain ⟨after, h⟩ := hback outcome after' h'
    exact ⟨outcome, after, h⟩
  · intro outcome outcome' after after' h h'
    -- The second computation ends as the first one does, and it has no other end.
    obtain ⟨other, hother, hrelated⟩ := hthere outcome after h
    obtain ⟨rfl, rfl⟩ := hunique outcome outcome' other after' hother h'
    exact ⟨rfl, hrelated⟩

/-- The environments of two calls, which may differ in all that is local. -/
def Coupling.calls (H : Type) : Coupling H where
  like := .exact
  env a b := a.SameRoot b ∧ a.HostFree ∧ b.HostFree
  lockstep := True

/-- A function that is entered from different scopes does the same. -/
theorem sim_enter_calls [Host H] (f : Function) {values : List (Value H)}
    (hvalues : ∀ value ∈ values, value.HostFree) (fuel : Nat) :
    (Coupling.calls H).Sim (Value.Like .exact) (f.enter (eval fuel) values)
      (f.enter (eval fuel) values) := by
  rintro a b ⟨hroot, hleft, hright⟩
  have hopen := hroot.open hleft hright hvalues f.parameters f.body.symbols
  refine (sim_beside fuel (List.Subset.refl f.body.symbols) _ _ hopen).change ?_
  intro _ _ hafter
  exact ⟨hafter.sameRoot.closeScope, hafter.freeLeft.closeScope, hafter.freeRight.closeScope⟩

/-- Locals are visible only where they are written. An element ends alike in two local
scopes over one root that agree on the symbols in it, with the same value or the same
error, and the scopes agree on these symbols afterwards. A function that is called ends
alike whatever is local in the environment of the call. -/
theorem locals_stay_local [Host H] {left right : Environment H} (hleft : left.HostFree)
    (hright : right.HostFree) (hroot : left.SameRoot right) :
    (∀ (element : Element) (l r : Nat), left.IsOpen (.inner l) → right.IsOpen (.inner r) →
      (left.scope (.inner l)).AgreeOn element.symbols (right.scope (.inner r)) →
      EndAlike (Evaluates element (.inner l) left) (Evaluates element (.inner r) right)
        fun after after' => after.SameRoot after' ∧
          (after.scope (.inner l)).AgreeOn element.symbols (after'.scope (.inner r))) ∧
    ∀ (function : Function) (values : List (Value H)), (∀ value ∈ values, value.HostFree) →
      EndAlike (function.Returns values left) (function.Returns values right) SameRoot := by
  constructor
  · intro element l r hopenLeft hopenRight hagree
    have hbeside : Beside element.symbols l r left right :=
      ⟨hroot, hleft, hright, hopenLeft, hopenRight, hagree⟩
    have hsim (fuel l r : Nat) := sim_beside (H := H) fuel (List.Subset.refl element.symbols) l r
    refine .of_transfer ?_ ?_ ?_
    · intro outcome after h
      obtain ⟨after', h', hafter⟩ := Ends.transfer rfl (hsim · l r) hbeside h
      exact ⟨after', h', hafter.sameRoot, hafter.agree⟩
    · intro outcome after' h'
      obtain ⟨after, h, -⟩ := Ends.transfer rfl (hsim · r l) hbeside.symm h'
      exact ⟨after, h⟩
    · intro _ _ _ _ h h'
      exact h.unique hright h'
  · intro function values hvalues
    have hsim := sim_enter_calls function hvalues
    refine .of_transfer ?_ ?_ ?_
    · intro outcome after h
      obtain ⟨after', h', hafter⟩ := Ends.transfer rfl hsim ⟨hroot, hleft, hright⟩ h
      exact ⟨after', h', hafter.1⟩
    · intro outcome after' h'
      obtain ⟨after, h, -⟩ := Ends.transfer rfl hsim ⟨hroot.symm, hright, hleft⟩ h'
      exact ⟨after, h⟩
    · intro _ _ _ _ h h'
      exact h.unique hright hvalues h'

/-- The function `f` (1) gives the value of `y` (2), which is 1 in the root. Where `x` (3)
is set to what `f` gives, `y` is 2 on the left and not bound on the right. Both sides set
`x` to 1. -/
theorem locals_stay_local_call :
    ∃ (left right : Environment Empty) (inner : ScopeId) (element : Element) (f : Function)
      (after after' : Environment Empty),
      left.SameRoot right ∧ element.symbols = [⟨0⟩, ⟨3⟩, ⟨1⟩] ∧ f.body.symbols = [⟨2⟩] ∧
        left.get? inner ⟨2⟩ = some (.int 2) ∧ right.get? inner ⟨2⟩ = some (.int 1) ∧
        Evaluates element inner left (.ok (.int 1)) after ∧
        Evaluates element inner right (.ok (.int 1)) after' ∧ after.SameRoot after' ∧
        EndAlike (f.Returns [] left) (f.Returns [] right) SameRoot := by
  let place : Position := ⟨"t", 1, 1⟩
  let f : Function := ⟨⟨0, 0⟩, [], .symbol ⟨2⟩ place⟩
  let call : Element := .list .paren [.symbol ⟨1⟩ place] place
  let element : Element := .list .paren [.symbol ⟨0⟩ place, .symbol ⟨3⟩ place, call] place
  let bare : Environment Empty := .bare 0
  let first := (bare.register "set" (.catalog (.form .assign))).2
  let root := (first.set .root ⟨1⟩ (.function f)).set .root ⟨2⟩ (.int 1)
  let left := (root.openScope (Dictionary.empty.setAll ([⟨2⟩].zip [.int 2]))).2
  let right := (root.openScope (Dictionary.empty.setAll ([].zip []))).2
  have hfunction : (Value.function f : Value Empty).HostFree := trivial
  have hint (value : Int64) : (Value.int value : Value Empty).HostFree := trivial
  have hfirst : first.HostFree := (Environment.hostFree_bare 0).register "set" _
  have hfree : root.HostFree := (hfirst.set hfunction .root ⟨1⟩).set (hint 1) .root ⟨2⟩
  have hleft : left.HostFree := hfree.openScope (List.forall_mem_singleton.2 (hint 2)) [⟨2⟩]
  have hright : right.HostFree := hfree.openScope (List.forall_mem_nil _) []
  have hroot : left.SameRoot right := root.sameRoot_openScope _ _
  have hagree : (left.scope (.inner 0)).AgreeOn element.symbols (right.scope (.inner 0)) := by
    intro id hid
    have hsymbols : element.symbols = [⟨0⟩, ⟨3⟩, ⟨1⟩] := rfl
    simp only [hsymbols, List.mem_cons, List.not_mem_nil, or_false] at hid
    rcases hid with rfl | rfl | rfl <;> rfl
  have hlocal := locals_stay_local hleft hright hroot
  have h : Evaluates element (.inner 0) left (.ok (.int 1)) _ := .of_apply 10 rfl
  have h' : Evaluates element (.inner 0) right (.ok (.int 1)) _ := .of_apply 10 rfl
  have hafter := (hlocal.1 element 0 0 Nat.one_pos Nat.one_pos hagree).2 _ _ _ _ h h'
  exact ⟨left, right, .inner 0, element, f, _, _, hroot, rfl, rfl, rfl, rfl, h, h', hafter.2.1,
    hlocal.2 f [] (List.forall_mem_nil _)⟩

end BracketLisp
