import BracketLisp.Proofs.Form.Unplaced
import BracketLisp.Proofs.Session.Provenance

/-!
# `BracketLisp.Proofs.Session.Layout`: the same tokens at other places

Two texts may be indented, commented and broken into lines in different ways, and still
consist of the same tokens. A session does the same with both of them. What differs are
places: an error stands where its token does, and functions know the places of their code.

* `Value.unplaced` forgets the places of code, and `Environment.SameCode` relates
  environments that differ in nothing else.
* `Moved` relates the places in two such texts. It is a correspondence of the session with
  itself, and `Sourced.layout` carries it through a run. `layout_unobservable` concludes
  that the answers differ in places only.
-/

set_option autoImplicit false

namespace BracketLisp

variable {H : Type}

/-! ### Code without its places -/

mutual

/-- Elements that are alike, with the same symbols, differ in places only. -/
theorem Element.Alike.unplaced_eq {nodes : Element → Element → Prop}
    (hnodes : ∀ {id id' : SymbolId} {p q : Position},
      nodes (.symbol id p) (.symbol id' q) → id = id')
    (e : Element) {e' : Element} (h : e.Alike nodes e') : e.unplaced = e'.unplaced := by
  cases h with
  | @list bracket elements elements' p q node parts =>
    simp only [Element.unplaced, unplacedAll_eq hnodes elements parts]
  | int value node => rfl
  | float value node => rfl
  | string content node => rfl
  | symbol id id' node =>
    obtain rfl := hnodes node
    rfl

/-- Lists of elements that are alike, with the same symbols, differ in places only. -/
theorem unplacedAll_eq {nodes : Element → Element → Prop}
    (hnodes : ∀ {id id' : SymbolId} {p q : Position},
      nodes (.symbol id p) (.symbol id' q) → id = id')
    (elements : List Element) {elements' : List Element}
    (h : List.Forall₂ (Element.Alike nodes) elements elements') :
    unplacedAll elements = unplacedAll elements' := by
  cases h with
  | nil => rfl
  | @cons e e' others _ hfirst hothers =>
    simp only [unplacedAll, Element.Alike.unplaced_eq hnodes e hfirst,
      unplacedAll_eq hnodes others hothers]

end

/-- The value without the places of its code. -/
def Value.unplaced : Value H → Value H
  | .function f => .function { f with body := f.body.unplaced }
  | value => value

/-- Environments that are the same, but for the places of the code in them. -/
structure Environment.SameCode (env env' : Environment H) : Prop where
  owner : env.owner = env'.owner
  symbols : env.symbols = env'.symbols
  functions : env.functions = env'.functions
  natives : env.natives = env'.natives
  size : env.locals.size = env'.locals.size
  scopes : ∀ scope id, ((env.scope scope).get? id).map Value.unplaced =
    ((env'.scope scope).get? id).map Value.unplaced

section

variable {nodes : Element → Element → Prop} {symbols : SymbolTable} {owner natives : Nat}

/-- Values of a session that are alike differ in places only. -/
theorem Value.Like.unplaced_eq {v w : Value H}
    (h : v.Like (Correspondence.itself nodes symbols owner natives).like w) :
    v.unplaced = w.unplaced := by
  cases h with
  | nil => rfl
  | bool value => rfl
  | int value => rfl
  | float value => rfl
  | string content => rfl
  | @function f g identity arity code =>
    obtain ⟨_, parameters, body⟩ := f
    obtain ⟨_, parameters', body'⟩ := g
    obtain ⟨hparameters, hbody⟩ := code
    obtain rfl := identity
    obtain rfl : parameters = parameters' := by
      rw [← List.forall₂_eq_eq_eq]
      exact hparameters
    have hcode : body.unplaced = body'.unplaced :=
      Element.Alike.unplaced_eq (fun hnode => hnode.2 _ _ rfl rfl) body hbody
    simp only [Value.unplaced, hcode]
  | @native m n entry identity name left right =>
    obtain ⟨_, _, _⟩ := m
    obtain ⟨_, _, _⟩ := n
    obtain rfl := identity
    obtain rfl := name
    obtain rfl := left.trans right.symm
    rfl

/-- A session that corresponds to another state of itself has the same code in it. -/
theorem Environment.Corresponds.sameCode {env env' : Environment H}
    (h : env.Corresponds (.itself nodes symbols owner natives) env') : env.SameCode env' where
  owner := h.left.owner.trans h.right.owner.symm
  symbols := h.left.symbols.trans h.right.symbols.symm
  functions := h.functions
  natives := h.left.natives.trans h.right.natives.symm
  size := h.size
  scopes := by
    intro scope id
    have hget := h.scopes scope (@rfl _ id)
    generalize (env.scope scope).get? id = found at hget
    generalize (env'.scope scope).get? id = found' at hget
    cases hget with
    | none => rfl
    | some hvalue => exact congrArg some hvalue.unplaced_eq

end

/-! ### Texts that are laid out in another way -/

variable [Host H]

/-- Places that correspond when a session, after some requests, runs texts of the given
tokens: those of the same token, and a place in a text that was run before with itself. -/
def Moved (start : Environment H) (requests : List (Request H))
    (tokens tokens' : List (Located Token)) (p q : Position) : Prop :=
  SameToken tokens tokens' p q ∨
    p = q ∧ ∃ source text env node, ParsedNode start requests source text env node ∧ node.span = p

variable {start env : Environment H} {requests : List (Request H)} {answers : List (Answer H)}
  {source source' : String} {text text' : List Char}

/-- Two texts with the same tokens, apart from layout, are answered alike and leave the
same code. -/
theorem Sourced.layout (h : Sourced start requests answers env)
    (hread : Readable (scan source text)) (hread' : Readable (scan source' text'))
    (htokens : (significant (scan source text)).map Located.value =
      (significant (scan source' text')).map Located.value) (mode : Mode) {fuel : Nat}
    (hended : (Session.answer fuel (.run mode source text) env).1.Ended ∨
      (Session.answer fuel (.run mode source' text') env).1.Ended) :
    (Session.answer fuel (.run mode source text) env).1.Corresponds
        (fun e e' => e.value = e'.value)
        (fun e e' => e.value = e'.value ∧ Moved start requests (significant (scan source text))
          (significant (scan source' text')) e.span e'.span)
        Value.SameLook (Session.answer fuel (.run mode source' text') env).1 ∧
      (Session.answer fuel (.run mode source text) env).2.SameCode
        (Session.answer fuel (.run mode source' text') env).2 := by
  let nodes (e e' : Element) : Prop := Moved start requests (significant (scan source text))
    (significant (scan source' text')) e.span e'.span
  obtain ⟨htable, hforms⟩ := parse_of_same_tokens hread hread' htokens env.symbols
  let later := (Session.parse source text env).2.symbols
  let τ := Correspondence.itself nodes later env.owner env.natives
  have hparse : Agree (fun e e' => e.value = e'.value)
      (List.Forall₂ fun form form' : Form => τ.Code form.element form'.element)
      (Session.parse source text env).1 (Session.parse source' text' env).1 :=
    hforms.imp (fun _ _ => id) fun _ _ hall => hall.imp fun _ _ hform =>
      hform.mono fun _ _ hnode => ⟨.inl hnode.1, hnode.2⟩
  have hcode (e e' : Element) (hknown : KnownNode start requests env.symbols e e') :
      nodes e e' := by
    obtain ⟨rfl, source, text, before, hparsed, -⟩ := hknown
    exact .inr ⟨rfl, source, text, before, e, hparsed, rfl⟩
  have hparsed : (Session.parse source text env).2.Corresponds τ
      (Session.parse source' text' env).2 := by
    have hsame : (Session.parse source' text' env).2 = (Session.parse source text env).2 :=
      congrArg (fun symbols => { env with symbols }) htable.symm
    rw [hsame]
    exact h.corresponds.itself_mono hcode later env.natives
  obtain ⟨hanswer, hafter⟩ := Coupling.answers (bridge_alike τ fuel .root) mode hparse hparsed
    (hended.imp_right fun hright => ⟨trivial, hright⟩)
  refine ⟨hanswer.imp (fun _ _ => id) ?_ fun _ _ => Value.Like.sameLook, hafter.sameCode⟩
  -- Both errors blame nodes that correspond.
  rintro ⟨fault, _⟩ ⟨fault', _⟩ ⟨hfault, node, node', hnode, rfl, rfl, -⟩
  exact ⟨hfault, hnode.1⟩

/-- Layout cannot be observed, except in places. Take a session that started without a host
and without functions, and two texts without errors of the scanner and with the same tokens,
apart from blanks and comments. Run next, the texts end both or none, and if both do, the
answers are the same: parse errors of the same kind, or values of the same kind with the
same text, or errors of the same kind and content, which stand at the same token of their
texts or at the same place in a text that was run before. Afterwards the same is bound to
the same symbols, except that functions have their code from other places. -/
theorem layout_unobservable (hfree : start.HostFree)
    (hdata : start.AllBound fun _ value => value.kind ≠ .function)
    (hrequests : ∀ request ∈ requests, request.HostFree)
    (hhistory : History start requests answers env)
    (hread : Readable (scan source text)) (hread' : Readable (scan source' text'))
    (htokens : (significant (scan source text)).map Located.value =
      (significant (scan source' text')).map Located.value) (mode : Mode) :
    ((∃ answer after, Answers (.run mode source text) env answer after) ↔
      ∃ answer after, Answers (.run mode source' text') env answer after) ∧
    ∀ answer after answer' after', Answers (.run mode source text) env answer after →
      Answers (.run mode source' text') env answer' after' →
      answer.Corresponds (fun e e' => e.value = e'.value)
          (fun e e' => e.value = e'.value ∧ Moved start requests (significant (scan source text))
            (significant (scan source' text')) e.span e'.span)
          Value.SameLook answer' ∧
        after.SameCode after' := by
  have hsourced : Sourced start requests answers env :=
    (Sourced.start_of_data hfree hdata).history_append hrequests hhistory
  obtain ⟨hright, hleft⟩ := Answers.transfer fun _ hended =>
    hsourced.layout hread hread' htokens mode hended
  refine ⟨⟨?_, ?_⟩, ?_⟩
  · rintro ⟨answer, after, hanswer⟩
    obtain ⟨answer', after', hanswer', -⟩ := hright answer after hanswer
    exact ⟨answer', after', hanswer'⟩
  · rintro ⟨answer', after', hanswer'⟩
    obtain ⟨answer, after, hanswer, -⟩ := hleft answer' after' hanswer'
    exact ⟨answer, after, hanswer⟩
  · intro answer after answer' after' hanswer hanswer'
    obtain ⟨_, _, hother, hsame⟩ := hright answer after hanswer
    -- The second text has only one answer.
    obtain ⟨rfl, rfl⟩ := Answers.unique (hhistory.hostFree hfree hrequests) hanswer' hother
    exact hsame

open Environment (full hostFree_full no_function_full) in
/-- The second text has a comment, a carriage return and other indentation. Both call `f`
of an earlier text, where `g` is blamed, and name `h`, which is blamed where it stands. -/
theorem layout_unobservable_comment :
    ∃ (requests : List (Request Empty)) (answers : List (Answer Empty)) (env : Environment Empty)
      (text text' : List Char) (answer answer' : Answer Empty) (after after' : Environment Empty),
      (full 0 : Environment Empty).HostFree ∧
        ((full 0 : Environment Empty).AllBound fun _ value => value.kind ≠ .function) ∧
        (∀ request ∈ requests, request.HostFree) ∧ History (full 0) requests answers env ∧
        Readable (scan "b" text) ∧ Readable (scan "b" text') ∧
        (significant (scan "b" text)).map Located.value =
          (significant (scan "b" text')).map Located.value ∧
        Answers (.run .each "b" text) env answer after ∧
        Answers (.run .each "b" text') env answer' after' ∧
        answer.errors =
          [⟨.undefinedSymbol "g", ⟨"a", 1, 19⟩⟩, ⟨.undefinedSymbol "h", ⟨"b", 1, 8⟩⟩] ∧
        answer'.errors =
          [⟨.undefinedSymbol "g", ⟨"a", 1, 19⟩⟩, ⟨.undefinedSymbol "h", ⟨"b", 2, 3⟩⟩] ∧
        answer.Corresponds (fun e e' => e.value = e'.value)
          (fun e e' => e.value = e'.value ∧ Moved (full 0) requests (significant (scan "b" text))
            (significant (scan "b" text')) e.span e'.span)
          Value.SameLook answer' ∧
        after.SameCode after' := by
  let requests : List (Request Empty) := [.run .whole "a" "(set f (func (x) (g x)))".toList]
  let text := "(f 1) (h)(set k (func (x) x))".toList
  let text' := "(f 1) ; calls g
	(h)(set k (func (x) x))".toList
  have hrequests : ∀ request ∈ requests, request.HostFree := List.forall_mem_singleton.2 trivial
  let env : Environment Empty := (Session.answerAll 10 requests (full 0)).2
  have hhistory : History (full 0) requests _ env := .of_answerAll 10 (by decide +kernel)
  have hread : Readable (scan "b" text) := by decide +kernel
  have hread' : Readable (scan "b" text') := by decide +kernel
  have htokens : (significant (scan "b" text)).map Located.value =
      (significant (scan "b" text')).map Located.value := by
    decide +kernel
  have hanswer : Answers (.run .each "b" text) env _ _ := ⟨by decide +kernel, 10, rfl⟩
  have hanswer' : Answers (.run .each "b" text') env _ _ := ⟨by decide +kernel, 10, rfl⟩
  obtain ⟨hsame, hcode⟩ := (layout_unobservable (hostFree_full 0) (no_function_full 0) hrequests
    hhistory hread hread' htokens .each).2 _ _ _ _ hanswer hanswer'
  exact ⟨requests, _, env, text, text', _, _, _, _, hostFree_full 0, no_function_full 0, hrequests,
    hhistory, hread, hread', htokens, hanswer, hanswer', by decide +kernel, by decide +kernel,
    hsame, hcode⟩

end BracketLisp
