import BracketLisp.Form.Parse
import Mathlib.Data.List.Forall2

/-!
# `BracketLisp.Proofs.Form.Grammar`: which rows of tokens are texts

The grammar has two rules. A form is an opening bracket, any number of items, and the
closing bracket of the same kind, and an item is a form, a symbol or a literal. `IsItem`,
`IsForm` and `IsText` state it about tokens, without a word about how a parser works.

* `nest` follows the brackets that are open. `nestAll_of_isText` shows that no token of a
  text is out of place and that nothing is open at its end.
* `Element.marks` writes an element as the row of marks that it was read from: a mark for
  each bracket and each atom. `Mark.For` says which token a mark stands for.
  `isText_of_marks` shows that the tokens behind the marks of forms are a text.
-/

set_option autoImplicit false

namespace BracketLisp

/-! ### The grammar -/

/-- Whether tokens are an item: a symbol, a literal, or items between brackets of one
kind. -/
inductive IsItem : List Token → Prop where
  | symbol (name : String) : IsItem [.symbol name]
  | literal (content : String) : IsItem [.literal content]
  | form (bracket : Bracket) (items : List (List Token)) (h : ∀ item ∈ items, IsItem item) :
      IsItem (.opening bracket :: (items.flatten ++ [.closing bracket]))

/-- Whether tokens are a form: items between brackets of one kind. -/
def IsForm (tokens : List Token) : Prop :=
  ∃ (bracket : Bracket) (items : List (List Token)), (∀ item ∈ items, IsItem item) ∧
    tokens = .opening bracket :: (items.flatten ++ [.closing bracket])

/-- Whether tokens are forms, one after the other. -/
def IsText (tokens : List Token) : Prop :=
  ∃ forms : List (List Token), (∀ form ∈ forms, IsForm form) ∧ tokens = forms.flatten

/-! ### Open brackets -/

/-- The kinds of the brackets that are open after a token, innermost first, unless the
token is out of place. -/
def nest (pending : List Bracket) (token : Token) : Option (List Bracket) :=
  match token, pending with
  | .opening bracket, _ => some (bracket :: pending)
  | .closing _, [] => none
  | .closing bracket, innermost :: outer => if innermost = bracket then some outer else none
  | .symbol _, [] | .literal _, [] => none
  | _, _ => some pending

/-- The kinds of the brackets that are open after several tokens. -/
def nestAll (pending : List Bracket) : List Token → Option (List Bracket)
  | [] => some pending
  | token :: others => (nest pending token).bind (nestAll · others)

/-- Layout opens and closes nothing, and is in place everywhere. -/
theorem nest_of_isLayout {token : Token} (h : token.isLayout) (pending : List Bracket) :
    nest pending token = some pending := by
  cases token with
  | space | tab | comment text => cases pending <;> rfl
  | _ => cases h

theorem nestAll_append (pending : List Bracket) (tokens others : List Token) :
    nestAll pending (tokens ++ others) =
      (nestAll pending tokens).bind (nestAll · others) := by
  induction tokens generalizing pending with
  | nil => rfl
  | cons token tokens ih =>
    show (nest pending token).bind (nestAll · (tokens ++ others)) =
      ((nest pending token).bind (nestAll · tokens)).bind (nestAll · others)
    rw [Option.bind_assoc]
    exact Option.bind_congr fun next _ => ih next

/-- Rows of tokens that each leave the open brackets as they are do so together. -/
theorem nestAll_flatten {pending : List Bracket} {rows : List (List Token)}
    (h : ∀ row ∈ rows, nestAll pending row = some pending) :
    nestAll pending rows.flatten = some pending := by
  induction rows with
  | nil => rfl
  | cons row rows ih =>
    rw [List.flatten_cons, nestAll_append, h row (List.mem_cons_self ..)]
    exact ih fun other hother => h other (List.mem_cons_of_mem _ hother)

/-- Brackets around what leaves the open brackets as they are do so too. -/
theorem nestAll_brackets {pending : List Bracket} (bracket : Bracket) {inner : List Token}
    (h : nestAll (bracket :: pending) inner = some (bracket :: pending)) :
    nestAll pending (.opening bracket :: (inner ++ [.closing bracket])) = some pending := by
  show nestAll (bracket :: pending) (inner ++ [.closing bracket]) = some pending
  rw [nestAll_append, h]
  simp [nestAll, nest]

/-- An item inside of brackets leaves the open ones as they are. -/
theorem nestAll_of_isItem {tokens : List Token} (h : IsItem tokens) {pending : List Bracket}
    (hpending : pending ≠ []) : nestAll pending tokens = some pending := by
  induction h generalizing pending with
  | symbol name =>
    cases pending with
    | nil => exact absurd rfl hpending
    | cons innermost outer => rfl
  | literal content =>
    cases pending with
    | nil => exact absurd rfl hpending
    | cons innermost outer => rfl
  -- Inside of its own brackets an item is never outside of all lists.
  | form bracket items _ ih =>
    exact nestAll_brackets bracket (nestAll_flatten fun item hitem =>
      ih item hitem (List.cons_ne_nil bracket pending))

/-- No token of a text is out of place, and at the end no bracket is open. -/
theorem nestAll_of_isText {tokens : List Token} (h : IsText tokens) :
    nestAll [] tokens = some [] := by
  obtain ⟨forms, hforms, rfl⟩ := h
  refine nestAll_flatten fun form hform => ?_
  obtain ⟨bracket, items, hitems, rfl⟩ := hforms form hform
  exact nestAll_brackets bracket (nestAll_flatten fun item hitem =>
    nestAll_of_isItem (hitems item hitem) (List.cons_ne_nil bracket []))

/-! ### Marks -/

/-- What stands for one token in an element that is written out again. -/
inductive Mark where
  | opening (bracket : Bracket) (span : Position)
  | closing (bracket : Bracket)
  /-- An element that is no list. -/
  | atom (element : Element)

/-- Whether a mark stands for a token in its place. A symbol token stands for the integer
that it reads as, else for the float, else for the symbol with its name. -/
inductive Mark.For (table : SymbolTable) : Located Token → Mark → Prop where
  | opening (bracket : Bracket) (span : Position) :
      For table ⟨.opening bracket, span⟩ (.opening bracket span)
  | closing (bracket : Bracket) (span : Position) :
      For table ⟨.closing bracket, span⟩ (.closing bracket)
  | string (content : String) (span : Position) :
      For table ⟨.literal content, span⟩ (.atom (.string content span))
  | int {name : String} {value : Int64} (span : Position)
      (h : Numeral.integer? name.toList = some value) :
      For table ⟨.symbol name, span⟩ (.atom (.int value span))
  | float {name : String} {value : Float} (span : Position)
      (hint : Numeral.integer? name.toList = none)
      (h : Numeral.float? name.toList = some value) :
      For table ⟨.symbol name, span⟩ (.atom (.float value span))
  | symbol {name : String} {id : SymbolId} (span : Position)
      (hint : Numeral.integer? name.toList = none)
      (hfloat : Numeral.float? name.toList = none) (h : table.nameOf id = .ok name) :
      For table ⟨.symbol name, span⟩ (.atom (.symbol id span))

mutual

/-- The marks of an element: for a list its opening bracket, the marks of its elements, and
its closing bracket, and else the element itself. -/
def Element.marks : Element → List Mark
  | .list bracket elements span =>
    .opening bracket span :: (marksAll elements ++ [.closing bracket])
  | .int value span => [.atom (.int value span)]
  | .float value span => [.atom (.float value span)]
  | .string content span => [.atom (.string content span)]
  | .symbol id span => [.atom (.symbol id span)]

/-- The marks of several elements, one after the other. -/
def marksAll : List Element → List Mark
  | [] => []
  | element :: others => element.marks ++ marksAll others

end

theorem marksAll_eq_flatMap (elements : List Element) :
    marksAll elements = elements.flatMap Element.marks := by
  induction elements with
  | nil => rfl
  | cons element others ih => rw [marksAll, ih, List.flatMap_cons]

/-- The tokens behind two rows of marks are tokens behind the first and then those behind
the second. -/
theorem Mark.For.split {table : SymbolTable} {tokens : List (Located Token)}
    {marks others : List Mark} (h : List.Forall₂ (Mark.For table) tokens (marks ++ others)) :
    ∃ first second, tokens = first ++ second ∧ List.Forall₂ (Mark.For table) first marks ∧
      List.Forall₂ (Mark.For table) second others :=
  ⟨tokens.take marks.length, tokens.drop marks.length, (List.take_append_drop ..).symm,
    List.forall₂_take_append _ _ _ h, List.forall₂_drop_append _ _ _ h⟩

/-- The token behind an atom is an item. -/
theorem isItem_of_atom {table : SymbolTable} {element : Element} {tokens : List (Located Token)}
    (h : List.Forall₂ (Mark.For table) tokens [.atom element]) :
    IsItem (tokens.map Located.value) := by
  obtain ⟨token, rest, hmark, hrest, rfl⟩ := List.forall₂_cons_right_iff.1 h
  obtain rfl := List.forall₂_nil_right_iff.1 hrest
  cases hmark with
  | string content span => exact .literal content
  | int span _ => exact .symbol _
  | float span _ _ => exact .symbol _
  | symbol span _ _ _ => exact .symbol _

/-- The tokens behind the marks of a list are brackets around those of its elements. -/
theorem tokens_of_list {table : SymbolTable} {bracket : Bracket} {elements : List Element}
    {span : Position} {tokens : List (Located Token)}
    (h : List.Forall₂ (Mark.For table) tokens (Element.list bracket elements span).marks) :
    ∃ inner, List.Forall₂ (Mark.For table) inner (marksAll elements) ∧
      tokens.map Located.value =
        .opening bracket :: (inner.map Located.value ++ [.closing bracket]) := by
  obtain ⟨first, others, hfirst, hothers, rfl⟩ := List.forall₂_cons_right_iff.1 h
  -- Behind the opening bracket stand the elements, and behind these one closing bracket.
  obtain ⟨inner, last, rfl, hinner, hlast⟩ := Mark.For.split hothers
  obtain ⟨closing, rest, hclosing, hrest, rfl⟩ := List.forall₂_cons_right_iff.1 hlast
  obtain rfl := List.forall₂_nil_right_iff.1 hrest
  cases hfirst
  cases hclosing
  exact ⟨inner, hinner, by simp⟩

mutual

/-- The tokens behind the marks of an element are an item. -/
theorem isItem_of_marks {table : SymbolTable} (element : Element)
    {tokens : List (Located Token)}
    (h : List.Forall₂ (Mark.For table) tokens element.marks) :
    IsItem (tokens.map Located.value) := by
  cases element with
  | list bracket elements span =>
    obtain ⟨inner, hinner, htokens⟩ := tokens_of_list h
    obtain ⟨items, hitems, hflat⟩ := items_of_marks elements hinner
    rw [htokens, hflat]
    exact .form bracket items hitems
  | _ => exact isItem_of_atom h

/-- The tokens behind the marks of several elements are items. -/
theorem items_of_marks {table : SymbolTable} (elements : List Element)
    {tokens : List (Located Token)}
    (h : List.Forall₂ (Mark.For table) tokens (marksAll elements)) :
    ∃ items : List (List Token), (∀ item ∈ items, IsItem item) ∧
      tokens.map Located.value = items.flatten := by
  cases elements with
  | nil =>
    obtain rfl := List.forall₂_nil_right_iff.1 h
    exact ⟨[], List.forall_mem_nil _, rfl⟩
  | cons element others =>
    obtain ⟨first, second, rfl, hfirst, hsecond⟩ := Mark.For.split h
    obtain ⟨items, hitems, hflat⟩ := items_of_marks others hsecond
    -- Each element is one item, however many tokens it takes.
    refine ⟨first.map Located.value :: items, ?_, ?_⟩
    · exact List.forall_mem_cons.2 ⟨isItem_of_marks element hfirst, hitems⟩
    · rw [List.map_append, hflat, List.flatten_cons]

end

/-- The tokens behind the marks of forms are a text. -/
theorem isText_of_marks {table : SymbolTable} {forms : List Form}
    {tokens : List (Located Token)}
    (h : List.Forall₂ (Mark.For table) tokens (forms.flatMap fun form => form.element.marks)) :
    IsText (tokens.map Located.value) := by
  induction forms generalizing tokens with
  | nil =>
    obtain rfl := List.forall₂_nil_right_iff.1 h
    exact ⟨[], List.forall_mem_nil _, rfl⟩
  | cons form forms ih =>
    rw [List.flatMap_cons] at h
    obtain ⟨first, second, rfl, hfirst, hsecond⟩ := Mark.For.split h
    obtain ⟨inner, hinner, htokens⟩ := tokens_of_list hfirst
    obtain ⟨items, hitems, hflat⟩ := items_of_marks form.elements hinner
    obtain ⟨rows, hrows, hrest⟩ := ih hsecond
    refine ⟨first.map Located.value :: rows, ?_, ?_⟩
    · refine List.forall_mem_cons.2 ⟨⟨form.bracket, items, hitems, ?_⟩, hrows⟩
      rw [htokens, hflat]
    · rw [List.map_append, hrest, List.flatten_cons]

end BracketLisp
