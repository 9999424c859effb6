import BracketLisp.Proofs.Form.Grammar
import BracketLisp.Proofs.Symbol.Table

/-!
# `BracketLisp.Proofs.Form.Reading`: the parser reads the grammar

The parser keeps a row of open lists and takes one token after the other. Two views of
its progress connect it with the grammar:

* `Progress.marks` writes out what has been read so far. Every token that is not layout
  adds its mark at the end (`takeToken_extends`), so nothing that was read is ever moved
  or dropped. `run_extends` carries this through a whole text.
* `Progress.nesting` are the brackets that are open. They alone decide whether a token is
  taken (`takeToken_of_nest`), and `run_of_nestAll` makes of this that every text of the
  grammar is read.

`parse_iff_isText` puts both together.
-/

set_option autoImplicit false

namespace BracketLisp

/-! ### Significant tokens -/

/-- The token of an item in its place, unless it is layout or the item has none. -/
def Item.significant? (item : Item) : Option (Located Token) :=
  match item.reading with
  | .ok token => if token.isLayout then none else some ⟨token, item.start⟩
  | .error _ => none

/-- A token that means something is what its item reads as, where the item stands. -/
theorem Item.of_significant? {item : Item} {token : Located Token}
    (h : item.significant? = some token) :
    item.start = token.span ∧ item.reading = .ok token.value := by
  unfold significant? at h
  cases hreading : item.reading with
  | error error =>
    rw [hreading] at h
    cases h
  | ok value =>
    simp only [hreading, Option.ite_none_left_eq_some, Option.some.injEq] at h
    obtain ⟨-, rfl⟩ := h
    exact ⟨rfl, rfl⟩

/-- The tokens of items that mean something to the parser. -/
def significant (items : List Item) : List (Located Token) :=
  items.filterMap Item.significant?

theorem significant_cons (item : Item) (others : List Item) :
    significant (item :: others) = item.significant?.toList ++ significant others := by
  unfold significant
  rw [List.filterMap_cons]
  cases item.significant? <;> rfl

/-- Whether items have a token each. -/
def Readable (items : List Item) : Prop :=
  ∀ item ∈ items, ∃ token, item.reading = .ok token

instance (reading : Except ParseError Token) : Decidable (∃ token, reading = .ok token) :=
  match reading with
  | .ok token => isTrue ⟨token, rfl⟩
  | .error _ => isFalse fun ⟨_, h⟩ => nomatch h

instance (items : List Item) : Decidable (Readable items) :=
  inferInstanceAs (Decidable (∀ item ∈ items, ∃ token, item.reading = .ok token))

/-! ### Tables that grow -/

/-- A mark stands for its token in later tables too. -/
theorem Mark.For.mono {table later : SymbolTable} (h : table.names <+: later.names)
    {token : Located Token} {mark : Mark} (hmark : Mark.For table token mark) :
    Mark.For later token mark := by
  cases hmark with
  | opening bracket span => exact .opening bracket span
  | closing bracket span => exact .closing bracket span
  | string content span => exact .string content span
  | int span hint => exact .int span hint
  | float span hint hfloat => exact .float span hint hfloat
  | symbol span hint hfloat hname =>
    exact .symbol span hint hfloat (SymbolTable.nameOf_of_names h hname)

namespace Parse

/-- A bare token becomes an atom, and its mark stands for the token. -/
theorem classify_spec (table : SymbolTable) (name : String) (span : Position) :
    table.names <+: (classify table name span).2.names ∧
      (classify table name span).1.marks = [.atom (classify table name span).1] ∧
      Mark.For (classify table name span).2 ⟨.symbol name, span⟩
        (.atom (classify table name span).1) := by
  unfold classify
  split
  next value hint => exact ⟨List.prefix_rfl, rfl, .int span hint⟩
  next hint =>
    split
    next value hfloat => exact ⟨List.prefix_rfl, rfl, .float span hint hfloat⟩
    next hfloat =>
      exact ⟨table.prefix_intern name, rfl, .symbol span hint hfloat (table.nameOf_intern name)⟩

/-! ### What has been read -/

/-- The marks of a list whose closing bracket has not come. -/
def OpenList.marks (pending : OpenList) : List Mark :=
  .opening pending.bracket pending.span :: marksAll pending.latest.reverse

/-- The marks of all that has been read: of the forms, and of the open lists from the
outermost to the innermost. -/
def Progress.marks (progress : Progress) : List Mark :=
  (progress.latest.reverse.flatMap fun form => form.element.marks) ++
    progress.pending.reverse.flatMap OpenList.marks

/-- Whether all that is read from `first` to `last` are tokens, in their order. -/
structure Progress.Extends (first : Progress) (tokens : List (Located Token))
    (last : Progress) : Prop where
  symbols : first.symbols.names <+: last.symbols.names
  marks : ∃ added, last.marks = first.marks ++ added ∧
    List.Forall₂ (Mark.For last.symbols) tokens added

namespace Progress

variable {first middle last : Progress} {tokens others : List (Located Token)}

theorem Extends.refl (progress : Progress) : progress.Extends [] progress :=
  ⟨List.prefix_rfl, [], (List.append_nil _).symm, .nil⟩

theorem Extends.trans (h : first.Extends tokens middle) (h' : middle.Extends others last) :
    first.Extends (tokens ++ others) last := by
  obtain ⟨added, hadded, htokens⟩ := h.marks
  obtain ⟨added', hadded', hothers⟩ := h'.marks
  refine ⟨h.symbols.trans h'.symbols, added ++ added', ?_, ?_⟩
  · rw [hadded', hadded, List.append_assoc]
  · exact List.rel_append (htokens.imp fun _ _ hmark => hmark.mono h'.symbols) hothers

/-- An element that is added comes after all that was read. -/
theorem marks_add {progress next : Progress} {element : Element}
    (h : progress.add element = .ok next) :
    next.marks = progress.marks ++ element.marks ∧ next.symbols = progress.symbols := by
  obtain ⟨pending, latest, symbols⟩ := progress
  cases pending with
  | nil => cases h
  | cons innermost outer =>
    obtain rfl := Except.ok.inj h
    simp [marks, OpenList.marks, marksAll_eq_flatMap]

/-- A list that is complete comes after all that was read outside of it. -/
theorem marks_complete (progress : Progress) (form : Form) :
    (progress.complete form).marks = progress.marks ++ form.element.marks ∧
      (progress.complete form).symbols = progress.symbols := by
  obtain ⟨pending, latest, symbols⟩ := progress
  cases pending with
  | nil => simp [complete, marks]
  | cons innermost outer => simp [complete, marks, OpenList.marks, marksAll_eq_flatMap]

/-- A closing bracket comes after all that was read. -/
theorem marks_close {progress next : Progress} {bracket : Bracket} {span : Position}
    (h : progress.close bracket span = .ok next) :
    next.marks = progress.marks ++ [.closing bracket] ∧ next.symbols = progress.symbols := by
  obtain ⟨pending, latest, symbols⟩ := progress
  cases pending with
  | nil => cases h
  | cons innermost outer =>
    simp only [close] at h
    split at h
    next hbracket =>
      obtain rfl := Except.ok.inj h
      -- The marks of the list moved from the open lists to the elements, in the same place.
      obtain ⟨hmarks, hsymbols⟩ := marks_complete ⟨outer, latest, symbols⟩ innermost.form
      refine ⟨?_, hsymbols⟩
      rw [hmarks]
      simp [marks, OpenList.marks, OpenList.form, Form.element, Element.marks, hbracket]
    next => cases h

/-- A token that is taken adds its mark, unless it is layout. -/
theorem takeToken_extends {progress next : Progress} {token : Token} {span : Position}
    (h : progress.takeToken token span = .ok next) :
    progress.Extends (if token.isLayout then [] else [⟨token, span⟩]) next := by
  cases token with
  -- Layout leaves no mark, and what has been read stays as it is.
  | space | tab | comment text =>
    obtain rfl := Except.ok.inj h
    exact .refl progress
  | opening bracket =>
    obtain rfl := Except.ok.inj h
    -- The new list is the innermost, so its bracket is the latest mark.
    refine ⟨List.prefix_rfl, [.opening bracket span], ?_, .cons (.opening bracket span) .nil⟩
    simp [marks, OpenList.marks, marksAll]
  | closing bracket =>
    obtain ⟨hmarks, hsymbols⟩ := marks_close h
    exact ⟨hsymbols ▸ List.prefix_rfl, _, hmarks, .cons (.closing bracket span) .nil⟩
  | literal content =>
    obtain ⟨hmarks, hsymbols⟩ := marks_add h
    exact ⟨hsymbols ▸ List.prefix_rfl, _, hmarks, .cons (.string content span) .nil⟩
  | symbol name =>
    simp only [takeToken] at h
    split at h
    next => cases h
    next =>
      -- Reading a symbol may add its name to the table, and then the element is added.
      obtain ⟨hnames, hatom, hmark⟩ := classify_spec progress.symbols name span
      obtain ⟨hmarks, hsymbols⟩ := marks_add h
      rw [hatom] at hmarks
      refine ⟨hsymbols ▸ hnames, _, hmarks, .cons ?_ .nil⟩
      rw [hsymbols]
      exact hmark

/-- An item that is taken has a token, and adds its mark. -/
theorem take_extends {progress next : Progress} {item : Item}
    (h : progress.take item = .ok next) :
    (∃ token, item.reading = .ok token) ∧ progress.Extends item.significant?.toList next := by
  unfold take at h
  unfold Item.significant?
  cases hreading : item.reading with
  | error error =>
    rw [hreading] at h
    cases h
  | ok token =>
    rw [hreading] at h
    have hextends := takeToken_extends h
    refine ⟨⟨token, rfl⟩, ?_⟩
    cases hlayout : token.isLayout with
    | false => simpa [hlayout] using hextends
    | true => simpa [hlayout] using hextends

/-- If items are read as forms, each of them has a token, and these are what the forms
were read from. -/
theorem run_extends {progress : Progress} {stop : Position} {items : List Item}
    {forms : List Form} (h : (progress.run stop items).1 = .ok forms) :
    Readable items ∧ ∃ last : Progress, last.pending = [] ∧ last.latest.reverse = forms ∧
      last.symbols = (progress.run stop items).2 ∧
      progress.Extends (significant items) last := by
  induction items generalizing progress with
  | nil =>
    -- At the end of the text no list may be open.
    have hfinish : progress.finish stop = .ok forms := h
    unfold finish at hfinish
    split at hfinish
    next hempty =>
      have hpending : progress.pending = [] := List.isEmpty_iff.1 hempty
      exact ⟨List.forall_mem_nil _, progress, hpending, Except.ok.inj hfinish, rfl, .refl _⟩
    next => cases hfinish
  | cons item others ih =>
    cases htake : progress.take item with
    | error error =>
      rw [run, htake] at h
      cases h
    | ok next =>
      have hrun : progress.run stop (item :: others) = next.run stop others := by
        rw [run, htake]
      rw [hrun] at h ⊢
      obtain ⟨hreadable, last, hpending, hforms, hsymbols, hlast⟩ := ih h
      obtain ⟨htoken, hnext⟩ := take_extends htake
      refine ⟨List.forall_mem_cons.2 ⟨htoken, hreadable⟩, last, hpending, hforms, hsymbols, ?_⟩
      rw [significant_cons]
      exact hnext.trans hlast

/-- Reading only adds names to the table, also when it ends with an error. -/
theorem prefix_run (progress : Progress) (stop : Position) (items : List Item) :
    progress.symbols.names <+: (progress.run stop items).2.names := by
  induction items generalizing progress with
  | nil => exact List.prefix_rfl
  | cons item others ih =>
    rw [run]
    cases htake : progress.take item with
    | error error => exact List.prefix_rfl
    | ok next => exact (take_extends htake).2.symbols.trans (ih next)

/-! ### What can be read -/

/-- The kinds of the lists that are open, innermost first. -/
def nesting (progress : Progress) : List Bracket :=
  progress.pending.map OpenList.bracket

/-- Only lists that are open count for the nesting. -/
theorem nesting_complete (progress : Progress) (form : Form) :
    (progress.complete form).nesting = progress.nesting := by
  obtain ⟨pending, latest, symbols⟩ := progress
  cases pending <;> rfl

/-- A token that is in place among the open brackets is taken. -/
theorem takeToken_of_nest {progress : Progress} {token : Token} {after : List Bracket}
    (h : nest progress.nesting token = some after) (span : Position) :
    ∃ next, progress.takeToken token span = .ok next ∧ next.nesting = after := by
  obtain ⟨pending, latest, symbols⟩ := progress
  cases token with
  | space | tab | comment text =>
    cases pending <;> exact ⟨_, rfl, Option.some.inj h⟩
  | opening bracket => exact ⟨_, rfl, Option.some.inj h⟩
  | closing bracket =>
    cases pending with
    | nil => cases h
    | cons innermost outer =>
      simp only [nesting, List.map_cons, nest, Option.ite_none_right_eq_some,
        Option.some.injEq] at h
      -- The kinds agree, so the list is complete and its parent is innermost again.
      obtain ⟨hbracket, hafter⟩ := h
      refine ⟨_, if_pos hbracket, ?_⟩
      rw [nesting_complete]
      exact hafter
  | literal content =>
    cases pending with
    | nil => cases h
    | cons innermost outer => exact ⟨_, rfl, Option.some.inj h⟩
  | symbol name =>
    cases pending with
    | nil => cases h
    | cons innermost outer => exact ⟨_, rfl, Option.some.inj h⟩

/-- An item whose token is layout or in place is taken. -/
theorem take_of_nestAll {progress : Progress} {item : Item} {token : Token}
    (hreading : item.reading = .ok token) {after : List Bracket}
    (h : nestAll progress.nesting (item.significant?.toList.map Located.value) = some after) :
    ∃ next, progress.take item = .ok next ∧ next.nesting = after := by
  have hnest : nest progress.nesting token = some after := by
    cases hlayout : token.isLayout with
    | true =>
      rw [nest_of_isLayout hlayout]
      simpa [Item.significant?, hreading, hlayout, nestAll] using h
    | false => simpa [Item.significant?, hreading, hlayout, nestAll] using h
  obtain ⟨next, hnext, hnesting⟩ := takeToken_of_nest hnest item.start
  refine ⟨next, ?_, hnesting⟩
  rw [take, hreading]
  exact hnext

/-- Items are read as forms if their tokens are in place, each after the ones before it,
and leave no bracket open. -/
theorem run_of_nestAll {progress : Progress} {items : List Item} (stop : Position)
    (hreadable : Readable items)
    (h : nestAll progress.nesting ((significant items).map Located.value) = some []) :
    ∃ forms, (progress.run stop items).1 = .ok forms := by
  induction items generalizing progress with
  | nil =>
    have hnesting : progress.nesting = [] := Option.some.inj h
    have hpending : progress.pending = [] := List.map_eq_nil_iff.1 hnesting
    exact ⟨progress.latest.reverse, by simp [run, finish, hpending]⟩
  | cons item others ih =>
    obtain ⟨⟨token, hreading⟩, hothers⟩ := List.forall_mem_cons.1 hreadable
    rw [significant_cons, List.map_append, nestAll_append] at h
    -- What is open after the first item is all that the others have to fit to.
    obtain ⟨after, hafter, hrest⟩ := Option.bind_eq_some_iff.1 h
    obtain ⟨next, hnext, hnesting⟩ := take_of_nestAll hreading hafter
    obtain ⟨forms, hforms⟩ := ih hothers (hnesting ▸ hrest)
    refine ⟨forms, ?_⟩
    rw [run, hnext]
    exact hforms

end Progress

end Parse

/-! ### Texts -/

/-- Parsing only adds names to the table. -/
theorem prefix_parse (source : String) (text : List Char) (table : SymbolTable) :
    table.names <+: (parse source text table).2.names :=
  Parse.Progress.prefix_run (Parse.start table) _ _

/-- The parser accepts exactly the texts of the grammar, and loses nothing. A text has
forms if and only if every item has a token and the tokens, without layout, are forms of
the grammar. Then the marks of the forms stand for these tokens one by one: brackets of
the same kinds, at the same depths and in the same order, with atoms between them that
read as the tokens do, all in their places. -/
theorem parse_iff_isText (source : String) (text : List Char) (table : SymbolTable) :
    ((∃ forms, (parse source text table).1 = .ok forms) ↔
      (∀ item ∈ scan source text, ∃ token, item.reading = .ok token) ∧
        IsText ((significant (scan source text)).map Located.value)) ∧
    ∀ forms, (parse source text table).1 = .ok forms →
      List.Forall₂ (Mark.For (parse source text table).2) (significant (scan source text))
        (forms.flatMap fun form => form.element.marks) := by
  have hmarks (forms : List Form) (h : (parse source text table).1 = .ok forms) :
      Readable (scan source text) ∧
        List.Forall₂ (Mark.For (parse source text table).2) (significant (scan source text))
          (forms.flatMap fun form => form.element.marks) := by
    obtain ⟨hreadable, last, hpending, hforms, hsymbols, hlast⟩ := Parse.Progress.run_extends h
    obtain ⟨added, hadded, htokens⟩ := hlast.marks
    -- At the start nothing has been read, and at the end no list is open.
    have hall : added = forms.flatMap fun form => form.element.marks := by
      simpa [Parse.Progress.marks, Parse.start, hpending, hforms] using hadded.symm
    rw [hsymbols, hall] at htokens
    exact ⟨hreadable, htokens⟩
  refine ⟨⟨?_, ?_⟩, fun forms h => (hmarks forms h).2⟩
  · rintro ⟨forms, h⟩
    obtain ⟨hreadable, htokens⟩ := hmarks forms h
    exact ⟨hreadable, isText_of_marks htokens⟩
  · rintro ⟨hreadable, htext⟩
    exact Parse.Progress.run_of_nestAll _ hreadable (nestAll_of_isText htext)

end BracketLisp
