import BracketLisp.Proofs.Form.Nodes
import BracketLisp.Proofs.Form.Reading

/-!
# `BracketLisp.Proofs.Form.Origin`: what nodes and errors come from

Every node of a parsed form comes from a token of its text: a list from its opening
bracket, an atom from its only token. So a node stands where its token does, and a symbol
has the name that is written there.

* `Element.mark` is the mark of a node, and `token_of_node` finds the token behind it.
* `Parse.ErrorFrom` lists what an error of the parser can come from, and `errorFrom_run`
  shows that there is nothing else.
-/

set_option autoImplicit false

namespace BracketLisp

/-! ### Nodes -/

/-- The first of the marks of an element. -/
def Element.mark : Element → Mark
  | .list bracket _ span => .opening bracket span
  | element => .atom element

mutual

/-- Every node of an element has its mark among those of the element. -/
theorem Element.mark_mem_marks {node : Element} (element : Element) (h : node ∈ element.nodes) :
    node.mark ∈ element.marks := by
  cases element with
  | list bracket elements span =>
    rcases List.mem_cons.1 h with rfl | hmem
    · exact List.mem_cons_self ..
    · exact List.mem_cons_of_mem _ (List.mem_append_left _ (mark_mem_marksAll elements hmem))
  | _ =>
    obtain rfl := List.mem_singleton.1 h
    exact List.mem_cons_self ..

/-- Every node of several elements has its mark among theirs. -/
theorem mark_mem_marksAll {node : Element} (elements : List Element)
    (h : node ∈ nodesAll elements) : node.mark ∈ marksAll elements := by
  cases elements with
  | nil => cases h
  | cons element others =>
    rcases List.mem_append.1 h with hfirst | hothers
    · exact List.mem_append_left _ (Element.mark_mem_marks element hfirst)
    · exact List.mem_append_right _ (mark_mem_marksAll others hothers)

end

/-- The marks of parsed forms stand for the tokens of the text, one by one. -/
theorem marks_of_parse {source : String} {text : List Char} {table : SymbolTable}
    {forms : List Form} (h : (parse source text table).1 = .ok forms) :
    List.Forall₂ (Mark.For (parse source text table).2) (significant (scan source text))
      (forms.flatMap fun form => form.element.marks) := by
  obtain ⟨-, last, hpending, hforms, hsymbols, hlast⟩ := Parse.Progress.run_extends h
  obtain ⟨added, hadded, htokens⟩ := hlast.marks
  -- At the start nothing has been read, and at the end no list is open.
  have hall : added = forms.flatMap fun form => form.element.marks := by
    simpa [Parse.Progress.marks, Parse.start, hpending, hforms] using hadded.symm
  rw [hsymbols, hall] at htokens
  exact htokens

/-- Every node of a parsed form comes from a token of the text. -/
theorem token_of_node {source : String} {text : List Char} {table : SymbolTable}
    {forms : List Form} (h : (parse source text table).1 = .ok forms) {form : Form}
    (hform : form ∈ forms) {node : Element} (hnode : node ∈ form.element.nodes) :
    ∃ token ∈ significant (scan source text),
      Mark.For (parse source text table).2 token node.mark := by
  have hmark : node.mark ∈ forms.flatMap fun form => form.element.marks :=
    List.mem_flatMap.2 ⟨form, hform, Element.mark_mem_marks _ hnode⟩
  have htokens := marks_of_parse h
  obtain ⟨before, after, hmarks⟩ := List.append_of_mem hmark
  rw [hmarks] at htokens
  obtain ⟨earlier, others, heq, -, hothers⟩ := Mark.For.split htokens
  obtain ⟨token, later, htoken, -, rfl⟩ := List.forall₂_cons_right_iff.1 hothers
  refine ⟨token, ?_, htoken⟩
  rw [heq]
  exact List.mem_append_right _ (List.mem_cons_self ..)

/-- A token that means something is that of an item, and stands where the item does. -/
theorem item_of_token {items : List Item} {token : Located Token} (h : token ∈ significant items) :
    ∃ item ∈ items, item.start = token.span ∧ item.reading = .ok token.value := by
  obtain ⟨item, hitem, htoken⟩ := List.mem_filterMap.1 h
  exact ⟨item, hitem, Item.of_significant? htoken⟩

/-! ### Errors -/

namespace Parse

/-- What an error of the parser can come from: an item that has an error itself, a closing
bracket or an atom that is out of place, or the end of the text. -/
inductive ErrorFrom (items : List Item) (stop : Position) : ParseError → Prop where
  | item {item : Item} {error : ParseError} (h : item ∈ items)
      (hreading : item.reading = .error error) : ErrorFrom items stop error
  | closing {item : Item} {bracket : Bracket} (h : item ∈ items)
      (hreading : item.reading = .ok (.closing bracket)) :
      ErrorFrom items stop ⟨.unexpectedChar bracket.closing, item.start⟩
  | atom {item : Item} (h : item ∈ items) :
      ErrorFrom items stop ⟨.atomAtTopLevel, item.start⟩
  | stop : ErrorFrom items stop ⟨.unclosedList, stop⟩

theorem ErrorFrom.cons {items : List Item} {stop : Position} {error : ParseError}
    (h : ErrorFrom items stop error) (first : Item) : ErrorFrom (first :: items) stop error := by
  cases h with
  | item hmem hreading => exact .item (List.mem_cons_of_mem _ hmem) hreading
  | closing hmem hreading => exact .closing (List.mem_cons_of_mem _ hmem) hreading
  | atom hmem => exact .atom (List.mem_cons_of_mem _ hmem)
  | stop => exact .stop

namespace Progress

/-- An element can only be added inside of a list. -/
theorem error_add {progress : Progress} {element : Element} {error : ParseError}
    (h : progress.add element = .error error) :
    progress.pending = [] ∧ error = ⟨.atomAtTopLevel, element.span⟩ := by
  obtain ⟨pending, latest, symbols⟩ := progress
  cases pending with
  | nil => exact ⟨rfl, (Except.error.inj h).symm⟩
  | cons innermost outer => cases h

/-- An item that is not taken is what the error comes from. -/
theorem errorFrom_take {progress : Progress} {item : Item} {error : ParseError}
    (h : progress.take item = .error error) (others : List Item) (stop : Position) :
    ErrorFrom (item :: others) stop error := by
  have hmem : item ∈ item :: others := List.mem_cons_self ..
  cases hreading : item.reading with
  | error error =>
    simp only [take, hreading] at h
    exact Except.error.inj h ▸ .item hmem hreading
  | ok token =>
    simp only [take, hreading] at h
    cases token with
    | space | tab | comment text | opening bracket => cases h
    | closing bracket =>
      simp only [takeToken, close] at h
      split at h
      · exact Except.error.inj h ▸ .closing hmem hreading
      · split at h
        · cases h
        · exact Except.error.inj h ▸ .closing hmem hreading
    | literal content =>
      obtain ⟨-, rfl⟩ := error_add h
      exact .atom hmem
    | symbol name =>
      simp only [takeToken] at h
      split at h
      · exact Except.error.inj h ▸ .atom hmem
      -- Inside of a list, reading the symbol and adding it succeed.
      next hpending =>
        obtain ⟨hempty, -⟩ := error_add h
        exact absurd (List.isEmpty_iff.2 hempty) hpending

/-- Every error comes from an item or from the end of the text. -/
theorem errorFrom_run {progress : Progress} {stop : Position} {items : List Item}
    {error : ParseError} (h : (progress.run stop items).1 = .error error) :
    ErrorFrom items stop error := by
  induction items generalizing progress with
  | nil =>
    simp only [run, finish] at h
    split at h
    · cases h
    · exact Except.error.inj h ▸ .stop
  | cons item others ih =>
    cases htake : progress.take item with
    | error error =>
      rw [run, htake] at h
      exact Except.error.inj h ▸ errorFrom_take htake others stop
    | ok next =>
      rw [run, htake] at h
      exact (ih h).cons item

end Progress

end Parse

end BracketLisp
