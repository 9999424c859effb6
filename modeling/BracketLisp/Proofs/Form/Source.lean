import BracketLisp.Proofs.Form.Offence
import BracketLisp.Proofs.Form.Origin
import BracketLisp.Proofs.Form.Unplaced
import BracketLisp.Proofs.Numeral.Decimal
import BracketLisp.Proofs.Token.Spelling

/-!
# `BracketLisp.Proofs.Form.Source`: forms written out as source

Forms that were read from a text can be written as one line of source, and that line reads as
the same forms again, whatever the text they came from looked like. Floats are left out: nothing
is said about what their written form reads as.

* `Element.source` writes an element, with single spaces between the elements of a list.
* `Element.Written` says which nodes are written as a token that reads as them, and
  `written_of_parse` finds that the nodes of parsed forms are of this kind. So a name that
  looks like a number or a literal never comes up as a symbol.
* `spells_source` reads a written element as tokens that its marks stand for. As the same
  holds of the parse of these tokens, `parse_sourceLine` concludes that it gives the same
  forms.
-/

set_option autoImplicit false

namespace BracketLisp

open Text

/-! ### Writing -/

mutual

/-- An element as source. A symbol is written as its name in the table. -/
def Element.source (table : SymbolTable) : Element → List Char
  | .list bracket elements _ =>
    bracket.opening :: ([' '].intercalate (sources table elements) ++ [bracket.closing])
  | .int value _ => (toString value.toInt).toList
  | .float value _ => (Decimal.floatText value).toList
  | .string content _ => '"' :: (Literal.escape content.toList ++ ['"'])
  | .symbol id _ => (table.label id).toList

/-- Several elements as source each. -/
def sources (table : SymbolTable) : List Element → List (List Char)
  | [] => []
  | element :: others => element.source table :: sources table others

end

/-- Forms as one line of source. -/
def sourceLine (table : SymbolTable) (forms : List Form) : List Char :=
  [' '].intercalate (sources table (forms.map Form.element))

/-- Whether a node is written as a token that reads as it: every node except for floats, and
symbols whose name would be read as anything else. -/
def Element.Written (table : SymbolTable) : Element → Prop
  | .float _ _ => False
  | .symbol id _ => ∃ name, table.nameOf id = .ok name ∧ IsBare name.toList ∧
      '\n' ∉ name.toList ∧ Numeral.integer? name.toList = none ∧
      Numeral.float? name.toList = none
  | _ => True

/-- No digit and no sign ends a bare token or is special at its start. -/
theorem not_special_of_mem_int {n : Int} {c : Char} (h : c ∈ (toString n).toList) :
    ¬ (EndsSymbol c ∨ c = '"' ∨ c = '\n') := by
  intro hspecial
  have hplain : c ≠ '-' ∧ c.isDigit = false := by
    rcases hspecial with (rfl | rfl | rfl | ⟨bracket, rfl | rfl⟩) | rfl | rfl
    · decide
    · decide
    · decide
    · cases bracket <;> decide
    · cases bracket <;> decide
    · decide
    · decide
  rcases Numeral.minus_or_isDigit_of_mem h with hminus | hdigit
  · exact hplain.1 hminus
  · simp [hplain.2] at hdigit

/-- An integer is written as a bare token. -/
theorem isBare_int (n : Int) : IsBare (toString n).toList where
  ne_nil := by
    rw [Numeral.toList_toString_int]
    exact List.append_ne_nil_of_right_ne_nil _ Nat.toDigits_ne_nil
  quote := fun h => not_special_of_mem_int (List.mem_of_mem_head? h) (.inr (.inl rfl))
  chars := fun _ hc hends => not_special_of_mem_int hc (.inl hends)

/-! ### Reading what was written -/

mutual

/-- A written element spells tokens that its marks stand for. -/
theorem Element.spells_source {table : SymbolTable} (element : Element)
    (h : ∀ node ∈ element.nodes, node.Written table) :
    ∃ tokens, List.Forall₂ (Mark.For table) tokens element.marks ∧
      Spells (element.source table) (tokens.map Located.value) := by
  cases element with
  | list bracket elements span =>
    obtain ⟨tokens, hmarks, hspells⟩ :=
      spells_sources elements fun node hnode => h node (List.mem_cons_of_mem _ hnode)
    refine ⟨⟨.opening bracket, span⟩ :: (tokens ++ [⟨.closing bracket, span⟩]), ?_, ?_⟩
    · exact .cons (.opening bracket span)
        (List.rel_append hmarks (.cons (.closing bracket span) .nil))
    · rw [List.map_cons, List.map_append]
      exact hspells.brackets bracket
  | int value span =>
    refine ⟨[⟨.symbol (toString value.toInt), span⟩], .cons (.int span ?_) .nil, ?_⟩
    · exact Numeral.integer?_toString value
    · exact .symbol (isBare_int value.toInt)
  | float value span => exact absurd (h _ (List.mem_cons_self ..)) id
  | string content span =>
    exact ⟨[⟨.literal content, span⟩], .cons (.string content span) .nil, .literal content⟩
  | symbol id span =>
    obtain ⟨name, hname, hbare, -, hint, hfloat⟩ := h _ (List.mem_cons_self ..)
    refine ⟨[⟨.symbol name, span⟩], .cons (.symbol span hint hfloat hname) .nil, ?_⟩
    rw [Element.source, SymbolTable.label_of_nameOf hname]
    exact .symbol hbare

/-- Written elements, joined by spaces, spell tokens that their marks stand for. -/
theorem spells_sources {table : SymbolTable} (elements : List Element)
    (h : ∀ node ∈ nodesAll elements, node.Written table) :
    ∃ tokens, List.Forall₂ (Mark.For table) tokens (marksAll elements) ∧
      Spells ([' '].intercalate (sources table elements)) (tokens.map Located.value) := by
  cases elements with
  | nil => exact ⟨[], .nil, Spells.join_nil⟩
  | cons element others =>
    obtain ⟨first, hfirst, hspells⟩ :=
      Element.spells_source element fun node hnode => h node (List.mem_append_left _ hnode)
    obtain ⟨second, hsecond, hjoined⟩ :=
      spells_sources others fun node hnode => h node (List.mem_append_right _ hnode)
    refine ⟨first ++ second, List.rel_append hfirst hsecond, ?_⟩
    rw [List.map_append]
    exact hspells.join_cons hjoined

end

/-- No line feed comes up where characters without one are joined by spaces. -/
theorem not_mem_join {texts : List (List Char)} (h : ∀ text ∈ texts, '\n' ∉ text) :
    '\n' ∉ [' '].intercalate texts := by
  induction texts with
  | nil => simp
  | cons text texts ih =>
    rw [List.forall_mem_cons] at h
    cases texts with
    | nil => simpa using h.1
    | cons next texts =>
      rw [List.intercalate_cons_cons]
      simp [h.1, ih h.2]

mutual

/-- A written element stays on one line. -/
theorem Element.not_mem_source {table : SymbolTable} (element : Element)
    (h : ∀ node ∈ element.nodes, node.Written table) : '\n' ∉ element.source table := by
  cases element with
  | list bracket elements span =>
    have hinner := not_mem_join
      (not_mem_sources elements fun node hnode => h node (List.mem_cons_of_mem _ hnode))
    cases bracket <;> simp [Element.source, Bracket.opening, Bracket.closing, hinner]
  | int value span => exact fun hmem => not_special_of_mem_int hmem (.inr (.inr rfl))
  | float value span => exact absurd (h _ (List.mem_cons_self ..)) id
  | string content span => simp [Element.source, Literal.not_mem_escape]
  | symbol id span =>
    obtain ⟨name, hname, -, hfeed, -⟩ := h _ (List.mem_cons_self ..)
    rw [Element.source, SymbolTable.label_of_nameOf hname]
    exact hfeed

/-- Written elements stay on one line. -/
theorem not_mem_sources {table : SymbolTable} (elements : List Element)
    (h : ∀ node ∈ nodesAll elements, node.Written table) :
    ∀ text ∈ sources table elements, '\n' ∉ text := by
  cases elements with
  | nil => exact List.forall_mem_nil _
  | cons element others =>
    exact List.forall_mem_cons.2
      ⟨Element.not_mem_source element fun node hnode => h node (List.mem_append_left _ hnode),
        not_mem_sources others fun node hnode => h node (List.mem_append_right _ hnode)⟩

end

/-! ### Round trip -/

/-- The nodes of parsed forms are written as what they are read from, floats apart. -/
theorem written_of_parse {source : String} {text : List Char} {table : SymbolTable}
    {forms : List Form} (h : (parse source text table).1 = .ok forms) {form : Form}
    (hform : form ∈ forms) {node : Element} (hnode : node ∈ form.element.nodes)
    (hfloat : ∀ value span, node ≠ .float value span) :
    node.Written (parse source text table).2 := by
  obtain ⟨⟨token, span⟩, htoken, hmark⟩ := token_of_node h hform hnode
  obtain ⟨item, hitem, -, hreading⟩ := item_of_token htoken
  cases node with
  | list bracket elements place => trivial
  | int value place => trivial
  | float value place => exact absurd rfl (hfloat value place)
  | string content place => trivial
  | symbol id place =>
    -- The name of the symbol is that of a bare token in the text.
    cases hmark with
    | @symbol name _ _ hint hnone hname =>
      obtain ⟨hbare, hfeed⟩ := isBare_of_mem_scan hitem hreading
      exact ⟨name, hname, hbare, hfeed, hint, hnone⟩

/-- A bare token that is no number has a name of the table if there is a mark for it. -/
theorem mem_names_of_marks {table : SymbolTable} {tokens : List (Located Token)}
    {marks : List Mark} (h : List.Forall₂ (Mark.For table) tokens marks) {name : String}
    (hmem : .symbol name ∈ tokens.map Located.value)
    (hint : Numeral.integer? name.toList = none) (hfloat : Numeral.float? name.toList = none) :
    name ∈ table.names := by
  induction h with
  | nil => cases hmem
  | @cons token mark others marks hmark _ ih =>
    rw [List.map_cons, List.mem_cons] at hmem
    rcases hmem with hfirst | hothers
    · obtain ⟨_, span⟩ := token
      obtain rfl : Token.symbol name = _ := hfirst
      cases hmark with
      | int _ hsome => simp [hint] at hsome
      | float _ _ hsome => simp [hfloat] at hsome
      | symbol _ _ _ hname => exact SymbolTable.mem_names_iff.2 ⟨_, hname⟩
    · exact ih hothers

/-- Items whose tokens have marks in a table add no name to it. -/
theorem mem_names_of_name? {table : SymbolTable} {items : List Item}
    {tokens : List (Located Token)} {marks : List Mark}
    (htokens : (significant items).map Located.value = tokens.map Located.value)
    (hmarks : List.Forall₂ (Mark.For table) tokens marks) {item : Item} (hitem : item ∈ items)
    {name : String} (hname : item.name? = some name) : name ∈ table.names := by
  obtain ⟨hreading, hint, hfloat⟩ := Item.of_name? hname
  have htoken : item.significant? = some ⟨.symbol name, item.start⟩ := by
    simp [Item.significant?, hreading, Token.isLayout]
  have hmem : .symbol name ∈ (significant items).map Located.value :=
    List.mem_map.2 ⟨_, List.mem_filterMap.2 ⟨item, hitem, htoken⟩, rfl⟩
  exact mem_names_of_marks hmarks (htokens ▸ hmem) hint hfloat

/-- Parsed forms without floats, written as one line of source, are read from that line
again. The second parse gives the same forms at other places, and the table stays as the
first parse left it. -/
theorem parse_sourceLine {source : String} {text : List Char} {table later : SymbolTable}
    {forms : List Form} (h : parse source text table = (.ok forms, later))
    (hfloat : ∀ form ∈ forms, ∀ value span, Element.float value span ∉ form.element.nodes)
    (name : String) :
    '\n' ∉ sourceLine later forms ∧
      ∃ again, parse name (sourceLine later forms) later = (.ok again, later) ∧
        again.map Form.unplaced = forms.map Form.unplaced := by
  have hforms : (parse source text table).1 = .ok forms := congrArg Prod.fst h
  have hlater : (parse source text table).2 = later := congrArg Prod.snd h
  have hwritten : ∀ node ∈ nodesAll (forms.map Form.element), node.Written later := by
    intro node hnode
    rw [nodesAll_eq_flatMap, List.flatMap_map] at hnode
    obtain ⟨form, hform, hmem⟩ := List.mem_flatMap.1 hnode
    rw [← hlater]
    exact written_of_parse hforms hform hmem fun value span heq =>
      hfloat form hform value span (heq ▸ hmem)
  obtain ⟨tokens, hmarks, hspells⟩ := spells_sources (forms.map Form.element) hwritten
  rw [marksAll_eq_flatMap, List.flatMap_map] at hmarks
  have hfeed : '\n' ∉ sourceLine later forms := not_mem_join (not_mem_sources _ hwritten)
  have hline : ReadsAs (sourceLine later forms) (tokens.map Located.value) := hspells.readsAs
  obtain ⟨hreadable, htokens⟩ := hline.scan hfeed name
  -- The marks of the forms stand for the tokens of the line, which therefore are a text.
  have hnest : nestAll (Parse.start later).nesting
      ((significant (scan name (sourceLine later forms))).map Located.value) = some [] := by
    rw [htokens]
    exact nestAll_of_isText (isText_of_marks hmarks)
  obtain ⟨again, hagain⟩ :=
    Parse.Progress.run_of_nestAll (endOf name (sourceLine later forms)) hreadable hnest
  have htable : (parse name (sourceLine later forms) later).2 = later :=
    (Parse.start later).symbols_run fun _ hitem _ hsymbol =>
      mem_names_of_name? htokens hmarks hitem hsymbol
  have hmarks' := marks_of_parse hagain
  rw [htable] at hmarks'
  exact ⟨hfeed, again, Prod.ext hagain htable, unplaced_eq_of_tokens htokens hmarks' hmarks⟩

/-- A symbol that holds a quote and ends in a backslash, the least integer, one in base
sixteen, and a literal with escapes, on two lines with a comment. -/
theorem parse_sourceLine_two_lines :
    ∃ (text : List Char) (forms : List Form) (later : SymbolTable),
      parse "t" text .empty = (.ok forms, later) ∧
      (∀ form ∈ forms, ∀ value span, Element.float value span ∉ form.element.nodes) ∧
      sourceLine later forms =
        "(a\"b\\ [-9223372036854775808 16]) \x7b\"q\\\"\\x01A\" () 1__2\x7d".toList ∧
      '\n' ∉ sourceLine later forms ∧
      ∃ again, parse "u" (sourceLine later forms) later = (.ok again, later) ∧
        again.map Form.unplaced = forms.map Form.unplaced := by
  let text := "(a\"b\\\t[-9223372036854775808 0x1_0]) ; 1
\x7b\"q\\\"\\x01\\101\" () 1__2\x7d".toList
  let later : SymbolTable := .ofNames ["a\"b\\", "1__2"]
  let forms : List Form :=
    [⟨.paren, [.symbol ⟨0⟩ ⟨"t", 1, 2⟩, .list .square
        [.int Int64.minValue ⟨"t", 1, 8⟩, .int 16 ⟨"t", 1, 29⟩] ⟨"t", 1, 7⟩], ⟨"t", 1, 1⟩⟩,
      ⟨.curly, [.string "q\"\x01A" ⟨"t", 2, 2⟩, .list .paren [] ⟨"t", 2, 16⟩,
        .symbol ⟨1⟩ ⟨"t", 2, 19⟩], ⟨"t", 2, 1⟩⟩]
  have hparse : parse "t" text .empty = (.ok forms, later) := by with_unfolding_all rfl
  have hfloat : ∀ form ∈ forms, ∀ value span, Element.float value span ∉ form.element.nodes := by
    simp [forms, Form.element, Element.nodes, nodesAll]
  obtain ⟨hfeed, hagain⟩ := parse_sourceLine hparse hfloat "u"
  exact ⟨text, forms, later, hparse, hfloat, by decide +kernel, hfeed, hagain⟩

end BracketLisp
