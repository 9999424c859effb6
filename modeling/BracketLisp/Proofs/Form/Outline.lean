import BracketLisp.Form.Outline
import BracketLisp.Proofs.Form.Source

/-!
# `BracketLisp.Proofs.Form.Outline`: outlines are unambiguous

An outline is one text, in which the tree shows only by how far its lines are indented. Still,
two forms without floats that have the same outline have the same nodes at the same lines and
columns, whatever stands in their strings and symbols.

* `Element.entries` are the nodes of an element, each with its indentation. The lines of the
  outline are their headlines (`Element.outline_eq_map`).
* `lines_intercalate` gets the lines back from the text, and `headline_eq_iff` what a headline
  tells: the indentation, the line and the column, and the node without its elements.
* `Element.alike_of_entries` puts the tree together again. What belongs to a list is indented
  further than the list, and what follows the list is not.
-/

set_option autoImplicit false

namespace BracketLisp

open Text

/-! ### Nodes and their indentations -/

mutual

/-- The nodes of an element with their indentations, if the element itself has `indent`. -/
def Element.entries (indent : Nat) : Element → List (Nat × Element)
  | .list bracket elements span =>
    (indent, .list bracket elements span) :: entriesAll (indent + 2) elements
  | .int value span => [(indent, .int value span)]
  | .float value span => [(indent, .float value span)]
  | .string content span => [(indent, .string content span)]
  | .symbol id span => [(indent, .symbol id span)]

/-- The nodes of several elements with their indentations. -/
def entriesAll (indent : Nat) : List Element → List (Nat × Element)
  | [] => []
  | element :: others => element.entries indent ++ entriesAll indent others

end

mutual

theorem Element.map_entries (indent : Nat) (element : Element) :
    (element.entries indent).map Prod.snd = element.nodes := by
  cases element with
  | list bracket elements span => exact congrArg (_ :: ·) (map_entriesAll (indent + 2) elements)
  | _ => rfl

theorem map_entriesAll (indent : Nat) (elements : List Element) :
    (entriesAll indent elements).map Prod.snd = nodesAll elements := by
  cases elements with
  | nil => rfl
  | cons element others =>
    rw [entriesAll, List.map_append, Element.map_entries indent element,
      map_entriesAll indent others, nodesAll]

end

mutual

/-- The lines of an outline are the headlines of the nodes. -/
theorem Element.outline_eq_map (table : SymbolTable) (indent : Nat) (element : Element) :
    element.outline table indent =
      (element.entries indent).map fun entry => entry.2.headline table entry.1 := by
  cases element with
  | list bracket elements span =>
    exact congrArg (_ :: ·) (outlineAll_eq_map table (indent + 2) elements)
  | _ => rfl

theorem outlineAll_eq_map (table : SymbolTable) (indent : Nat) (elements : List Element) :
    outlineAll table indent elements =
      (entriesAll indent elements).map fun entry => entry.2.headline table entry.1 := by
  cases elements with
  | nil => rfl
  | cons element others =>
    rw [outlineAll, entriesAll, List.map_append, Element.outline_eq_map table indent element,
      outlineAll_eq_map table indent others]

end

mutual

/-- An element that is indented further has all its nodes indented further. -/
theorem Element.entries_add (indent more : Nat) (element : Element) :
    element.entries (indent + more) =
      (element.entries indent).map fun entry => (entry.1 + more, entry.2) := by
  cases element with
  | list bracket elements span =>
    have hinner := entriesAll_add (indent + 2) more elements
    rw [Nat.add_right_comm] at hinner
    exact congrArg (_ :: ·) hinner
  | _ => rfl

theorem entriesAll_add (indent more : Nat) (elements : List Element) :
    entriesAll (indent + more) elements =
      (entriesAll indent elements).map fun entry => (entry.1 + more, entry.2) := by
  cases elements with
  | nil => rfl
  | cons element others =>
    rw [entriesAll, entriesAll, List.map_append, Element.entries_add indent more element,
      entriesAll_add indent more others]

end

/-! ### Headlines -/

/-- What stands before and after the last occurrence of a character is determined. -/
theorem append_cons_inj_of_last {c : Char} {front front' back back' : List Char}
    (h : front ++ c :: back = front' ++ c :: back') (hback : c ∉ back) (hback' : c ∉ back') :
    front = front' ∧ back = back' := by
  obtain ⟨middle, rfl, heq⟩ | ⟨middle, rfl, heq⟩ := List.append_eq_append_iff.1 h
  · cases middle with
    | nil => exact ⟨(List.append_nil _).symm, (List.cons.inj heq).2⟩
    | cons d middle =>
      rw [(List.cons.inj heq).2] at hback
      exact absurd (List.mem_append_right _ (List.mem_cons_self ..)) hback
  · cases middle with
    | nil => exact ⟨List.append_nil _, (List.cons.inj heq).2.symm⟩
    | cons d middle =>
      rw [(List.cons.inj heq).2] at hback'
      exact absurd (List.mem_append_right _ (List.mem_cons_self ..)) hback'

/-- The number of spaces before another character is determined. -/
theorem replicate_append_inj {c d : Char} (hc : c ≠ ' ') (hd : d ≠ ' ') {i j : Nat}
    {rest rest' : List Char}
    (h : List.replicate i ' ' ++ c :: rest = List.replicate j ' ' ++ d :: rest') :
    i = j ∧ c :: rest = d :: rest' := by
  induction i generalizing j with
  | zero =>
    cases j with
    | zero => exact ⟨rfl, h⟩
    | succ j => exact absurd (List.cons.inj h).1 hc
  | succ i ih =>
    cases j with
    | zero => exact absurd (List.cons.inj h).1.symm hd
    | succ j =>
      obtain ⟨rfl, hrest⟩ := ih (List.cons.inj h).2
      exact ⟨rfl, hrest⟩

/-- A number is determined by its digits. -/
theorem toDigits_injective {m n : Nat} (h : Nat.toDigits 10 m = Nat.toDigits 10 n) : m = n := by
  have hread := Numeral.natural?_toDigits m
  rw [h, Numeral.natural?_toDigits] at hread
  exact (Option.some.inj hread).symm

/-- What is written of a place holds digits and a colon only. -/
theorem not_mem_toDigits {c : Char} (hc : c.isDigit = false) (n : Nat) :
    c ∉ Nat.toDigits 10 n := by
  intro hmem
  rw [Nat.isDigit_of_mem_toDigits (by omega) (by omega) hmem] at hc
  cases hc

theorem Position.toList_coordinates (place : Position) :
    place.coordinates.toList =
      Nat.toDigits 10 place.line ++ ':' :: Nat.toDigits 10 place.column := by
  simp [coordinates]

theorem Position.not_mem_coordinates {c : Char} (hc : c.isDigit = false) (hcolon : c ≠ ':')
    (place : Position) : c ∉ place.coordinates.toList := by
  rw [toList_coordinates]
  simp [not_mem_toDigits hc, hcolon]

/-- The coordinates of a place tell its line and its column. -/
theorem Position.coordinates_inj {p q : Position}
    (h : p.coordinates.toList = q.coordinates.toList) : p.line = q.line ∧ p.column = q.column := by
  rw [toList_coordinates, toList_coordinates] at h
  obtain ⟨hline, hcolumn⟩ := append_cons_inj_of_last h (not_mem_toDigits (by decide) _)
    (not_mem_toDigits (by decide) _)
  exact ⟨toDigits_injective hline, toDigits_injective hcolumn⟩

/-- Relates nodes of one content, whatever the elements of a list are. -/
inductive Element.SameLabel : Element → Element → Prop where
  | list (bracket : Bracket) (elements elements' : List Element) (p q : Position) :
      SameLabel (.list bracket elements p) (.list bracket elements' q)
  | int (value : Int64) (p q : Position) : SameLabel (.int value p) (.int value q)
  | string (content : String) (p q : Position) : SameLabel (.string content p) (.string content q)
  | symbol (id : SymbolId) (p q : Position) : SameLabel (.symbol id p) (.symbol id q)

/-- A label starts with a letter. -/
theorem Element.exists_label (table : SymbolTable) (element : Element) :
    ∃ c rest, (element.label table).toList = c :: rest ∧ c ≠ ' ' := by
  cases element with
  | list bracket elements span => exact ⟨'L', _, by simp [label]; rfl, by decide⟩
  | int value span => exact ⟨'I', _, by simp [label]; rfl, by decide⟩
  | float value span => exact ⟨'F', _, by simp [label]; rfl, by decide⟩
  | string content span => exact ⟨'S', _, by simp [label]; rfl, by decide⟩
  | symbol id span => exact ⟨'S', _, by simp [label]; rfl, by decide⟩

/-- The label of a written node tells what the node is. -/
theorem Element.sameLabel_of_label {table : SymbolTable} {node node' : Element}
    (hnode : node.Written table) (hnode' : node'.Written table)
    (h : (node.label table).toList = (node'.label table).toList) : node.SameLabel node' := by
  cases node with
  | list bracket elements span =>
    cases node' with
    | list bracket' elements' span' =>
      obtain rfl : bracket = bracket' := by
        cases bracket <;> cases bracket' <;> first | rfl | simp [label, Bracket.opening] at h
      exact .list bracket elements elements' span span'
    | _ => simp [label] at h
  | int value span =>
    cases node' with
    | int value' span' =>
      have hdigits : (toString value.toInt).toList = (toString value'.toInt).toList := by
        simpa [label] using h
      have hread := Numeral.integer?_toString value
      rw [hdigits, Numeral.integer?_toString, Option.some.injEq] at hread
      rw [hread]
      exact .int value span span'
    | _ => simp [label] at h
  | float value span => exact absurd hnode id
  | string content span =>
    cases node' with
    | string content' span' =>
      have hescaped : Literal.escape content.toList = Literal.escape content'.toList := by
        simpa [label, quoted] using h
      rw [String.toList_injective (Literal.escape_injective hescaped)]
      exact .string content' span span'
    | _ => simp [label] at h
  | symbol id span =>
    cases node' with
    | symbol id' span' =>
      obtain ⟨name, hname, -⟩ := hnode
      obtain ⟨name', hname', -⟩ := hnode'
      have hnames : name.toList = name'.toList := by
        simpa [label, SymbolTable.label_of_nameOf hname, SymbolTable.label_of_nameOf hname']
          using h
      rw [String.toList_injective hnames] at hname
      rw [SymbolTable.nameOf_inj hname hname']
      exact .symbol id' span span'
    | _ => simp [label] at h

/-- Whether two nodes have one content and stand on the same line and column. -/
structure Element.SameNode (node node' : Element) : Prop where
  label : node.SameLabel node'
  line : node.span.line = node'.span.line
  column : node.span.column = node'.span.column

theorem Element.toList_headline (table : SymbolTable) (indent : Nat) (node : Element) :
    (node.headline table indent).toList = List.replicate indent ' ' ++
      ((node.label table).toList ++ ' ' :: node.span.coordinates.toList) := by
  simp [headline]

/-- Headlines of written nodes are the same if and only if the nodes are, their elements and
their sources apart, and are indented alike. -/
theorem Element.headline_eq_iff {table : SymbolTable} {indent indent' : Nat} {node node' : Element}
    (hnode : node.Written table) (hnode' : node'.Written table) :
    (node.headline table indent).toList = (node'.headline table indent').toList ↔
      indent = indent' ∧ node.SameNode node' := by
  constructor
  · intro h
    rw [toList_headline, toList_headline] at h
    obtain ⟨c, rest, hlabel, hc⟩ := exists_label table node
    obtain ⟨d, rest', hlabel', hd⟩ := exists_label table node'
    rw [hlabel, hlabel', List.cons_append, List.cons_append] at h
    obtain ⟨hindent, hline⟩ := replicate_append_inj hc hd h
    rw [← List.cons_append, ← List.cons_append, ← hlabel, ← hlabel'] at hline
    have hspace (place : Position) : ' ' ∉ place.coordinates.toList :=
      place.not_mem_coordinates (by decide) (by decide)
    obtain ⟨hlabels, hplaces⟩ := append_cons_inj_of_last hline (hspace _) (hspace _)
    obtain ⟨hlines, hcolumns⟩ := Position.coordinates_inj hplaces
    exact ⟨hindent, sameLabel_of_label hnode hnode' hlabels, hlines, hcolumns⟩
  · rintro ⟨rfl, hlabel, hline, hcolumn⟩
    have hplace : node.span.coordinates = node'.span.coordinates := by
      rw [Position.coordinates, Position.coordinates, hline, hcolumn]
    rw [toList_headline, toList_headline, hplace]
    cases hlabel <;> rfl

/-- A written node takes one line, which ends in a digit. -/
theorem Element.headline_is_line {table : SymbolTable} {node : Element}
    (hnode : node.Written table) (indent : Nat) :
    '\n' ∉ (node.headline table indent).toList ∧
      ∃ c ∈ (node.headline table indent).toList.getLast?, c.isDigit = true := by
  rw [toList_headline]
  constructor
  · have hlabel : '\n' ∉ (node.label table).toList := by
      cases node with
      | list bracket elements span =>
        cases bracket <;> simp [label, Bracket.opening, Bracket.closing]
      | int value span =>
        have hvalue : '\n' ∉ (toString value.toInt).toList := fun hmem =>
          not_special_of_mem_int hmem (.inr (.inr rfl))
        simpa [label] using hvalue
      | float value span => exact absurd hnode id
      | string content span => simp [label, quoted, Literal.not_mem_escape]
      | symbol id span =>
        obtain ⟨name, hname, -, hfeed, -⟩ := hnode
        simpa [label, SymbolTable.label_of_nameOf hname] using hfeed
    have hplace : '\n' ∉ node.span.coordinates.toList :=
      node.span.not_mem_coordinates (by decide) (by decide)
    simp [hlabel, hplace]
  · have hne : Nat.toDigits 10 node.span.column ≠ [] := Nat.toDigits_ne_nil
    refine ⟨(Nat.toDigits 10 node.span.column).getLast hne, ?_, ?_⟩
    · rw [Position.toList_coordinates]
      simp [List.getLast?_append, List.getLast?_cons, List.getLast?_eq_some_getLast hne]
    · exact Nat.isDigit_of_mem_toDigits (by omega) (by omega) (List.getLast_mem hne)

/-! ### The lines of an outline -/

/-- Rows that are joined by line feeds are the lines of the text, if none of them holds a line feed
or ends in a carriage return, or is empty. -/
theorem lines_intercalate {rows : List (List Char)}
    (h : ∀ row ∈ rows, '\n' ∉ row ∧ row ≠ [] ∧ row.getLast? ≠ some '\r') :
    lines (['\n'].intercalate rows) = rows := by
  induction rows with
  | nil => rfl
  | cons row rows ih =>
    obtain ⟨⟨hfeed, hne, hreturn⟩, hrows⟩ := List.forall_mem_cons.1 h
    cases rows with
    | nil => rw [List.intercalate_singleton, lines_of_not_mem hne hfeed]
    | cons next rows =>
      rw [List.intercalate_cons_cons, List.append_assoc, lines_append hne hfeed hreturn,
        List.singleton_append]
      have hrest : lines ('\n' :: ['\n'].intercalate (next :: rows)) =
          [] :: lines (['\n'].intercalate (next :: rows)) := by
        rw [lines, pieces, if_pos rfl, List.map_cons]
        rfl
      rw [hrest, ih hrows, List.headD_cons, List.append_nil, List.tail_cons]

/-- The characters of a headline. -/
def headlineOf (table : SymbolTable) (entry : Nat × Element) : List Char :=
  (entry.2.headline table entry.1).toList

theorem toList_outline (table : SymbolTable) (form : Form) (indent : Nat) :
    (form.outline table indent).toList =
      ['\n'].intercalate ((form.element.entries indent).map (headlineOf table)) := by
  rw [Form.outline, String.toList_intercalate, Element.outline_eq_map, List.map_map]
  rfl

theorem Element.mem_nodes_of_entries {indent depth : Nat} {element node : Element}
    (h : (depth, node) ∈ element.entries indent) : node ∈ element.nodes := by
  rw [← map_entries indent]
  exact List.mem_map_of_mem h

/-- The lines of an outline of written nodes are their headlines. -/
theorem lines_outline {table : SymbolTable} {form : Form}
    (hwritten : ∀ node ∈ form.element.nodes, node.Written table) (indent : Nat) :
    lines (form.outline table indent).toList =
      (form.element.entries indent).map (headlineOf table) := by
  rw [toList_outline, lines_intercalate]
  intro row hrow
  obtain ⟨⟨depth, node⟩, hentry, rfl⟩ := List.mem_map.1 hrow
  obtain ⟨hfeed, c, hlast, hdigit⟩ :=
    Element.headline_is_line (hwritten node (Element.mem_nodes_of_entries hentry)) depth
  refine ⟨hfeed, ?_, fun hreturn => ?_⟩
  · intro hnil
    rw [headlineOf] at hnil
    rw [hnil] at hlast
    cases hlast
  · obtain rfl : '\r' = c := Option.some.inj (hreturn.symm.trans hlast)
    exact absurd hdigit (by decide)

/-- The headlines of an element that is indented further are indented further. -/
theorem map_headlineOf_entries (table : SymbolTable) (indent : Nat) (element : Element) :
    (element.entries indent).map (headlineOf table) =
      ((element.entries 0).map (headlineOf table)).map (List.replicate indent ' ' ++ ·) := by
  have hentries := element.entries_add 0 indent
  rw [Nat.zero_add] at hentries
  rw [hentries, List.map_map, List.map_map]
  refine List.map_congr_left fun entry _ => ?_
  simp only [Function.comp, headlineOf, Element.toList_headline]
  rw [Nat.add_comm, List.replicate_add, List.append_assoc]

/-! ### From lines to trees -/

/-- Relates entries that have the same headline. -/
def SameEntry (entry entry' : Nat × Element) : Prop :=
  entry.1 = entry'.1 ∧ entry.2.SameNode entry'.2

/-- Whether the first of some entries is indented by less than `indent`, if there is one. -/
def EndsLevel (indent : Nat) (entries : List (Nat × Element)) : Prop :=
  ∀ entry ∈ entries.head?, entry.1 < indent

/-- The first entry of an element is the element. -/
theorem Element.exists_entries (indent : Nat) (element : Element) :
    ∃ others, element.entries indent = (indent, element) :: others := by
  cases element <;> exact ⟨_, rfl⟩

/-- Behind an element, the level of its elements has ended. -/
theorem endsLevel_entriesAll {indent : Nat} {rest : List (Nat × Element)}
    (h : EndsLevel (indent + 1) rest) (elements : List Element) :
    EndsLevel (indent + 1) (entriesAll indent elements ++ rest) := by
  cases elements with
  | nil => exact h
  | cons element others =>
    obtain ⟨more, hentries⟩ := element.exists_entries indent
    rw [entriesAll, hentries]
    rintro entry ⟨⟩
    exact Nat.lt_succ_self indent

/-- Before an element, its level has not ended. -/
theorem not_endsLevel (indent : Nat) (element : Element) (others : List Element)
    (rest : List (Nat × Element)) :
    ¬ EndsLevel indent (entriesAll indent (element :: others) ++ rest) := by
  obtain ⟨more, hentries⟩ := element.exists_entries indent
  intro h
  rw [entriesAll, hentries] at h
  exact absurd (h (indent, element) rfl) (Nat.lt_irrefl indent)

theorem endsLevel_iff {indent : Nat} {entries entries' : List (Nat × Element)}
    (h : List.Forall₂ SameEntry entries entries') :
    EndsLevel indent entries ↔ EndsLevel indent entries' := by
  cases h with
  | nil => exact Iff.rfl
  | cons hfirst _ => simp [EndsLevel, hfirst.1]

mutual

/-- If entries are the same up to where the level ends, those of an element at their beginning are
those of one tree. -/
theorem Element.alike_of_entries (e e' : Element) {indent : Nat}
    {rest rest' : List (Nat × Element)} (hrest : EndsLevel (indent + 1) rest)
    (hrest' : EndsLevel (indent + 1) rest')
    (h : List.Forall₂ SameEntry (e.entries indent ++ rest) (e'.entries indent ++ rest')) :
    e.Alike Element.SameNode e' ∧ List.Forall₂ SameEntry rest rest' := by
  have hnode : e.SameNode e' := by
    obtain ⟨others, hentries⟩ := e.exists_entries indent
    obtain ⟨others', hentries'⟩ := e'.exists_entries indent
    rw [hentries, hentries'] at h
    exact (List.forall₂_cons.1 h).1.2
  have hlabel := hnode.label
  cases hlabel with
  | list bracket elements elements' p q =>
    have hinner := (List.forall₂_cons.1 h).2
    -- What follows the list is indented by less than its elements.
    have hends {rest : List (Nat × Element)} (h : EndsLevel (indent + 1) rest) :
        EndsLevel (indent + 2) rest := fun entry hentry => Nat.lt_succ_of_lt (h entry hentry)
    obtain ⟨hparts, hothers⟩ := alike_of_entriesAll elements elements' (hends hrest)
      (hends hrest') hinner
    exact ⟨.list bracket hnode hparts, hothers⟩
  | int value p q => exact ⟨.int value hnode, (List.forall₂_cons.1 h).2⟩
  | string content p q => exact ⟨.string content hnode, (List.forall₂_cons.1 h).2⟩
  | symbol id p q => exact ⟨.symbol id id hnode, (List.forall₂_cons.1 h).2⟩

/-- If entries are the same up to where the level ends, those of elements at their beginning are
those of one row of trees. -/
theorem alike_of_entriesAll (es es' : List Element) {indent : Nat}
    {rest rest' : List (Nat × Element)} (hrest : EndsLevel indent rest)
    (hrest' : EndsLevel indent rest')
    (h : List.Forall₂ SameEntry (entriesAll indent es ++ rest) (entriesAll indent es' ++ rest')) :
    List.Forall₂ (Element.Alike Element.SameNode) es es' ∧ List.Forall₂ SameEntry rest rest' := by
  cases es with
  | nil =>
    cases es' with
    | nil => exact ⟨.nil, h⟩
    | cons e' others' =>
      exact absurd ((endsLevel_iff h).1 hrest) (not_endsLevel indent e' others' rest')
  | cons e others =>
    cases es' with
    | nil => exact absurd ((endsLevel_iff h).2 hrest') (not_endsLevel indent e others rest)
    | cons e' others' =>
      rw [entriesAll, entriesAll, List.append_assoc, List.append_assoc] at h
      obtain ⟨hfirst, hothers⟩ := Element.alike_of_entries e e' (endsLevel_entriesAll
        (fun entry hentry => Nat.lt_succ_of_lt (hrest entry hentry)) others) (endsLevel_entriesAll
        (fun entry hentry => Nat.lt_succ_of_lt (hrest' entry hentry)) others') h
      obtain ⟨hparts, hlater⟩ := alike_of_entriesAll others others' hrest hrest' hothers
      exact ⟨.cons hfirst hparts, hlater⟩

end

/-! ### Outlines of parsed forms -/

/-- Whether a form was read from a text before a table had all its names. -/
def Form.ReadBefore (later : SymbolTable) (form : Form) : Prop :=
  ∃ source text table forms, (parse source text table).1 = .ok forms ∧ form ∈ forms ∧
    (parse source text table).2.names <+: later.names

/-- The nodes of a form that has been read are written, floats apart. -/
theorem Form.ReadBefore.written {later : SymbolTable} {form : Form} (h : form.ReadBefore later)
    (hfloat : ∀ value span, Element.float value span ∉ form.element.nodes) :
    ∀ node ∈ form.element.nodes, node.Written later := by
  obtain ⟨source, text, table, forms, hparse, hform, hnames⟩ := h
  intro node hnode
  have hwritten := written_of_parse hparse hform hnode fun value span heq =>
    hfloat value span (heq ▸ hnode)
  cases node with
  | symbol id span =>
    obtain ⟨name, hname, hspelling⟩ := hwritten
    exact ⟨name, SymbolTable.nameOf_of_names hnames hname, hspelling⟩
  | _ => exact hwritten

mutual

/-- Trees of the same nodes have the same entries. -/
theorem Element.entries_of_alike (indent : Nat) (e : Element) {e' : Element}
    (h : e.Alike Element.SameNode e') :
    List.Forall₂ SameEntry (e.entries indent) (e'.entries indent) := by
  cases h with
  | list bracket node parts =>
    exact .cons ⟨rfl, node⟩ (entriesAll_of_alike (indent + 2) _ parts)
  | int value node | float value node | string content node | symbol id id' node =>
    exact .cons ⟨rfl, node⟩ .nil

theorem entriesAll_of_alike (indent : Nat) (es : List Element) {es' : List Element}
    (h : List.Forall₂ (Element.Alike Element.SameNode) es es') :
    List.Forall₂ SameEntry (entriesAll indent es) (entriesAll indent es') := by
  cases h with
  | nil => exact .nil
  | @cons e e' others others' hfirst hothers =>
    exact List.rel_append (Element.entries_of_alike indent e hfirst)
      (entriesAll_of_alike indent others hothers)

end

/-- Rows of written entries have the same headlines if and only if their entries are the same. -/
theorem map_headlineOf_eq_iff {table : SymbolTable} {entries entries' : List (Nat × Element)}
    (h : ∀ entry ∈ entries, entry.2.Written table)
    (h' : ∀ entry ∈ entries', entry.2.Written table) :
    entries.map (headlineOf table) = entries'.map (headlineOf table) ↔
      List.Forall₂ SameEntry entries entries' := by
  induction entries generalizing entries' with
  | nil => cases entries' <;> simp
  | cons entry entries ih =>
    cases entries' with
    | nil => simp
    | cons entry' entries' =>
      obtain ⟨hentry, hentries⟩ := List.forall_mem_cons.1 h
      obtain ⟨hentry', hentries'⟩ := List.forall_mem_cons.1 h'
      rw [List.map_cons, List.map_cons, List.cons.injEq, List.forall₂_cons,
        ih hentries hentries', headlineOf, headlineOf, Element.headline_eq_iff hentry hentry']
      rfl

/-- Forms of written nodes have the same outline if and only if their nodes are the same, at
the same lines and columns. -/
theorem outline_eq_iff {table : SymbolTable} {form form' : Form}
    (h : ∀ node ∈ form.element.nodes, node.Written table)
    (h' : ∀ node ∈ form'.element.nodes, node.Written table) :
    form.outline table 0 = form'.outline table 0 ↔
      form.element.Alike Element.SameNode form'.element := by
  have hrows := map_headlineOf_eq_iff
    (fun entry (hentry : entry ∈ form.element.entries 0) =>
      h _ (Element.mem_nodes_of_entries hentry))
    (fun entry (hentry : entry ∈ form'.element.entries 0) =>
      h' _ (Element.mem_nodes_of_entries hentry))
  constructor
  · intro heq
    have hlines := congrArg (fun text : String => lines text.toList) heq
    simp only [lines_outline h, lines_outline h'] at hlines
    have hentries := hrows.1 hlines
    rw [← List.append_nil (form.element.entries 0), ← List.append_nil (form'.element.entries 0)]
      at hentries
    have hends : EndsLevel (0 + 1) [] := fun _ hentry => nomatch hentry
    exact (Element.alike_of_entries form.element form'.element hends hends hentries).1
  · intro halike
    apply String.toList_injective
    rw [toList_outline, toList_outline,
      hrows.2 (Element.entries_of_alike 0 form.element halike)]

/-- Take forms without floats that were read from any texts, and a table that has the symbols of all
of them. Only forms with the same nodes at the same lines and columns have the same outline.
An outline has one line for each node, and to indent it puts that many spaces before each line. -/
theorem outline_unambiguous {later : SymbolTable} {form form' : Form} (h : form.ReadBefore later)
    (h' : form'.ReadBefore later)
    (hfloat : ∀ value span, Element.float value span ∉ form.element.nodes)
    (hfloat' : ∀ value span, Element.float value span ∉ form'.element.nodes) :
    (form.outline later 0 = form'.outline later 0 ↔
      form.element.Alike Element.SameNode form'.element) ∧
    (lines (form.outline later 0).toList).length = form.element.nodes.length ∧
    ∀ indent, (form.outline later indent).toList =
        ['\n'].intercalate ((lines (form.outline later 0).toList).map
          (List.replicate indent ' ' ++ ·)) ∧
      lines (form.outline later indent).toList =
        (lines (form.outline later 0).toList).map (List.replicate indent ' ' ++ ·) := by
  have hwritten := h.written hfloat
  refine ⟨outline_eq_iff hwritten (h'.written hfloat'), ?_, fun indent => ?_⟩
  · rw [lines_outline hwritten, List.length_map, ← Element.map_entries 0, List.length_map]
  · rw [lines_outline hwritten, lines_outline hwritten, toList_outline,
      ← map_headlineOf_entries]
    exact ⟨rfl, rfl⟩

/-- The outlines of two forms, read one after the other, differ by two spaces in their last
lines, which tell whether the last symbol belongs to the inner list. -/
theorem outline_unambiguous_nesting :
    ∃ (later : SymbolTable) (form form' : Form),
      parse "t" "(a [b] c)".toList .empty = (.ok [form], later) ∧
      parse "u" "(a [b  c])".toList later = (.ok [form'], later) ∧
      form.outline later 0 ≠ form'.outline later 0 ∧
      (lines (form.outline later 0).toList).length = 5 := by
  let later : SymbolTable := .ofNames ["a", "b", "c"]
  let form : Form := ⟨.paren, [.symbol ⟨0⟩ ⟨"t", 1, 2⟩,
    .list .square [.symbol ⟨1⟩ ⟨"t", 1, 5⟩] ⟨"t", 1, 4⟩, .symbol ⟨2⟩ ⟨"t", 1, 8⟩], ⟨"t", 1, 1⟩⟩
  let form' : Form := ⟨.paren, [.symbol ⟨0⟩ ⟨"u", 1, 2⟩, .list .square
    [.symbol ⟨1⟩ ⟨"u", 1, 5⟩, .symbol ⟨2⟩ ⟨"u", 1, 8⟩] ⟨"u", 1, 4⟩], ⟨"u", 1, 1⟩⟩
  have hparse : parse "t" "(a [b] c)".toList .empty = (.ok [form], later) := by
    with_unfolding_all rfl
  have hparse' : parse "u" "(a [b  c])".toList later = (.ok [form'], later) := by
    with_unfolding_all rfl
  have hread : form.ReadBefore later :=
    ⟨"t", _, .empty, [form], congrArg Prod.fst hparse, List.mem_singleton.2 rfl,
      hparse ▸ List.prefix_rfl⟩
  have hread' : form'.ReadBefore later :=
    ⟨"u", _, later, [form'], congrArg Prod.fst hparse', List.mem_singleton.2 rfl,
      hparse' ▸ List.prefix_rfl⟩
  obtain ⟨hsame, hcount, -⟩ := outline_unambiguous hread hread'
    (by simp [form, Form.element, Element.nodes, nodesAll])
    (by simp [form', Form.element, Element.nodes, nodesAll])
  refine ⟨later, form, form', hparse, hparse', fun heq => ?_, hcount⟩
  -- Trees that are alike have the same number of elements in their lists.
  cases hsame.1 heq with
  | list bracket node parts => exact absurd parts.length_eq (by decide)

end BracketLisp
