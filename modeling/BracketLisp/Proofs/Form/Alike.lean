import BracketLisp.Proofs.Form.Nodes
import BracketLisp.Proofs.Form.Reading

/-!
# `BracketLisp.Proofs.Form.Alike`: two readings side by side

What the parser does with a token depends neither on the place of the token nor on the
number that a symbol gets. So the same tokens are read alike at other places, and beside
other tables.

* `Element.Alike` relates elements of one shape, whose nodes are related pair by pair.
* `SymbolTable.SameName` relates the numbers that a name has in two tables.
* `Parse.Progress.Beside` relates two parsers on their way. `Progress.Beside.take` says
  that an item keeps them beside each other, and `Progress.Beside.run` that they end alike.
* `parse_of_same_tokens` applies this to two texts that differ in layout only.
-/

set_option autoImplicit false

namespace BracketLisp

/-! ### Elements of one shape -/

/-- Elements of one shape and of the same content, whose nodes are related pair by pair.
The numbers of symbols are left to the relation on the nodes. -/
inductive Element.Alike (nodes : Element → Element → Prop) : Element → Element → Prop where
  | list (bracket : Bracket) {elements elements' : List Element} {p q : Position}
      (node : nodes (.list bracket elements p) (.list bracket elements' q))
      (parts : List.Forall₂ (Alike nodes) elements elements') :
      Alike nodes (.list bracket elements p) (.list bracket elements' q)
  | int (value : Int64) {p q : Position} (node : nodes (.int value p) (.int value q)) :
      Alike nodes (.int value p) (.int value q)
  | float (value : Float) {p q : Position} (node : nodes (.float value p) (.float value q)) :
      Alike nodes (.float value p) (.float value q)
  | string (content : String) {p q : Position}
      (node : nodes (.string content p) (.string content q)) :
      Alike nodes (.string content p) (.string content q)
  | symbol (id id' : SymbolId) {p q : Position}
      (node : nodes (.symbol id p) (.symbol id' q)) :
      Alike nodes (.symbol id p) (.symbol id' q)

section Alike

variable {nodes nodes' : Element → Element → Prop}

/-- Elements are nodes of themselves. -/
theorem Element.Alike.node {e e' : Element} (h : e.Alike nodes e') : nodes e e' := by
  cases h <;> assumption

mutual

/-- Elements stay alike under a weaker relation on nodes. -/
theorem Element.Alike.mono (hnodes : ∀ e e', nodes e e' → nodes' e e') (e : Element)
    {e' : Element} (h : e.Alike nodes e') : e.Alike nodes' e' := by
  cases h with
  | @list bracket elements elements' p q node parts =>
    exact .list bracket (hnodes _ _ node) (alikeAll_mono hnodes elements parts)
  | int value node => exact .int value (hnodes _ _ node)
  | float value node => exact .float value (hnodes _ _ node)
  | string content node => exact .string content (hnodes _ _ node)
  | symbol id id' node => exact .symbol id id' (hnodes _ _ node)

/-- Lists of elements stay alike under a weaker relation on nodes. -/
theorem alikeAll_mono (hnodes : ∀ e e', nodes e e' → nodes' e e') (elements : List Element)
    {elements' : List Element} (h : List.Forall₂ (Element.Alike nodes) elements elements') :
    List.Forall₂ (Element.Alike nodes') elements elements' := by
  cases h with
  | nil => exact .nil
  | @cons e e' others _ hfirst hothers =>
    exact .cons (Element.Alike.mono hnodes e hfirst) (alikeAll_mono hnodes others hothers)

end

mutual

/-- An element whose nodes are related to themselves is like itself. -/
theorem Element.alike_self (element : Element) (h : ∀ node ∈ element.nodes, nodes node node) :
    element.Alike nodes element := by
  have hself : nodes element element := h element element.self_mem_nodes
  cases element with
  | list bracket elements span =>
    exact .list bracket hself (alikeAll_self elements fun node hnode =>
      h node (List.mem_cons_of_mem _ hnode))
  | int value span => exact .int value hself
  | float value span => exact .float value hself
  | string content span => exact .string content hself
  | symbol id span => exact .symbol id id hself

/-- Elements whose nodes are related to themselves are like themselves. -/
theorem alikeAll_self (elements : List Element) (h : ∀ node ∈ nodesAll elements, nodes node node) :
    List.Forall₂ (Element.Alike nodes) elements elements := by
  cases elements with
  | nil => exact .nil
  | cons element others =>
    exact .cons (Element.alike_self element fun node hnode => h node (List.mem_append_left _ hnode))
      (alikeAll_self others fun node hnode => h node (List.mem_append_right _ hnode))

end

end Alike

/-- Nodes at related places, with related numbers if they are symbols. -/
def Element.NodeLike (spans : Position → Position → Prop) (ids : SymbolId → SymbolId → Prop)
    (e e' : Element) : Prop :=
  spans e.span e'.span ∧
    ∀ id id', e.symbol? = some id → e'.symbol? = some id' → ids id id'

/-- Only a symbol has a number. -/
theorem Element.NodeLike.of_span {spans : Position → Position → Prop}
    {ids : SymbolId → SymbolId → Prop} {e e' : Element} (hspan : spans e.span e'.span)
    (h : e.symbol? = none) : e.NodeLike spans ids e' :=
  ⟨hspan, fun _ _ hid _ => by simp [h] at hid⟩

/-! ### Names in two tables -/

namespace SymbolTable

variable {table later table' later' : SymbolTable} {id id' : SymbolId}

/-- Two numbers that have the same name, each in its table, and `known` holds of the name. -/
def SameName (known : String → Prop) (table table' : SymbolTable) (id id' : SymbolId) : Prop :=
  ∃ name, known name ∧ table.nameOf id = .ok name ∧ table'.nameOf id' = .ok name

/-- Numbers keep their common name in tables that go on. -/
theorem SameName.mono {known : String → Prop} (h : SameName known table table' id id')
    (hleft : table.names <+: later.names) (hright : table'.names <+: later'.names) :
    SameName known later later' id id' := by
  obtain ⟨name, hknown, hname, hname'⟩ := h
  exact ⟨name, hknown, nameOf_of_names hleft hname, nameOf_of_names hright hname'⟩

end SymbolTable

/-! ### Two parsers -/

namespace Parse

/-- Open lists of one kind at related places, with elements that are alike. -/
structure OpenList.Beside (spans : Position → Position → Prop)
    (ids : SymbolId → SymbolId → Prop) (pending pending' : OpenList) : Prop where
  bracket : pending.bracket = pending'.bracket
  span : spans pending.span pending'.span
  latest : List.Forall₂ (Element.Alike (Element.NodeLike spans ids)) pending.latest pending'.latest

/-- Forms that are alike. -/
abbrev FormLike (spans : Position → Position → Prop) (ids : SymbolId → SymbolId → Prop)
    (form form' : Form) : Prop :=
  form.element.Alike (Element.NodeLike spans ids) form'.element

/-- Two parsers that have read the same tokens at related places. Their tables are related,
and numbers correspond by the names that are `known`. -/
structure Progress.Beside (spans : Position → Position → Prop) (known : String → Prop)
    (tables : SymbolTable → SymbolTable → Prop) (progress progress' : Progress) : Prop where
  tables : tables progress.symbols progress'.symbols
  pending : List.Forall₂
    (OpenList.Beside spans (SymbolTable.SameName known progress.symbols progress'.symbols))
    progress.pending progress'.pending
  latest : List.Forall₂
    (FormLike spans (SymbolTable.SameName known progress.symbols progress'.symbols))
    progress.latest progress'.latest

/-- Items at related places with the same token, which has a known name if it has one, or
with errors that are related. -/
structure ItemLike (spans : Position → Position → Prop) (known : String → Prop)
    (errors : ParseError → ParseError → Prop) (item item' : Item) : Prop where
  start : spans item.start item'.start
  reading : Agree errors Eq item.reading item'.reading
  known : ∀ name, item.reading = .ok (.symbol name) → known name

namespace Progress.Beside

variable {spans : Position → Position → Prop} {known : String → Prop}
  {tables : SymbolTable → SymbolTable → Prop} {errors : ParseError → ParseError → Prop}
  {progress progress' : Progress}

/-- A list is open in both or in none. -/
theorem isEmpty_eq (h : progress.Beside spans known tables progress') :
    progress.pending.isEmpty = progress'.pending.isEmpty := by
  rw [Bool.eq_iff_iff, List.isEmpty_iff_length_eq_zero, List.isEmpty_iff_length_eq_zero,
    h.pending.length_eq]

/-- Parsers with other tables that go on from theirs are still beside each other. -/
theorem grow (h : progress.Beside spans known tables progress') {later later' : SymbolTable}
    (htables : tables later later') (hleft : progress.symbols.names <+: later.names)
    (hright : progress'.symbols.names <+: later'.names) :
    Progress.Beside spans known tables { progress with symbols := later }
      { progress' with symbols := later' } := by
  have hnodes : ∀ e e' : Element,
      e.NodeLike spans (SymbolTable.SameName known progress.symbols progress'.symbols) e' →
        e.NodeLike spans (SymbolTable.SameName known later later') e' :=
    fun _ _ hnode => ⟨hnode.1, fun id id' hid hid' => (hnode.2 id id' hid hid').mono hleft hright⟩
  refine ⟨htables, h.pending.imp fun _ _ hlist => ?_, h.latest.imp fun _ _ hform => ?_⟩
  · exact ⟨hlist.bracket, hlist.span, alikeAll_mono hnodes _ hlist.latest⟩
  · exact hform.mono hnodes

/-- Elements that are alike may be added, or are refused at related places. -/
theorem add (h : progress.Beside spans known tables progress')
    (herrors : ∀ fault p q, spans p q → errors ⟨fault, p⟩ ⟨fault, q⟩) {e e' : Element}
    (helement : e.Alike (Element.NodeLike spans
      (SymbolTable.SameName known progress.symbols progress'.symbols)) e') :
    Agree errors (Progress.Beside spans known tables) (progress.add e) (progress'.add e') := by
  obtain ⟨pending, latest, symbols⟩ := progress
  obtain ⟨pending', latest', symbols'⟩ := progress'
  obtain ⟨htables, hpending, hlatest⟩ := h
  cases hpending with
  | nil => exact .error (herrors _ _ _ helement.node.1)
  | cons hinner houter =>
    exact .ok ⟨htables, .cons ⟨hinner.bracket, hinner.span, .cons helement hinner.latest⟩ houter,
      hlatest⟩

/-- Forms that are alike may be taken up as complete. -/
theorem complete (h : progress.Beside spans known tables progress') {form form' : Form}
    (hform : FormLike spans (SymbolTable.SameName known progress.symbols progress'.symbols)
      form form') :
    (progress.complete form).Beside spans known tables (progress'.complete form') := by
  obtain ⟨pending, latest, symbols⟩ := progress
  obtain ⟨pending', latest', symbols'⟩ := progress'
  obtain ⟨htables, hpending, hlatest⟩ := h
  cases hpending with
  | nil => exact ⟨htables, .nil, .cons hform hlatest⟩
  | cons hinner houter =>
    exact ⟨htables, .cons ⟨hinner.bracket, hinner.span, .cons hform hinner.latest⟩ houter, hlatest⟩

/-- A closing bracket closes both innermost lists, or is out of place in both. -/
theorem close (h : progress.Beside spans known tables progress')
    (herrors : ∀ fault p q, spans p q → errors ⟨fault, p⟩ ⟨fault, q⟩) (bracket : Bracket)
    {p q : Position} (hspan : spans p q) :
    Agree errors (Progress.Beside spans known tables) (progress.close bracket p)
      (progress'.close bracket q) := by
  obtain ⟨pending, latest, symbols⟩ := progress
  obtain ⟨pending', latest', symbols'⟩ := progress'
  obtain ⟨htables, hpending, hlatest⟩ := h
  cases hpending with
  | nil => exact .error (herrors _ _ _ hspan)
  | @cons innermost innermost' outer outer' hinner houter =>
    obtain ⟨kind, elements, span⟩ := innermost
    obtain ⟨_, elements', span'⟩ := innermost'
    obtain ⟨rfl, hstart, helements⟩ := hinner
    simp only [Progress.close]
    split
    · have houtside : Progress.Beside spans known tables ⟨outer, latest, symbols⟩
          ⟨outer', latest', symbols'⟩ := ⟨htables, houter, hlatest⟩
      -- A list knows its elements with the latest first, and a form in their order.
      have hform : FormLike spans (SymbolTable.SameName known symbols symbols')
          (OpenList.form ⟨kind, elements, span⟩) (OpenList.form ⟨kind, elements', span'⟩) :=
        .list kind (.of_span hstart rfl) (List.rel_reverse helements)
      exact .ok (houtside.complete hform)
    · exact .error (herrors _ _ _ hspan)

/-- A bare token reads as elements that are alike. -/
theorem classify {table table' : SymbolTable} {name : String} (hknown : known name)
    (htables : tables table table')
    (hintern : tables (table.intern name).2 (table'.intern name).2)
    {p q : Position} (hspan : spans p q) :
    tables (classify table name p).2 (classify table' name q).2 ∧
      (classify table name p).1.Alike (Element.NodeLike spans (SymbolTable.SameName known
        (classify table name p).2 (classify table' name q).2)) (classify table' name q).1 := by
  unfold Parse.classify
  -- Whether the token is a number does not depend on a table.
  split
  next value _ => exact ⟨htables, .int value (.of_span hspan rfl)⟩
  next =>
    split
    next value _ => exact ⟨htables, .float value (.of_span hspan rfl)⟩
    next =>
      refine ⟨hintern, .symbol _ _ ⟨hspan, fun id id' hid hid' => ?_⟩⟩
      cases hid
      cases hid'
      exact ⟨name, hknown, table.nameOf_intern name, table'.nameOf_intern name⟩

/-- A token keeps two parsers beside each other, or both refuse it. -/
theorem takeToken (h : progress.Beside spans known tables progress')
    (herrors : ∀ fault p q, spans p q → errors ⟨fault, p⟩ ⟨fault, q⟩) {token : Token}
    (hknown : ∀ name, token = .symbol name → known name)
    (hintern : ∀ name, known name → tables progress.symbols progress'.symbols →
      tables (progress.symbols.intern name).2 (progress'.symbols.intern name).2)
    {p q : Position} (hspan : spans p q) :
    Agree errors (Progress.Beside spans known tables) (progress.takeToken token p)
      (progress'.takeToken token q) := by
  cases token with
  | space | tab | comment text => exact .ok h
  | opening bracket => exact .ok ⟨h.tables, .cons ⟨rfl, hspan, .nil⟩ h.pending, h.latest⟩
  | closing bracket => exact h.close herrors bracket hspan
  | literal content => exact h.add herrors (.string content (.of_span hspan rfl))
  | symbol name =>
    have hname := hknown name rfl
    simp only [Progress.takeToken, h.isEmpty_eq]
    split
    · exact .error (herrors _ _ _ hspan)
    · obtain ⟨htables, helement⟩ :=
        classify hname h.tables (hintern name hname h.tables) hspan
      have hgrown := h.grow htables (classify_spec progress.symbols name p).1
        (classify_spec progress'.symbols name q).1
      exact hgrown.add herrors helement

/-- Items that are alike keep two parsers beside each other, or both refuse them. -/
theorem take (h : progress.Beside spans known tables progress')
    (herrors : ∀ fault p q, spans p q → errors ⟨fault, p⟩ ⟨fault, q⟩)
    (hintern : ∀ table table' name, known name → tables table table' →
      tables (table.intern name).2 (table'.intern name).2)
    {item item' : Item} (hitem : ItemLike spans known errors item item') :
    Agree errors (Progress.Beside spans known tables) (progress.take item)
      (progress'.take item') := by
  obtain ⟨start, stop, reading⟩ := item
  obtain ⟨start', stop', reading'⟩ := item'
  obtain ⟨hstart, hreading, hknown⟩ := hitem
  cases hreading with
  | error herror => exact .error herror
  | ok htoken =>
    subst htoken
    exact h.takeToken herrors (fun name hname => hknown name (congrArg _ hname))
      (hintern _ _) hstart

/-- Two parsers that take the same tokens end with forms that are alike, or with errors
that are related. -/
theorem run (h : progress.Beside spans known tables progress')
    (herrors : ∀ fault p q, spans p q → errors ⟨fault, p⟩ ⟨fault, q⟩)
    (hintern : ∀ table table' name, known name → tables table table' →
      tables (table.intern name).2 (table'.intern name).2)
    {stop stop' : Position} (hstop : errors ⟨.unclosedList, stop⟩ ⟨.unclosedList, stop'⟩)
    {items items' : List Item} (hitems : List.Forall₂ (ItemLike spans known errors) items items') :
    tables (progress.run stop items).2 (progress'.run stop' items').2 ∧
      Agree errors (List.Forall₂ (FormLike spans (SymbolTable.SameName known
        (progress.run stop items).2 (progress'.run stop' items').2)))
        (progress.run stop items).1 (progress'.run stop' items').1 := by
  induction hitems generalizing progress progress' with
  | nil =>
    refine ⟨h.tables, ?_⟩
    simp only [Progress.run, Progress.finish, h.isEmpty_eq]
    split
    · exact .ok (List.rel_reverse h.latest)
    · exact .error hstop
  | cons hitem _ ih =>
    have htake := h.take herrors hintern hitem
    simp only [Progress.run]
    generalize progress.take _ = outcome at htake
    generalize progress'.take _ = outcome' at htake
    cases htake with
    | ok hnext => exact ih hnext
    | error herror => exact ⟨h.tables, .error herror⟩

end Progress.Beside

end Parse

/-! ### Texts with the same tokens -/

/-- A token as an item by itself. -/
def Located.item (token : Located Token) : Item :=
  ⟨token.span, token.span, .ok token.value⟩

/-- The places of one token in two texts: those with the same index among the tokens. -/
def SameToken (tokens tokens' : List (Located Token)) (p q : Position) : Prop :=
  ∃ (index : Nat) (token token' : Located Token), tokens[index]? = some token ∧
    tokens'[index]? = some token' ∧ token.span = p ∧ token'.span = q

namespace Parse.Progress

/-- Where an item has a token, it does what its token does, and layout does nothing. -/
theorem take_eq (progress : Progress) {item : Item} (h : ∃ token, item.reading = .ok token) :
    progress.take item = match item.significant? with
      | some token => progress.take token.item
      | none => .ok progress := by
  obtain ⟨start, stop, reading⟩ := item
  obtain ⟨token, rfl⟩ := h
  cases token <;> rfl

/-- Only tokens that mean something count for what is read. -/
theorem run_significant (progress : Progress) (stop : Position) {items : List Item}
    (h : Readable items) :
    progress.run stop ((significant items).map Located.item) = progress.run stop items := by
  induction items generalizing progress with
  | nil => rfl
  | cons item others ih =>
    obtain ⟨hfirst, hothers⟩ := List.forall_mem_cons.1 h
    have htake := progress.take_eq hfirst
    rw [significant_cons, run, htake]
    cases item.significant? with
    | none => exact ih progress hothers
    | some token =>
      simp only [Option.toList_some, List.singleton_append, List.map_cons, run]
      cases progress.take token.item with
      | error error => rfl
      | ok next => exact ih next hothers

end Parse.Progress

/-- The same tokens stand at the places of the same indices. -/
theorem sameToken_of_map_eq {tokens tokens' : List (Located Token)}
    (h : tokens.map Located.value = tokens'.map Located.value) :
    List.Forall₂ (fun token token' => SameToken tokens tokens' token.span token'.span ∧
      token.value = token'.value) tokens tokens' := by
  have hlength : tokens.length = tokens'.length := by simpa using congrArg List.length h
  refine List.forall₂_of_length_eq_of_get hlength fun index hleft hright => ⟨?_, ?_⟩
  · exact ⟨index, _, _, List.getElem?_eq_getElem hleft, List.getElem?_eq_getElem hright, rfl, rfl⟩
  · have hvalue : (tokens.map Located.value)[index]? = (tokens'.map Located.value)[index]? := by
      rw [h]
    simpa [List.getElem?_eq_getElem hleft, List.getElem?_eq_getElem hright] using hvalue

/-- Texts with the same tokens, layout apart, are read as the same forms at other places,
or both are refused for the same cause. Their symbols get the same numbers. -/
theorem parse_of_same_tokens {source source' : String} {text text' : List Char}
    (hread : Readable (scan source text)) (hread' : Readable (scan source' text'))
    (htokens : (significant (scan source text)).map Located.value =
      (significant (scan source' text')).map Located.value) (table : SymbolTable) :
    (parse source text table).2 = (parse source' text' table).2 ∧
      Agree (fun e e' => e.value = e'.value)
        (List.Forall₂ (Parse.FormLike
          (SameToken (significant (scan source text)) (significant (scan source' text'))) Eq))
        (parse source text table).1 (parse source' text' table).1 := by
  let spans := SameToken (significant (scan source text)) (significant (scan source' text'))
  let errors (e e' : ParseError) : Prop := e.value = e'.value
  have hstart : (Parse.start table).Beside spans (fun _ => True) Eq (Parse.start table) :=
    ⟨rfl, .nil, .nil⟩
  have hitems : List.Forall₂ (Parse.ItemLike spans (fun _ => True) errors)
      ((significant (scan source text)).map Located.item)
      ((significant (scan source' text')).map Located.item) :=
    List.forall₂_map_left_iff.2 <| List.forall₂_map_right_iff.2 <|
      (sameToken_of_map_eq htokens).imp fun _ _ htoken =>
        ⟨htoken.1, .ok htoken.2, fun _ _ => trivial⟩
  have herrors : ∀ fault p q, spans p q → errors ⟨fault, p⟩ ⟨fault, q⟩ := fun _ _ _ _ => rfl
  have hintern : ∀ (table table' : SymbolTable) (name : String), True → table = table' →
      (table.intern name).2 = (table'.intern name).2 := by
    rintro table _ name - rfl
    rfl
  have hstop : errors ⟨.unclosedList, endOf source text⟩ ⟨.unclosedList, endOf source' text'⟩ := rfl
  have hrun := hstart.run herrors hintern hstop hitems
  rw [Parse.Progress.run_significant _ _ hread, Parse.Progress.run_significant _ _ hread'] at hrun
  obtain ⟨htable, hforms⟩ := hrun
  refine ⟨htable, hforms.imp (fun _ _ => id) fun _ _ hforms => hforms.imp fun _ _ hform => ?_⟩
  refine hform.mono (fun e e' hnode => ⟨hnode.1, fun id id' hid hid' => ?_⟩)
  -- In one table, symbols of one name have one number.
  obtain ⟨name, -, hname, hname'⟩ := hnode.2 id id' hid hid'
  rw [htable] at hname
  exact SymbolTable.nameOf_inj hname hname'

end BracketLisp
