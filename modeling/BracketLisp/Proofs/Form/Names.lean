import BracketLisp.Proofs.Form.Source
import BracketLisp.Proofs.Numeral.Float

/-!
# `BracketLisp.Proofs.Form.Names`: which names a table can hold

A bare token is an integer if it can be one, else a float if it can be one, and else a symbol
(`classify_iff`). Only symbols get into a table. So however many texts are parsed, the names that
a table holds are bare tokens that are no numbers, and any such name can get there:
`mem_names_parseAll_iff` shows both directions, the first by one step for each text
(`mem_names_parse`).

`names_are_symbols` puts together what decides the kind of a bare token.
-/

set_option autoImplicit false

namespace BracketLisp

/-- Whether a bare token is a symbol: it stays on its line, and it is neither an integer of 64 bits
nor a float. -/
structure IsSymbolName (name : List Char) : Prop where
  bare : IsBare name
  feed : '\n' ∉ name
  integer : ¬ Numeral.IsInteger name
  float : ¬ Numeral.IsFloat name

/-- What a bare token is classified as is decided by the two grammars of numbers. -/
theorem classify_iff (table : SymbolTable) {name : String}
    (hlength : name.toList.length < 0x20000000) (span : Position) :
    ((∃ word, (Parse.classify table name span).1 = .int word span) ↔
        Numeral.IsInteger name.toList) ∧
      ((∃ x, (Parse.classify table name span).1 = .float x span) ↔
        ¬ Numeral.IsInteger name.toList ∧ Numeral.IsFloat name.toList) ∧
      ((∃ id, (Parse.classify table name span).1 = .symbol id span) ↔
        ¬ Numeral.IsInteger name.toList ∧ ¬ Numeral.IsFloat name.toList) := by
  rw [← Numeral.exists_integer?_iff, ← Numeral.float?_iff hlength]
  unfold Parse.classify
  cases Numeral.integer? name.toList with
  | some word => simp
  | none => cases Numeral.float? name.toList <;> simp

/-- Whether a name is a bare token that reads as neither number. -/
structure ReadsAsSymbol (name : String) : Prop where
  bare : IsBare name.toList
  feed : '\n' ∉ name.toList
  integer : Numeral.integer? name.toList = none
  float : Numeral.float? name.toList = none

/-- A name that reads as neither number is a numeral of neither grammar. -/
theorem readsAsSymbol_iff {name : String} (hlength : name.toList.length < 0x20000000) :
    ReadsAsSymbol name ↔ IsSymbolName name.toList := by
  have hint : Numeral.integer? name.toList = none ↔ ¬ Numeral.IsInteger name.toList := by
    rw [← Numeral.exists_integer?_iff, not_exists, Option.eq_none_iff_forall_ne_some]
  have hfloat : Numeral.float? name.toList = none ↔ ¬ Numeral.IsFloat name.toList := by
    rw [← Numeral.float?_iff hlength, not_exists, Option.eq_none_iff_forall_ne_some]
  constructor
  · intro h
    exact ⟨h.bare, h.feed, hint.1 h.integer, hfloat.1 h.float⟩
  · intro h
    exact ⟨h.bare, h.feed, hint.2 h.integer, hfloat.2 h.float⟩

/-! ### One text -/

/-- The names that items bring are among those that they may add. -/
theorem SymbolTable.exists_of_mem_newNames {table : SymbolTable} {items : List Item}
    {name : String} (h : name ∈ table.newNames items) : ∃ item ∈ items, item.name? = some name := by
  rw [newNames, List.mem_eraseDups, List.mem_filter] at h
  exact List.mem_filterMap.1 h.1

/-- A name that a parse adds is that of a bare token of the text that is no number. -/
theorem mem_names_parse {source : String} {text : List Char} {table : SymbolTable} {name : String}
    (h : name ∈ (parse source text table).2.names) : name ∈ table.names ∨ ReadsAsSymbol name := by
  obtain ⟨before, after, -, hscan, -, hnames, -⟩ :=
    (Parse.start table).run_stops (endOf source text) (scan source text)
  rw [parse, hnames, List.mem_append] at h
  refine h.imp_right fun hnew => ?_
  obtain ⟨item, hitem, hname⟩ := SymbolTable.exists_of_mem_newNames hnew
  obtain ⟨hreading, hint, hfloat⟩ := Item.of_name? hname
  have hmem : item ∈ scan source text := hscan ▸ List.mem_append_left after hitem
  obtain ⟨hbare, hfeed⟩ := isBare_of_mem_scan hmem hreading
  exact ⟨hbare, hfeed, hint, hfloat⟩

/-- A symbol between brackets gets into any table. -/
theorem mem_names_of_brackets {name : String} (h : ReadsAsSymbol name) (source : String)
    (table : SymbolTable) :
    name ∈ (parse source ('(' :: (name.toList ++ [')'])) table).2.names := by
  have hline : ReadsAs ('(' :: (name.toList ++ [')']))
      [.opening .paren, .symbol name, .closing .paren] :=
    ((Spells.symbol h.bare).brackets .paren).readsAs
  obtain ⟨hreadable, htokens⟩ := hline.scan (by simp [h.feed]) source
  have hnest : nestAll (Parse.start table).nesting
      ((significant (scan source ('(' :: (name.toList ++ [')'])))).map Located.value) =
        some [] := by
    rw [htokens]
    rfl
  obtain ⟨forms, hforms⟩ := Parse.Progress.run_of_nestAll (endOf source _) hreadable hnest
  exact mem_names_of_marks (marks_of_parse hforms) (by simp [htokens]) h.integer h.float

/-! ### Texts one after the other -/

/-- The table after parsing texts one after the other, each with the name of its source. A text
that does not parse leaves the names before its fault. -/
def parseAll (table : SymbolTable) : List (String × List Char) → SymbolTable
  | [] => table
  | (source, text) :: others => parseAll (parse source text table).2 others

/-- All names that texts add to a table are those of symbols. -/
theorem mem_names_parseAll {table : SymbolTable} {texts : List (String × List Char)}
    {name : String} (h : name ∈ (parseAll table texts).names) :
    name ∈ table.names ∨ ReadsAsSymbol name := by
  induction texts generalizing table with
  | nil => exact .inl h
  | cons first others ih =>
    obtain ⟨source, text⟩ := first
    rcases ih h with hparse | hsymbol
    · exact mem_names_parse hparse
    · exact .inr hsymbol

/-- Starting with no names, a name can get into a table if and only if it is that of a symbol. -/
theorem mem_names_parseAll_iff {name : String} (hlength : name.toList.length < 0x20000000) :
    (∃ texts, name ∈ (parseAll .empty texts).names) ↔ IsSymbolName name.toList := by
  rw [← readsAsSymbol_iff hlength]
  constructor
  · rintro ⟨texts, hname⟩
    exact (mem_names_parseAll hname).resolve_left List.not_mem_nil
  · intro h
    exact ⟨[("", '(' :: (name.toList ++ [')']))], mem_names_of_brackets h "" .empty⟩

/-- A text is read as a float exactly if it is one with its separators in place. So a bare token is
an integer of 64 bits, else a float, else a symbol, by the grammars of the two. However many
texts are parsed, all names in the table are those of symbols, and each of these can get there. -/
theorem names_are_symbols :
    (∀ text : List Char, text.length < 0x20000000 →
      ((∃ x, Numeral.float? text = some x) ↔ Numeral.IsFloat text)) ∧
    (∀ (table : SymbolTable) (name : String) (span : Position),
      name.toList.length < 0x20000000 →
        ((∃ word, (Parse.classify table name span).1 = .int word span) ↔
            Numeral.IsInteger name.toList) ∧
          ((∃ x, (Parse.classify table name span).1 = .float x span) ↔
            ¬ Numeral.IsInteger name.toList ∧ Numeral.IsFloat name.toList) ∧
          ((∃ id, (Parse.classify table name span).1 = .symbol id span) ↔
            ¬ Numeral.IsInteger name.toList ∧ ¬ Numeral.IsFloat name.toList)) ∧
    (∀ name : String, name.toList.length < 0x20000000 →
      ((∃ texts, name ∈ (parseAll .empty texts).names) ↔ IsSymbolName name.toList)) :=
  ⟨fun _ hlength => Numeral.float?_iff hlength,
    fun table _ span hlength => classify_iff table hlength span,
    fun _ hlength => mem_names_parseAll_iff hlength⟩

/-- A separator behind a digit of a hexadecimal float is passed over. One inside a base mark makes
the text the name of a symbol, which gets into the table though another text fails. -/
theorem names_are_symbols_separators :
    (∃ x, Numeral.float? "-0x1_0.8P+3".toList = some x) ∧ IsSymbolName "0_x1".toList := by
  constructor
  · have hdigits : (['1', '0'] ++ ['8']).all (Text.isDigit 16) = true := by decide
    have hmantissa : Numeral.Pointed 16 "10.8".toList :=
      ⟨['1', '0'], ['8'], by decide,
        fun c hc => (Text.isDigit_iff (Nat.le_refl 16)).1 (List.all_eq_true.1 hdigits c hc),
        .inl (by decide)⟩
    have hexponent : Numeral.SignedDecimal "+3".toList 3 :=
      Numeral.exponent?_eq_some_iff.1 (by decide)
    have hplain : Numeral.FloatNumeral "-0x10.8P+3".toList :=
      ⟨['-'], true, '0' :: 'x' :: ("10.8".toList ++ 'P' :: "+3".toList), .minus,
        .hexadecimal (.inl rfl) ⟨_, 'P', _, 3, hmantissa, .inr rfl, hexponent, by decide,
          by decide, rfl⟩, by decide⟩
    have hfilter : "-0x1_0.8P+3".toList.filter (· != '_') = "-0x10.8P+3".toList := by decide
    refine (names_are_symbols.1 _ (by decide)).2 ⟨?_, hfilter.symm ▸ hplain⟩
    exact (Numeral.separatorsOk_iff _).1 (by decide)
  · refine (names_are_symbols.2.2 "0_x1" (by decide)).1
      ⟨[("t", "(0_x1))".toList), ("u", "()".toList)], ?_⟩
    have hnames : (parseAll .empty [("t", "(0_x1))".toList), ("u", "()".toList)]).names =
        ["0_x1"] := by
      with_unfolding_all rfl
    rw [hnames]
    exact List.mem_singleton.2 rfl

end BracketLisp
