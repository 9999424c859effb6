import BracketLisp.Proofs.Form.Reading
import BracketLisp.Proofs.Token.Offset

/-!
# `BracketLisp.Proofs.Form.Offence`: where a parse stops, and what it leaves

The parser takes the items of a text from the left and stops at the first that offends. The
error is that of this item, so a fault further on, whatever its kind, never shows. If no
item offends, only a list that is still open can make the parse fail.

A parse that fails is not undone. The symbols before the offence have got their numbers, and
no other symbol has.

* `openAfter` follows the brackets that are open, and `Item.Offends` lists the ways in which
  an item can offend where some are. `not_offends_of_openAfter` shows that only what does not
  offend is followed.
* `SymbolTable.newNames` are the names that items add to a table. `newNames_cons` is the step
  of a run through the items.
* `Progress.take_cases` says what one item does, and `Progress.run_stops` what a row of items
  does. `parse_stops_at_offence` states the result for a text.
-/

set_option autoImplicit false

namespace BracketLisp

open Text

/-! ### Items that offend -/

/-- The kinds of the brackets that are open after items, innermost first, unless one of the
items has no token or a token that is out of place. -/
def openAfter (pending : List Bracket) : List Item → Option (List Bracket)
  | [] => some pending
  | item :: others =>
    match item.reading with
    | .ok token => (nest pending token).bind (openAfter · others)
    | .error _ => none

/-- Whether an item offends where the brackets `pending` are open, and the error that it
makes: its own if it has one, a closing bracket that does not fit the innermost opening one,
or a bare token or literal outside of all lists. -/
inductive Item.Offends (pending : List Bracket) (item : Item) : ParseError → Prop where
  | lexical {error : ParseError} (h : item.reading = .error error) : Offends pending item error
  | closing {bracket : Bracket} (h : item.reading = .ok (.closing bracket))
      (hpending : pending.head? ≠ some bracket) :
      Offends pending item ⟨.unexpectedChar bracket.closing, item.start⟩
  | symbol {name : String} (h : item.reading = .ok (.symbol name)) (hpending : pending = []) :
      Offends pending item ⟨.atomAtTopLevel, item.start⟩
  | literal {content : String} (h : item.reading = .ok (.literal content))
      (hpending : pending = []) : Offends pending item ⟨.atomAtTopLevel, item.start⟩

theorem openAfter_append (pending : List Bracket) (items others : List Item) :
    openAfter pending (items ++ others) =
      (openAfter pending items).bind (openAfter · others) := by
  induction items generalizing pending with
  | nil => rfl
  | cons item items ih =>
    rw [List.cons_append, openAfter, openAfter]
    cases item.reading with
    | error error => rfl
    | ok token =>
      show (nest pending token).bind (openAfter · (items ++ others)) =
        ((nest pending token).bind (openAfter · items)).bind (openAfter · others)
      rw [Option.bind_assoc]
      exact Option.bind_congr fun next _ => ih next

/-- An item that brackets are followed through does not offend. -/
theorem not_offends_of_openAfter {pending after : List Bracket} {item : Item}
    {others : List Item} (h : openAfter pending (item :: others) = some after)
    (error : ParseError) : ¬ item.Offends pending error := by
  intro hoffends
  rw [openAfter] at h
  cases hoffends with
  | lexical hreading =>
    rw [hreading] at h
    cases h
  | @closing bracket hreading hpending =>
    rw [hreading] at h
    cases pending with
    | nil => cases h
    | cons innermost outer =>
      have hne : innermost ≠ bracket := fun heq => hpending (heq ▸ rfl)
      simp [nest, hne] at h
  | symbol hreading hpending =>
    subst hpending
    rw [hreading] at h
    cases h
  | literal hreading hpending =>
    subst hpending
    rw [hreading] at h
    cases h

/-! ### Names that items bring -/

/-- The name that an item may add to a table: that of a bare token that is no number. -/
def Item.name? (item : Item) : Option String :=
  match item.reading with
  | .ok (.symbol name) =>
    if (Numeral.integer? name.toList).isNone ∧ (Numeral.float? name.toList).isNone then
      some name
    else
      none
  | _ => none

/-- The name that an item may add is that of a bare token that is no number. -/
theorem Item.of_name? {item : Item} {name : String} (h : item.name? = some name) :
    item.reading = .ok (.symbol name) ∧ Numeral.integer? name.toList = none ∧
      Numeral.float? name.toList = none := by
  unfold name? at h
  split at h
  next other hreading =>
    simp only [Option.ite_none_right_eq_some, Option.isNone_iff_eq_none, Option.some.injEq] at h
    obtain ⟨⟨hint, hfloat⟩, rfl⟩ := h
    exact ⟨hreading, hint, hfloat⟩
  next => cases h

/-- The names of items that a table does not have, once each, in the order in which they
first occur. -/
def SymbolTable.newNames (table : SymbolTable) (items : List Item) : List String :=
  ((items.filterMap Item.name?).filter (· ∉ table.names)).eraseDups

/-- A first name that is not known comes first among the new ones, and is known from then
on. -/
theorem eraseDups_filter_cons {known : List String} {name : String} (h : name ∉ known)
    (names : List String) :
    ((name :: names).filter (· ∉ known)).eraseDups =
      name :: (names.filter (· ∉ known ++ [name])).eraseDups := by
  have hfilter : (name :: names).filter (· ∉ known) = name :: names.filter (· ∉ known) := by
    simp [h]
  rw [hfilter, List.eraseDups_cons, List.filter_filter]
  congr 2
  refine List.filter_congr fun other _ => ?_
  by_cases hother : other = name <;> simp [hother]

/-- The new names of items are those of the first, and then those that the others add. -/
theorem SymbolTable.newNames_cons {table later : SymbolTable} {item : Item}
    (h : later.names = table.names ++ table.newNames [item]) (others : List Item) :
    table.newNames (item :: others) = table.newNames [item] ++ later.newNames others := by
  unfold newNames at h ⊢
  rw [h]
  cases hname : item.name? with
  | none => simp [hname]
  | some name =>
    by_cases hmem : name ∈ table.names
    · simp [hname, hmem]
    · rw [List.filterMap_cons_some hname, List.filterMap_cons_some hname,
        eraseDups_filter_cons hmem, eraseDups_filter_cons hmem]
      simp

namespace Parse

/-- Reading a bare token adds its name to the table, unless the name is there or the token
is a number. -/
theorem names_classify (table : SymbolTable) {name : String} {item : Item}
    (h : item.reading = .ok (.symbol name)) (span : Position) :
    (classify table name span).2.names = table.names ++ table.newNames [item] := by
  unfold SymbolTable.newNames classify
  cases hint : Numeral.integer? name.toList with
  | some value => simp [Item.name?, h, hint]
  | none =>
    cases hfloat : Numeral.float? name.toList with
    | some value => simp [Item.name?, h, hint, hfloat]
    | none =>
      have hname : item.name? = some name := by simp [Item.name?, h, hint, hfloat]
      show (table.intern name).2.names = _
      rw [table.names_intern]
      by_cases hmem : name ∈ table.names
      · simp [hname, hmem]
      · simp [hname, hmem, List.eraseDups_cons]

namespace Progress

/-- A token that is taken changes the table only if it is a bare one. -/
theorem symbols_takeToken {progress next : Progress} {token : Token} {span : Position}
    (h : progress.takeToken token span = .ok next) :
    ((∀ name, token ≠ .symbol name) ∧ next.symbols = progress.symbols) ∨
      ∃ name, token = .symbol name ∧ next.symbols = (classify progress.symbols name span).2 := by
  cases token with
  | space | tab | comment text | opening bracket =>
    cases h
    exact .inl ⟨nofun, rfl⟩
  | closing bracket => exact .inl ⟨nofun, (marks_close h).2⟩
  | literal content => exact .inl ⟨nofun, (marks_add h).2⟩
  | symbol name =>
    simp only [takeToken] at h
    split at h
    · cases h
    · exact .inr ⟨name, rfl, (marks_add h).2⟩

/-- A token that is taken adds the name of its item. -/
theorem names_takeToken {progress next : Progress} {item : Item} {token : Token}
    (hreading : item.reading = .ok token)
    (h : progress.takeToken token item.start = .ok next) :
    next.symbols.names = progress.symbols.names ++ progress.symbols.newNames [item] := by
  rcases symbols_takeToken h with ⟨hbare, hsymbols⟩ | ⟨name, rfl, hsymbols⟩
  · have hname : item.name? = none := by
      unfold Item.name?
      rw [hreading]
      cases token with
      | symbol name => exact absurd rfl (hbare name)
      | _ => rfl
    rw [hsymbols, SymbolTable.newNames]
    simp [hname]
  · rw [hsymbols]
    exact names_classify progress.symbols hreading item.start

/-- An item that is taken leaves the table as it is, if its symbol has a number already. -/
theorem symbols_take {progress next : Progress} {item : Item}
    (h : progress.take item = .ok next)
    (hknown : ∀ name, item.name? = some name → name ∈ progress.symbols.names) :
    next.symbols = progress.symbols := by
  cases hreading : item.reading with
  | error error =>
    rw [take, hreading] at h
    cases h
  | ok token =>
    rw [take, hreading] at h
    rcases symbols_takeToken h with ⟨-, hsymbols⟩ | ⟨name, rfl, hsymbols⟩
    · exact hsymbols
    · rw [hsymbols]
      unfold classify
      cases hint : Numeral.integer? name.toList with
      | some value => rfl
      | none =>
        cases hfloat : Numeral.float? name.toList with
        | some value => rfl
        | none =>
          have hname : item.name? = some name := by simp [Item.name?, hreading, hint, hfloat]
          obtain ⟨id, hid⟩ := SymbolTable.exists_lookup_iff.2 (hknown name hname)
          simp only [SymbolTable.intern_of_lookup_eq_some hid]

/-- An item whose token is out of place offends. -/
theorem offends_of_nest {progress : Progress} {item : Item} {token : Token}
    (hreading : item.reading = .ok token) (h : nest progress.nesting token = none) :
    ∃ error, progress.takeToken token item.start = .error error ∧
      item.Offends progress.nesting error := by
  obtain ⟨pending, latest, symbols⟩ := progress
  cases pending with
  | nil =>
    cases token with
    | space | tab | comment text | opening bracket => cases h
    | closing bracket => exact ⟨_, rfl, .closing hreading (by simp [nesting])⟩
    | literal content => exact ⟨_, rfl, .literal hreading rfl⟩
    | symbol name => exact ⟨_, rfl, .symbol hreading rfl⟩
  | cons innermost outer =>
    cases token with
    | closing bracket =>
      have hne : innermost.bracket ≠ bracket := by
        intro heq
        simp [nesting, nest, heq] at h
      refine ⟨_, if_neg hne, .closing hreading ?_⟩
      simp [nesting, hne]
    | _ => cases h

/-- An item is taken, and then it changes the open brackets and adds its name, or it
offends. -/
theorem take_cases (progress : Progress) (item : Item) :
    (∃ next, progress.take item = .ok next ∧
      openAfter progress.nesting [item] = some next.nesting ∧
      next.symbols.names = progress.symbols.names ++ progress.symbols.newNames [item]) ∨
    ∃ error, progress.take item = .error error ∧ item.Offends progress.nesting error := by
  cases hreading : item.reading with
  | error error =>
    refine .inr ⟨error, ?_, .lexical hreading⟩
    rw [take, hreading]
  | ok token =>
    rw [take, hreading]
    cases hnest : nest progress.nesting token with
    | none => exact .inr (offends_of_nest hreading hnest)
    | some after =>
      obtain ⟨next, hnext, hnesting⟩ := takeToken_of_nest hnest item.start
      refine .inl ⟨next, hnext, ?_, names_takeToken hreading hnext⟩
      simp [openAfter, hreading, hnest, hnesting]

/-- Items are taken up to the first that offends, or all of them if none does. -/
theorem run_stops (progress : Progress) (stop : Position) (items : List Item) :
    ∃ (before after : List Item) (pending : List Bracket), items = before ++ after ∧
      openAfter progress.nesting before = some pending ∧
      (progress.run stop items).2.names =
        progress.symbols.names ++ progress.symbols.newNames before ∧
      ((after = [] ∧ pending = [] ∧ ∃ forms, (progress.run stop items).1 = .ok forms) ∨
        (after = [] ∧ pending ≠ [] ∧
          (progress.run stop items).1 = .error ⟨.unclosedList, stop⟩) ∨
        ∃ item others error, after = item :: others ∧ item.Offends pending error ∧
          (progress.run stop items).1 = .error error) := by
  induction items generalizing progress with
  | nil =>
    refine ⟨[], [], progress.nesting, rfl, rfl, (List.append_nil _).symm, ?_⟩
    cases hpending : progress.pending with
    | nil => exact .inl ⟨rfl, by simp [nesting, hpending], by simp [run, finish, hpending]⟩
    | cons innermost outer =>
      exact .inr (.inl ⟨rfl, by simp [nesting, hpending], by simp [run, finish, hpending]⟩)
  | cons item others ih =>
    rw [run]
    rcases progress.take_cases item with ⟨next, htake, hopen, hnames⟩ | ⟨error, htake, hoffends⟩
    · rw [htake]
      -- What the others do starts from what this item leaves.
      obtain ⟨before, after, pending, rfl, hbefore, hrest, hresult⟩ := ih next
      refine ⟨item :: before, after, pending, rfl, ?_, ?_, hresult⟩
      · show openAfter progress.nesting ([item] ++ before) = some pending
        rw [openAfter_append, hopen]
        exact hbefore
      · rw [SymbolTable.newNames_cons hnames, ← List.append_assoc, ← hnames]
        exact hrest
    · rw [htake]
      exact ⟨[], item :: others, progress.nesting, rfl, rfl, (List.append_nil _).symm,
        .inr (.inr ⟨item, others, error, rfl, hoffends, rfl⟩)⟩

/-- Items whose symbols all have a number already leave the table as it is. -/
theorem symbols_run (progress : Progress) {stop : Position} {items : List Item}
    (h : ∀ item ∈ items, ∀ name, item.name? = some name → name ∈ progress.symbols.names) :
    (progress.run stop items).2 = progress.symbols := by
  induction items generalizing progress with
  | nil => rfl
  | cons item others ih =>
    rw [run]
    cases htake : progress.take item with
    | error error => rfl
    | ok next =>
      have hsymbols := symbols_take htake (h item (List.mem_cons_self ..))
      refine (ih next ?_).trans hsymbols
      rw [hsymbols]
      exact fun other hother => h other (List.mem_cons_of_mem _ hother)

end Progress

end Parse

/-! ### Texts -/

/-- A parse stops at the first item that offends, with the error of this item, and then the
table has got the new names before it. If no item offends, the table has got all new names of
the text. A list that is still open is then the only cause to fail, and it is blamed on the
place behind the last line. -/
theorem parse_stops_at_offence (source : String) (text : List Char) (table : SymbolTable) :
    ∃ (before after : List Item) (pending : List Bracket),
      scan source text = before ++ after ∧ openAfter [] before = some pending ∧
      (∀ earlier item later brackets error, before = earlier ++ item :: later →
        openAfter [] earlier = some brackets → ¬ item.Offends brackets error) ∧
      (parse source text table).2.names = table.names ++ table.newNames before ∧
      ((after = [] ∧ pending = [] ∧ ∃ forms, (parse source text table).1 = .ok forms) ∨
        (after = [] ∧ pending ≠ [] ∧ ∃ line, (lines text).getLast? = some line ∧
          (parse source text table).1 =
            .error ⟨.unclosedList, ⟨source, (lines text).length, line.length + 1⟩⟩) ∨
        ∃ item others error, after = item :: others ∧ item.Offends pending error ∧
          (parse source text table).1 = .error error) := by
  obtain ⟨before, after, pending, hscan, hopen, hnames, hresult⟩ :=
    (Parse.start table).run_stops (endOf source text) (scan source text)
  have hrun : (Parse.start table).run (endOf source text) (scan source text) =
      parse source text table := rfl
  rw [hrun] at hnames hresult
  refine ⟨before, after, pending, hscan, hopen, ?_, hnames, ?_⟩
  · intro earlier item later brackets error heq hearlier
    -- The brackets are followed through all items before the offence, so through this one.
    have hbefore : openAfter [] (earlier ++ item :: later) = some pending := heq ▸ hopen
    rw [openAfter_append, hearlier] at hbefore
    exact not_offends_of_openAfter hbefore error
  · rcases hresult with hforms | ⟨hafter, hpending, herror⟩ | hoffends
    · exact .inl hforms
    · refine .inr (.inl ⟨hafter, hpending, ?_⟩)
      obtain ⟨line, hline⟩ := exists_line_of_unclosed herror
      exact ⟨line, hline, endOf_of_getLast? source hline ▸ herror⟩
    · exact .inr (.inr hoffends)

end BracketLisp
