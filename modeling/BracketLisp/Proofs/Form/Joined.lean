import BracketLisp.Proofs.Form.Reading
import BracketLisp.Proofs.Token.Tiling

/-!
# `BracketLisp.Proofs.Form.Joined`: one text below another

Two texts are joined by a line feed between them. Every item is on one line, so the joined
text has the items of the first text, and then those of the second some lines further down.
A parse of the joined text therefore does what two parses in a row do, the second with the
table that the first one leaves.

* `lines_joined` finds the lines of a joined text, and `scan_joined` its items.
* `Element.lowered` and `Form.below` move what was read to later lines.
* `Progress.run_joined` and `run_joined_of_error` go through the items of the first text, and
  `Progress.run_below` shows that reading further down gives the same further down.

`parse_joined` puts them together. The first text must not end in a carriage return, which
would become a part of the line feed.
-/

set_option autoImplicit false

namespace BracketLisp

open Text

/-! ### Lines -/

namespace Text

/-- The first line feed ends the first piece. -/
theorem pieces_append_feed {first : List Char} (h : '\n' ∉ first) (rest : List Char) :
    pieces (first ++ '\n' :: rest) = (first ++ ['\n']) :: pieces rest := by
  induction first with
  | nil => simp [pieces]
  | cons c first ih =>
    rw [List.mem_cons, not_or] at h
    rw [List.cons_append, pieces, if_neg (Ne.symm h.1), ih h.2]
    rfl

/-- The terminator of a piece is all that is not of its line. -/
theorem body_append_feed {line : List Char} (hfeed : '\n' ∉ line)
    (hreturn : line.getLast? ≠ some '\r') : body (line ++ ['\n']) = line := by
  rw [body_append hfeed hreturn, body, List.append_nil]

/-- The lines of joined texts are those of the first, and then those of the second. The line
feed between them ends the last line of the first text, or a blank one after it. -/
theorem lines_joined {first : List Char} (hreturn : first.getLast? ≠ some '\r')
    (second : List Char) :
    ∃ blank : List (List Char), (∀ line ∈ blank, line = []) ∧
      lines (first ++ '\n' :: second) = lines first ++ blank ++ lines second ∧
      (lines first ++ blank).length = 1 + first.count '\n' := by
  have hfeed : '\n' ∉ unended first := not_mem_unended first
  have hlast : (unended first).getLast? ≠ some '\r' := fun h =>
    hreturn (ended_append_unended first ▸ List.mem_getLast?_append_of_mem_getLast? h)
  -- The last line of the first text ends where the line feed is put.
  have hjoined : lines (first ++ '\n' :: second) =
      lines (ended first) ++ unended first :: lines second := by
    rw [lines_append_ended, lines.eq_def (unended first ++ _), pieces_append_feed hfeed,
      List.map_cons, body_append_feed hfeed hlast, ← lines]
  have hfirst : lines first = lines (ended first) ++ lines (unended first) := by
    simpa using lines_append_ended first []
  have hlength : (lines (ended first)).length = first.count '\n' := by
    rw [lines, List.length_map, length_pieces_ended]
  rw [hjoined, hfirst]
  cases hrest : unended first with
  | nil =>
    have hnone : lines [] = [] := rfl
    exact ⟨[[]], by simp, by simp [hnone], by simp [hnone, hlength, Nat.add_comm]⟩
  | cons c rest =>
    rw [← hrest, lines_of_not_mem (hrest ▸ List.cons_ne_nil c rest) hfeed]
    exact ⟨[], by simp, by simp, by simp [hlength, Nat.add_comm]⟩

end Text

/-! ### Items -/

theorem scanLines_append (source : String) (number : Nat) (rows others : List (List Char)) :
    scanLines source number (rows ++ others) =
      scanLines source number rows ++ scanLines source (number + rows.length) others := by
  induction rows generalizing number with
  | nil => rfl
  | cons row rows ih =>
    rw [List.cons_append, scanLines, scanLines, ih, List.append_assoc, List.length_cons,
      Nat.add_right_comm, Nat.add_assoc]

/-- Later lines have the same items, further down. -/
theorem scanLines_below (source : String) (number count : Nat) (rows : List (List Char)) :
    scanLines source (number + count) rows =
      (scanLines source number rows).map (·.below count) := by
  induction rows generalizing number with
  | nil => rfl
  | cons row rows ih =>
    rw [scanLines, scanLines, List.map_append, scanLine_below, Nat.add_right_comm, ih]

/-- Blank lines have no items. -/
theorem scanLines_blank (source : String) (number : Nat) {rows : List (List Char)}
    (h : ∀ row ∈ rows, row = []) : scanLines source number rows = [] := by
  induction rows generalizing number with
  | nil => rfl
  | cons row rows ih =>
    rw [List.forall_mem_cons] at h
    rw [scanLines, ih (number + 1) h.2, h.1]
    simp [scanLine, lexemes, placeAll]

/-- A joined text has the items of the first text, and those of the second below them. -/
theorem scan_joined (source : String) {first : List Char}
    (hreturn : first.getLast? ≠ some '\r') (second : List Char) :
    scan source (first ++ '\n' :: second) = scan source first ++
      (scan source second).map (·.below (1 + first.count '\n')) := by
  obtain ⟨blank, hblank, hlines, hcount⟩ := lines_joined hreturn second
  rw [scan, hlines, scanLines_append, hcount, scanLines_append, scanLines_blank _ _ hblank,
    List.append_nil, scanLines_below]
  rfl

/-- A joined text ends where the second one does, further down, if that one has a line. -/
theorem endOf_joined (source : String) {first : List Char}
    (hreturn : first.getLast? ≠ some '\r') {second : List Char} (hlines : lines second ≠ []) :
    endOf source (first ++ '\n' :: second) =
      (endOf source second).below (1 + first.count '\n') := by
  obtain ⟨blank, -, hjoined, hcount⟩ := lines_joined hreturn second
  have hlast : (lines (first ++ '\n' :: second)).getLast? = (lines second).getLast? := by
    rw [hjoined, List.getLast?_append_of_ne_nil _ hlines]
  have hlength : (lines (first ++ '\n' :: second)).length =
      (lines second).length + (1 + first.count '\n') := by
    rw [hjoined, List.length_append, hcount, Nat.add_comm]
  cases hend : (lines second).getLast? with
  | none => exact absurd (List.getLast?_eq_none_iff.1 hend) hlines
  | some line =>
    rw [endOf_of_getLast? source (hlast.trans hend), endOf_of_getLast? source hend, hlength]
    rfl

/-! ### What was read, further down -/

/-- The same error, `count` lines further on. -/
def ParseError.below (error : ParseError) (count : Nat) : ParseError :=
  ⟨error.value, error.span.below count⟩

mutual

/-- The same element, `count` lines further on. -/
def Element.lowered (count : Nat) : Element → Element
  | .list bracket elements span => .list bracket (loweredAll count elements) (span.below count)
  | .int value span => .int value (span.below count)
  | .float value span => .float value (span.below count)
  | .string content span => .string content (span.below count)
  | .symbol id span => .symbol id (span.below count)

/-- The same elements, `count` lines further on. -/
def loweredAll (count : Nat) : List Element → List Element
  | [] => []
  | element :: others => element.lowered count :: loweredAll count others

end

/-- The same form, `count` lines further on. -/
def Form.below (form : Form) (count : Nat) : Form :=
  ⟨form.bracket, loweredAll count form.elements, form.span.below count⟩

theorem loweredAll_eq_map (count : Nat) (elements : List Element) :
    loweredAll count elements = elements.map (·.lowered count) := by
  induction elements with
  | nil => rfl
  | cons element others ih => rw [loweredAll, ih, List.map_cons]

@[simp]
theorem span_lowered (element : Element) (count : Nat) :
    (element.lowered count).span = element.span.below count := by
  cases element <;> rfl

namespace Parse

/-- The same open list, `count` lines further on. -/
def OpenList.below (pending : OpenList) (count : Nat) : OpenList :=
  ⟨pending.bracket, loweredAll count pending.latest, pending.span.below count⟩

/-- A list that is closed further down is the same form further down. -/
theorem OpenList.form_below (pending : OpenList) (count : Nat) :
    (pending.below count).form = pending.form.below count := by
  simp only [OpenList.form, OpenList.below, Form.below, loweredAll_eq_map, List.map_reverse]

/-- A bare token further down is the same number or symbol further down. -/
theorem classify_below (symbols : SymbolTable) (name : String) (span : Position) (count : Nat) :
    classify symbols name (span.below count) =
      ((classify symbols name span).1.lowered count, (classify symbols name span).2) := by
  unfold classify
  split
  · rfl
  · split <;> rfl

namespace Progress

/-- The same progress, `count` lines further on and with `earlier` read before. -/
def below (progress : Progress) (earlier : List Form) (count : Nat) : Progress where
  pending := progress.pending.map (·.below count)
  latest := progress.latest.map (·.below count) ++ earlier.reverse
  symbols := progress.symbols

variable (progress : Progress) (earlier : List Form) (count : Nat)

theorem add_below (element : Element) :
    (progress.below earlier count).add (element.lowered count) =
      ((progress.add element).map (·.below earlier count)).mapError (·.below count) := by
  obtain ⟨pending, latest, symbols⟩ := progress
  cases pending with
  | nil => simp [below, add, Except.map, Except.mapError, ParseError.below]
  | cons innermost outer => rfl

theorem complete_below (form : Form) :
    (progress.below earlier count).complete (form.below count) =
      (progress.complete form).below earlier count := by
  obtain ⟨pending, latest, symbols⟩ := progress
  cases pending <;> rfl

theorem close_below (bracket : Bracket) (span : Position) :
    (progress.below earlier count).close bracket (span.below count) =
      ((progress.close bracket span).map (·.below earlier count)).mapError (·.below count) := by
  obtain ⟨pending, latest, symbols⟩ := progress
  cases pending with
  | nil => rfl
  | cons innermost outer =>
    have hcomplete := complete_below ⟨outer, latest, symbols⟩ earlier count innermost.form
    rw [← OpenList.form_below] at hcomplete
    by_cases hbracket : innermost.bracket = bracket
    · have hbelow : (innermost.below count).bracket = bracket := hbracket
      simp only [close, below, List.map_cons, if_pos hbracket, if_pos hbelow]
      exact congrArg Except.ok hcomplete
    · have hbelow : (innermost.below count).bracket ≠ bracket := hbracket
      simp only [close, below, List.map_cons, if_neg hbracket, if_neg hbelow]
      rfl

theorem takeToken_below (token : Token) (span : Position) :
    (progress.below earlier count).takeToken token (span.below count) =
      ((progress.takeToken token span).map (·.below earlier count)).mapError
        (·.below count) := by
  cases token with
  | space | tab | comment text | opening bracket => rfl
  | closing bracket => exact progress.close_below earlier count bracket span
  | literal content => exact progress.add_below earlier count (.string content span)
  | symbol name =>
    obtain ⟨pending, latest, symbols⟩ := progress
    cases pending with
    | nil => rfl
    | cons innermost outer =>
      have hadd := add_below ⟨innermost :: outer, latest, (classify symbols name span).2⟩ earlier
        count (classify symbols name span).1
      simp only [takeToken, below, classify_below, List.map_cons, List.isEmpty_cons]
      exact hadd

/-- An item further down does the same further down. -/
theorem take_below (item : Item) :
    (progress.below earlier count).take (item.below count) =
      ((progress.take item).map (·.below earlier count)).mapError (·.below count) := by
  obtain ⟨start, stop, reading⟩ := item
  cases reading with
  | error error => rfl
  | ok token => exact progress.takeToken_below earlier count token start

/-- Items further down are read as the same forms further down, behind those read before. -/
theorem run_below (stop : Position) (items : List Item) :
    (progress.below earlier count).run (stop.below count) (items.map (·.below count)) =
      (((progress.run stop items).1.map fun forms =>
          earlier ++ forms.map (·.below count)).mapError (·.below count),
        (progress.run stop items).2) := by
  induction items generalizing progress with
  | nil =>
    obtain ⟨pending, latest, symbols⟩ := progress
    cases pending with
    | nil => simp [run, finish, below, Except.map, Except.mapError]
    | cons innermost outer => rfl
  | cons item others ih =>
    rw [List.map_cons, run, run, take_below]
    cases progress.take item with
    | error error => rfl
    | ok next => exact ih next

/-! ### One row of items after another -/

/-- Once items are read as forms, the others are read as if they came first, with the table
that the first ones leave. -/
theorem run_joined {progress : Progress} {stop : Position} {items : List Item}
    {forms : List Form} (h : (progress.run stop items).1 = .ok forms) (end' : Position)
    (others : List Item) :
    progress.run end' (items ++ others) =
      Progress.run ⟨[], forms.reverse, (progress.run stop items).2⟩ end' others := by
  induction items generalizing progress with
  | nil =>
    obtain ⟨pending, latest, symbols⟩ := progress
    cases pending with
    | nil =>
      obtain rfl := Except.ok.inj h
      simp [run]
    | cons innermost outer => cases h
  | cons item items ih =>
    rw [List.cons_append, run, run]
    rw [run] at h
    cases htake : progress.take item with
    | error error =>
      rw [htake] at h
      cases h
    | ok next =>
      rw [htake] at h
      exact ih h

/-- Once an item offends, the others do not matter. -/
theorem run_joined_of_error {progress : Progress} {stop : Position} {items : List Item}
    {error : ParseError} (h : (progress.run stop items).1 = .error error)
    (herror : error.value ≠ .unclosedList) (end' : Position) (others : List Item) :
    progress.run end' (items ++ others) = progress.run stop items := by
  induction items generalizing progress with
  | nil =>
    -- Only an open list makes a parse fail at its end.
    simp only [run, finish] at h
    split at h
    · cases h
    · cases h
      exact absurd rfl herror
  | cons item items ih =>
    rw [List.cons_append, run, run]
    rw [run] at h
    cases htake : progress.take item with
    | error error => rfl
    | ok next =>
      rw [htake] at h
      exact ih h

end Progress

end Parse

/-! ### Texts -/

/-- After a text that has forms, the second text is read as if it stood alone and the table
of the first one were known, and then moved below the first. -/
theorem parse_joined_of_ok {source : String} {first : List Char}
    (hreturn : first.getLast? ≠ some '\r') {table : SymbolTable} {forms : List Form}
    (h : (parse source first table).1 = .ok forms) (second : List Char) :
    parse source (first ++ '\n' :: second) table =
      (((parse source second (parse source first table).2).1.map fun others =>
          forms ++ others.map (·.below (1 + first.count '\n'))).mapError
            (·.below (1 + first.count '\n')),
        (parse source second (parse source first table).2).2) := by
  have hjoined := Parse.Progress.run_joined h (endOf source (first ++ '\n' :: second))
    ((scan source second).map (·.below (1 + first.count '\n')))
  rw [← scan_joined source hreturn second] at hjoined
  show (Parse.start table).run _ _ = _
  rw [hjoined]
  by_cases hlines : lines second = []
  · -- A text without lines has nothing that could be open at its end.
    simp [parse, scan, scanLines, hlines, Parse.Progress.run, Parse.Progress.finish, Parse.start,
      Except.map, Except.mapError]
  · rw [endOf_joined source hreturn hlines]
    exact (Parse.start (parse source first table).2).run_below forms (1 + first.count '\n')
      (endOf source second) (scan source second)

/-- Parsing a text below another is parsing them one after the other. If both have forms, the
joined text has those of the first and then those of the second, moved down by the lines
above it, and it leaves the table that the second leaves. An error of the second text moves
down likewise, and an error of the first is that of the joined text, unless it only says that
the first text ends with an open list. -/
theorem parse_joined (source : String) {first : List Char}
    (hreturn : first.getLast? ≠ some '\r') (second : List Char) (table : SymbolTable) :
    (∀ forms known others later, parse source first table = (.ok forms, known) →
      parse source second known = (.ok others, later) →
      parse source (first ++ '\n' :: second) table =
        (.ok (forms ++ others.map (·.below (1 + first.count '\n'))), later)) ∧
    (∀ forms known error later, parse source first table = (.ok forms, known) →
      parse source second known = (.error error, later) →
      parse source (first ++ '\n' :: second) table =
        (.error (error.below (1 + first.count '\n')), later)) ∧
    ∀ error known, parse source first table = (.error error, known) →
      error.value ≠ .unclosedList →
      parse source (first ++ '\n' :: second) table = (.error error, known) := by
  refine ⟨?_, ?_, ?_⟩
  · intro forms known others later hfirst hsecond
    rw [parse_joined_of_ok hreturn (congrArg Prod.fst hfirst) second, hfirst, hsecond]
    rfl
  · intro forms known error later hfirst hsecond
    rw [parse_joined_of_ok hreturn (congrArg Prod.fst hfirst) second, hfirst, hsecond]
    rfl
  · intro error known hfirst herror
    have hjoined := Parse.Progress.run_joined_of_error (congrArg Prod.fst hfirst) herror
      (endOf source (first ++ '\n' :: second))
      ((scan source second).map (·.below (1 + first.count '\n')))
    rw [← scan_joined source hreturn second] at hjoined
    exact hjoined.trans hfirst

/-- The first text has two lines, the last of them a comment. Below it a list stands on the
third line, and a bracket that is out of place there is blamed there. Above the second text
the same bracket is blamed on the first line, and the list behind it does not count. -/
theorem parse_joined_comment :
    ∃ (first second spoiled : List Char) (forms others : List Form)
      (known later : SymbolTable) (error : ParseError),
      first.getLast? ≠ some '\r' ∧ spoiled.getLast? ≠ some '\r' ∧
        parse "t" first .empty = (.ok forms, known) ∧
        parse "t" second known = (.ok others, later) ∧
        parse "t" spoiled known = (.error error, known) ∧
        later.names = ["a", "b"] ∧ error = ⟨.unexpectedChar ']', ⟨"t", 1, 4⟩⟩ ∧
        parse "t" (first ++ '\n' :: second) .empty =
          (.ok (forms ++ others.map (·.below 2)), later) ∧
        (forms ++ others.map (·.below 2)).map Form.span = [⟨"t", 1, 1⟩, ⟨"t", 3, 2⟩] ∧
        parse "t" (first ++ '\n' :: spoiled) .empty =
          (.error ⟨.unexpectedChar ']', ⟨"t", 3, 4⟩⟩, known) ∧
        parse "t" (spoiled ++ '\n' :: second) known = (.error error, known) := by
  let first := "(a)\n; c".toList
  let second := " [a b]\r\n".toList
  let spoiled := "(a ]".toList
  let symbol (index column : Nat) : Element := .symbol ⟨index⟩ ⟨"t", 1, column⟩
  let form : Form := ⟨.paren, [symbol 0 2], ⟨"t", 1, 1⟩⟩
  let other : Form := ⟨.square, [symbol 0 3, symbol 1 5], ⟨"t", 1, 2⟩⟩
  let known : SymbolTable := .ofNames ["a"]
  let later : SymbolTable := .ofNames ["a", "b"]
  let error : ParseError := ⟨.unexpectedChar ']', ⟨"t", 1, 4⟩⟩
  have hreturn : first.getLast? ≠ some '\r' := by decide
  have hreturn' : spoiled.getLast? ≠ some '\r' := by decide
  have hfirst : parse "t" first .empty = (.ok [form], known) := by with_unfolding_all rfl
  have hsecond : parse "t" second known = (.ok [other], later) := by with_unfolding_all rfl
  have hspoiled : parse "t" spoiled known = (.error error, known) := by with_unfolding_all rfl
  have hjoined := (parse_joined "t" hreturn second .empty).1 _ _ _ _ hfirst hsecond
  have hbelow := (parse_joined "t" hreturn spoiled .empty).2.1 _ _ _ _ hfirst hspoiled
  have habove := (parse_joined "t" hreturn' second known).2.2 _ _ hspoiled (by decide)
  exact ⟨first, second, spoiled, [form], [other], known, later, error, hreturn, hreturn', hfirst,
    hsecond, hspoiled, rfl, rfl, hjoined, rfl, hbelow, habove⟩

end BracketLisp
