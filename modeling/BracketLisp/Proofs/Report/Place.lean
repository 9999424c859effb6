import BracketLisp.Proofs.Report.Renderer
import BracketLisp.Proofs.Session.Provenance

/-!
# `BracketLisp.Proofs.Report.Place`: what a report points at

A report about an error has three ways to say where: the numbers in its header, the line that
it shows, and the mark below it. The mark is always at the right character. The numbers and the
line are those of the error as long as no stray line break comes before it, and up to the end of
its line.

* `Blames` says what an error of a run stands at, and `blames_of_run` that every error but an
  open list stands at a token, or at a character in a literal.
* `report_points_at_error` follows this character to the report, for any renderer that is as
  documented, and `report_leads_astray` is a report whose header contradicts its message.
-/

set_option autoImplicit false

namespace BracketLisp

open Text

/-! ### What errors stand at -/

/-- The message of a failure and the place that it names, unless the fuel ran out. -/
def Session.Failure.located? : Session.Failure → Option (Located String)
  | parse error => some ⟨error.message, error.span⟩
  | eval error => some ⟨error.message, error.span⟩
  | outOfFuel => none

/-- Whether a failure is a list that the text does not close. -/
def Session.Failure.IsUnclosed (failure : Session.Failure) : Prop :=
  ∃ place, failure = .parse ⟨.unclosedList, place⟩

namespace Report

/-- What the error of a run of a text stands at: the first character of a token or of a literal
that its line does not close, or a character that spoils a literal. -/
inductive Blames (source : String) (text : List Char) (place : Position) (c : Char) :
    Session.Failure → Prop where
  | token {failure : Session.Failure} {rest : List Char}
      (hitem : (lexeme c rest).place place ∈ scan source text)
      (hescape : ∀ found, failure ≠ .parse ⟨.illegalEscape found, place⟩) :
      Blames source text place c failure
  | escape {item : Item} (hitem : item ∈ scan source text)
      (hreading : item.reading = .error ⟨.illegalEscape c, place⟩) :
      Blames source text place c (.parse ⟨.illegalEscape c, place⟩)

/-- Whether a place is that of a character of a line, which has an index in its text, as the
character has one in the line. -/
structure StandsAt (source : String) (text chars : List Char) (index column : Nat) (c : Char)
    (place : Position) : Prop where
  place_eq : place = ⟨source, index + 1, column + 1⟩
  line_eq : (lines text)[index]? = some chars
  char_eq : chars[column]? = some c

/-- An item starts at a character of a line. -/
theorem standsAt_start {source : String} {text : List Char} {item : Item}
    (h : item ∈ scan source text) :
    ∃ line index column c, StandsAt source text line index column c item.start ∧
      ∃ rest, item = (lexeme c rest).place item.start := by
  obtain ⟨index, done, c, rest, hline, rfl⟩ := exists_of_mem_scan h
  exact ⟨_, index, done.length, c, ⟨rfl, hline, by simp⟩, rest, rfl⟩

/-- An item that spoils a literal does it with a character of a line, and any other that has an
error has it at its start. -/
theorem standsAt_of_reading {source : String} {text : List Char} {item : Item}
    (h : item ∈ scan source text) {error : ParseError} (herror : item.reading = .error error) :
    error = ⟨.unclosedLiteral, item.start⟩ ∨ ∃ line index column c,
      StandsAt source text line index column c error.span ∧ error.value = .illegalEscape c := by
  obtain ⟨index, done, c, rest, hline, rfl⟩ := exists_of_mem_scan h
  cases hreading : (lexeme c rest).reading with
  | ok token =>
    simp only [Lexeme.place, hreading] at herror
    cases herror
  | error fault =>
    simp only [Lexeme.place, hreading] at herror
    obtain rfl := Except.error.inj herror
    rcases blame_of_lexeme hreading with rfl | ⟨found, count, rfl, hfound, hblame⟩
    · exact .inl rfl
    · refine .inr ⟨_, index, done.length + count, found, ⟨?_, hline, ?_⟩, rfl⟩
      · rw [Nat.add_right_comm]
        exact hblame _
      · rw [List.getElem?_append_right (Nat.le_add_right ..), Nat.add_sub_cancel_left, hfound]

/-- A failure that no escape spoils, blamed on the start of an item, stands there. -/
theorem blames_start {source : String} {text : List Char} {item : Item}
    (h : item ∈ scan source text) {failure : Session.Failure}
    (hescape : ∀ found, failure ≠ .parse ⟨.illegalEscape found, item.start⟩) :
    ∃ line index column c, StandsAt source text line index column c item.start ∧
      Blames source text item.start c failure := by
  obtain ⟨line, index, column, c, hstands, rest, hitem⟩ := standsAt_start h
  exact ⟨line, index, column, c, hstands, .token (hitem ▸ h) hescape⟩

/-- An error of the parser stands at a character of a line, unless it is about an open list. -/
theorem blames_of_parse {source : String} {text : List Char} {table : SymbolTable}
    {error : ParseError} (h : (parse source text table).1 = .error error)
    (hopen : error.value ≠ .unclosedList) :
    ∃ line index column c, StandsAt source text line index column c error.span ∧
      Blames source text error.span c (.parse error) := by
  cases Parse.Progress.errorFrom_run h with
  | item hitem hreading =>
    rcases standsAt_of_reading hitem hreading with rfl | ⟨line, index, column, c, hstands, hvalue⟩
    · exact blames_start hitem nofun
    · obtain ⟨value, place⟩ := error
      obtain rfl : value = .illegalEscape c := hvalue
      exact ⟨line, index, column, c, hstands, .escape hitem hreading⟩
  | closing hitem hreading => exact blames_start hitem nofun
  | atom hitem => exact blames_start hitem nofun
  | stop => exact absurd rfl hopen

/-- Only a failed evaluation has one error. -/
theorem result_of_errors {H : Type} {result : Except Session.Failure (Value H)} {error : EvalError}
    (h : (Answer.ran result).errors = [error]) : result = .error (.eval error) := by
  rcases result with (_ | found | _) | value
  · cases h
  · rw [List.singleton_injective h]
  · cases h
  · cases h

variable {H : Type} [Host H]

/-- An error of an evaluation in a new session stands at the token of a node. -/
theorem blames_of_eval {fuel owner : Nat} {source : String} {text : List Char}
    {after : Environment H} {error : EvalError}
    (h : Session.run fuel source text (.full owner) = (.error (.eval error), after)) :
    ∃ line index column c, StandsAt source text line index column c error.span ∧
      Blames source text error.span c (.eval error) := by
  let request : Request H := .run .whole source text
  have hanswer : Answers request (.full owner) (.ran (.error (.eval error))) after :=
    ⟨nofun, fuel, by rw [Session.answer, h]; rfl⟩
  have hrequest : request.HostFree := trivial
  have hsourced := Sourced.start_of_data (H := H) (Environment.hostFree_full owner)
    (Environment.no_function_full owner)
  obtain ⟨node, ⟨-, source', text', env, hparsed, -⟩, hspan, -⟩ :=
    (hsourced.step hrequest hanswer).2 error (List.mem_singleton.2 rfl)
  -- The only text that the session was to run is this one.
  obtain ⟨earlier, mode, later, answers, hrequests, -⟩ := hparsed.given
  have hmem : .run mode source' text' ∈ [] ++ [request] :=
    hrequests ▸ List.mem_append_right earlier (List.mem_cons_self ..)
  have hgiven : Request.run mode source' text' = .run .whole source text :=
    List.mem_singleton.1 hmem
  cases hgiven
  obtain ⟨token, htoken, hmark⟩ := hparsed.token
  obtain ⟨item, hitem, hstart, -⟩ := item_of_token htoken
  rw [← hspan, ← hmark.span_eq, ← hstart]
  exact blames_start hitem (by simp)

/-- Only the parser makes errors of parsing. -/
theorem parse_of_run {fuel : Nat} {source : String} {text : List Char} {env after : Environment H}
    {error : ParseError}
    (h : Session.run fuel source text env = (.error (.parse error), after)) :
    (parse source text env.symbols).1 = .error error := by
  unfold Session.run at h
  split at h
  next hparse =>
    cases h
    exact congrArg Prod.fst hparse
  next forms env hparse =>
    -- A halt of the evaluation is none of the parser.
    cases hresult : ((Session.evalForms fuel .root .nil forms).apply env).1 with
    | ok value =>
      have hvalue := congrArg Prod.fst h
      simp [hresult, Except.mapError] at hvalue
    | error halt =>
      have hhalt := congrArg Prod.fst h
      cases halt <;> simp [hresult, Except.mapError, Session.Failure.ofHalt] at hhalt

/-- An error of a new session stands at a character of a line, unless it is about an open
list. -/
theorem blames_of_run {fuel owner : Nat} {source : String} {text : List Char}
    {failure : Session.Failure} {after : Environment H}
    (h : Session.run fuel source text (.full owner) = (.error failure, after)) {message : String}
    {place : Position} (hplace : failure.located? = some ⟨message, place⟩)
    (hopen : ¬ failure.IsUnclosed) :
    ∃ line index column c, StandsAt source text line index column c place ∧
      Blames source text place c failure := by
  cases failure with
  | outOfFuel => cases hplace
  | eval error =>
    cases hplace
    exact blames_of_eval h
  | parse error =>
    cases hplace
    exact blames_of_parse (parse_of_run h) fun hvalue => hopen ⟨error.span, by rw [← hvalue]⟩

end Report

open Report

variable {H : Type} [Host H]

/-- Take an error of a new session, on any text, that is not about an open list. It names the
place of a character of a line, at which the blamed token starts, or which spoils a literal.
A report, drawn by whatever renderer is as documented, repeats the message and shows a row of the
page. It has its mark under this character, unless the character belongs to the white space that
is missing at the end of the row or takes no column. The number in the header is that of the
line exactly if no line break before the character is stray. Then the column is right, too. If
no line break up to the end of the line is stray, the row is the line without the white space
at its end. -/
theorem report_points_at_error {renderer : Renderer} (hrenderer : renderer.Documented)
    {fuel owner : Nat} {source : String} {text : List Char} {failure : Session.Failure}
    {after : Environment H}
    (h : Session.run fuel source text (.full owner) = (.error failure, after)) {message : String}
    {place : Position} (hplace : failure.located? = some ⟨message, place⟩)
    (hopen : ¬ failure.IsUnclosed) :
    ∃ line index column c, StandsAt source text line index column c place ∧
      Blames source text place c failure ∧
      ∃ rows number shownColumn content,
        toReport renderer message place text = joinRows rows ∧
        rows.head? = some ("Error: " ++ message) ∧
        Shows renderer.width rows number shownColumn content ∧
        (content[shownColumn]? = some c ∨ content.length ≤ shownColumn ∧ isBlank c = true) ∧
        (number = place.line ↔ ∀ before < place.offsetIn text, ¬ Stray text before) ∧
        ((∀ before < place.offsetIn text, ¬ Stray text before) → shownColumn + 1 = place.column) ∧
        ((∀ before < lineStart text index + line.length, ¬ Stray text before) →
          content = trimEnd line) := by
  obtain ⟨line, index, column, c, hstands, hblames⟩ := blames_of_run h hplace hopen
  refine ⟨line, index, column, c, hstands, hblames, ?_⟩
  obtain ⟨rfl, hline, hchar⟩ := hstands
  obtain ⟨hcolumn, -⟩ := List.getElem?_eq_some_iff.1 hchar
  have hwithin := lineStart_add_length_le_length hline
  have hoffset := Position.offsetIn_of_line hline (Nat.le_of_lt hcolumn) source
  generalize hplace : (⟨source, index + 1, column + 1⟩ : Position) = place at hoffset
  -- The offset is that of a character, so that drawing it into the text does not move it.
  have hstart : (sketchOf message place text).start = lineStart text index + column := by
    rw [sketchOf, hoffset, Nat.min_eq_left (by omega)]
  have hstop : (sketchOf message place text).label.stop =
      (sketchOf message place text).start + 1 := by
    have hmin : (sketchOf message place text).label.stop =
      min ((sketchOf message place text).start + 1) text.length := rfl
    rw [hmin, hstart, Nat.min_eq_left (by omega)]
  have hpage : renderer.lines text = pageLines text :=
    (hrenderer.lines_eq text).trans (pageLines_eq_cut text).symm
  have hlength : (pageLines text).flatten.length = text.length := by
    rw [pageLines_eq_cut, flatten_cut]
  obtain ⟨row, shownColumn, content, hrow, hwithinRow, hspotStart⟩ :=
    exists_row (show lineStart text index + column < (pageLines text).flatten.length by omega)
  have hspot : (⟨1 + row, shownColumn, content⟩ : Spot) =
      locate 1 (lineStart text index + column) (pageLines text) :=
    hspotStart ▸ (locate_of_getElem? 1 hrow hwithinRow).symm
  obtain ⟨hnumber, hat, hcontent, hshown⟩ := locate_pageLines hline hcolumn rfl hspot
  rw [← hpage] at hrow hspotStart
  obtain ⟨rows, hdraw, hhead, hshows⟩ := hrenderer.shows (sketchOf message place text) row
    shownColumn content rfl hstop rfl hrow hwithinRow (hstart.trans hspotStart)
  refine ⟨rows, row + 1, shownColumn, trimEnd content, ?_, hhead, hshows, ?_, ?_, ?_, hcontent⟩
  · rw [toReport, if_neg (by omega), hdraw]
  · rw [hchar] at hshown
    obtain ⟨back, hback, hblank⟩ := exists_trimEnd content
    have hfound : content[shownColumn]? = some c := hshown
    rw [hback] at hfound
    rcases Nat.lt_or_ge shownColumn (trimEnd content).length with hlt | hge
    · exact .inl (by rwa [List.getElem?_append_left hlt] at hfound)
    · rw [List.getElem?_append_right hge] at hfound
      exact .inr ⟨hge, hblank c (List.mem_of_getElem? hfound)⟩
  · rw [hoffset, ← hplace, Nat.add_comm row]
    exact hnumber
  · rw [hoffset, ← hplace]
    exact fun hstray => congrArg (· + 1) (hat hstray)

open Environment (full) in
/-- The error is on the second line, behind a tab. The first line ends with a carriage return and
a line feed, and no line break is stray. -/
theorem report_points_at_error_tabulated :
    ∃ (text : List Char) (error : EvalError) (after : Environment Empty) (rows : List String),
      plain.Documented ∧
        text = "(do 1)\r\n\t(do x 2)  ".toList ∧ error.span = ⟨"t", 2, 6⟩ ∧
        Session.run 10 "t" text (full 0) = (.error (.eval error), after) ∧
        toReport plain error.message error.span text = joinRows rows ∧
        Shows plain.width rows 2 5 "\t(do x 2)".toList := by
  let text := "(do 1)\r\n\t(do x 2)  ".toList
  let error : EvalError := ⟨.undefinedSymbol "x", ⟨"t", 2, 6⟩⟩
  have hresult : (Session.run 10 "t" text (full 0 : Environment Empty)).1 =
      .error (.eval error) :=
    result_of_errors (by decide +kernel)
  have hrun : Session.run 10 "t" text (full 0 : Environment Empty) =
      (.error (.eval error), _) := Prod.ext hresult rfl
  obtain ⟨line, index, column, c, ⟨hplace, hline, -⟩, -, rows, number, shownColumn, content,
    hreport, -, hshows, -, hnumber, hcolumn, hrow⟩ :=
    report_points_at_error documented_plain hrun rfl fun ⟨_, hparse⟩ => nomatch hparse
  obtain ⟨rfl, rfl⟩ : index = 1 ∧ column = 5 := by
    obtain ⟨-, hindex, hcolumn⟩ := Position.mk.inj hplace
    omega
  obtain rfl : line = "\t(do x 2)  ".toList := Option.some.inj (hline.symm.trans (by decide))
  -- The fourteenth character of the text is blamed, and its line ends with the nineteenth.
  have hbefore : ∀ before < error.span.offsetIn text, ¬ Stray text before := by decide
  have hline : ∀ before < lineStart text 1 + 11, ¬ Stray text before := by decide
  obtain rfl : number = 2 := hnumber.2 hbefore
  obtain rfl : shownColumn = 5 := Nat.succ.inj (hcolumn hbefore)
  obtain rfl : content = "\t(do x 2)".toList := (hrow hline).trans (by decide)
  exact ⟨text, error, _, rows, documented_plain, rfl, rfl, hrun, hreport, hshows⟩

/-- A line separator in a string is a line break of the page and none of the text. The message
of the error names the second line, which is the last, and the header of the report the third. -/
theorem report_leads_astray :
    ∃ (text : List Char) (error : EvalError) (after : Environment Empty) (rows : List String),
      plain.Documented ∧
        text = "(do \"\u2028\")\n(x)".toList ∧ error.span = ⟨"t", 2, 2⟩ ∧
        Session.run 10 "t" text (.full 0) = (.error (.eval error), after) ∧
        toReport plain error.message error.span text = joinRows rows ∧
        rows[1]? = some "   ╭─[<unknown>:3:2]" ∧ rows[3]? = some " 3 │ (x)" := by
  let text := "(do \"\u2028\")\n(x)".toList
  let error : EvalError := ⟨.undefinedSymbol "x", ⟨"t", 2, 2⟩⟩
  let sketch := sketchOf error.message error.span text
  have hresult : (Session.run 10 "t" text (.full 0 : Environment Empty)).1 =
      .error (.eval error) :=
    result_of_errors (by decide +kernel)
  exact ⟨text, error, _, rows sketch sketch.spot, documented_plain, rfl, rfl,
    Prod.ext hresult rfl, rfl, by decide +kernel, by decide +kernel⟩

end BracketLisp
