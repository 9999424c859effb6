import BracketLisp.Proofs.Form.Origin
import BracketLisp.Proofs.Position.Offset
import BracketLisp.Proofs.Token.Tiling

/-!
# `BracketLisp.Proofs.Token.Offset`: coordinates lead back to the text

Scanner and parser give line and column, counted on lines without their terminators. The
offset of such a place counts the characters of the whole text. The two agree: at the
offset of an item stand the characters that it was read from.

* `exists_of_mem_scan` finds the line of an item and the rest of it that is still to read.
* `offset_of_mem_scan` and `exists_piece_of_mem_scan` lead from the place of an item to the text.
* `pairwise_scan` orders the items: each one stops before the next one starts.
* `scan_offsets` states all this of a text, of the forms it has and of the error it has.
-/

set_option autoImplicit false

namespace BracketLisp

open Text

/-! ### Items on their lines -/

/-- An item of a line is read from what is left of the line at its place. -/
theorem exists_of_mem_placeAll {start : Position} {line : List Char} {item : Item}
    (h : item ∈ placeAll start (lexemes line)) :
    ∃ (done : List Char) (c : Char) (rest : List Char), line = done ++ c :: rest ∧
      item = (lexeme c rest).place (start.advance done.length) := by
  fun_induction lexemes line generalizing start with
  | case1 => cases h
  | case2 c rest ih =>
    rcases List.mem_cons.1 h with rfl | hmem
    · exact ⟨[], c, rest, rfl, rfl⟩
    · obtain ⟨done, d, others, hdrop, hitem⟩ := ih hmem
      refine ⟨(lexeme c rest).raw ++ done, d, others, ?_, ?_⟩
      · rw [List.append_assoc, ← hdrop]
        conv => rhs; lhs; rw [← take_raw_lexeme]
        exact (List.take_append_drop _ _).symm
      · rw [hitem, Position.advance_advance, List.length_append]

/-- An item of a text is read from what is left of a line at its place. -/
theorem exists_of_mem_scan {source : String} {text : List Char} {item : Item}
    (h : item ∈ scan source text) :
    ∃ (index : Nat) (done : List Char) (c : Char) (rest : List Char),
      (lines text)[index]? = some (done ++ c :: rest) ∧
        item = (lexeme c rest).place ⟨source, index + 1, done.length + 1⟩ := by
  have hrows (number : Nat) (rows : List (List Char))
      (hitem : item ∈ scanLines source number rows) :
      ∃ (index : Nat) (line : List Char), rows[index]? = some line ∧
        item ∈ scanLine source (number + index) line := by
    induction rows generalizing number with
    | nil => cases hitem
    | cons row rows ih =>
      rcases List.mem_append.1 hitem with hrow | hlater
      · exact ⟨0, row, rfl, hrow⟩
      · obtain ⟨index, line, hline, hmem⟩ := ih (number + 1) hlater
        refine ⟨index + 1, line, hline, ?_⟩
        rwa [Nat.add_assoc, Nat.add_comm 1 index] at hmem
  obtain ⟨index, line, hline, hmem⟩ := hrows 1 (lines text) h
  obtain ⟨done, c, rest, rfl, hitem⟩ := exists_of_mem_placeAll hmem
  refine ⟨index, done, c, rest, hline, ?_⟩
  rw [hitem, Nat.add_comm 1 index]
  show (lexeme c rest).place ⟨source, index + 1, 1 + done.length⟩ = _
  rw [Nat.add_comm 1 done.length]

/-! ### Offsets of items -/

/-- The characters of a text from an item on begin with what is left of its line, and the
offset of a place on that rest counts on from the item. -/
theorem offset_of_mem_scan {source : String} {text : List Char} {item : Item}
    (h : item ∈ scan source text) :
    ∃ (c : Char) (rest after : List Char), (∃ line ∈ lines text, c :: rest <:+ line) ∧
      text.drop (item.start.offsetIn text) = c :: rest ++ after ∧
      item = (lexeme c rest).place item.start ∧
      ∀ count ≤ rest.length + 1,
        (item.start.advance count).offsetIn text = item.start.offsetIn text + count := by
  obtain ⟨index, done, c, rest, hline, hitem⟩ := exists_of_mem_scan h
  have hstart : item.start = ⟨source, index + 1, done.length + 1⟩ := by
    rw [hitem]
    rfl
  have hlength : (done ++ c :: rest).length = done.length + (rest.length + 1) := by simp
  have hdone : done.length ≤ (done ++ c :: rest).length := by omega
  have hoffset : item.start.offsetIn text = lineStart text index + done.length := by
    rw [hstart]
    exact Position.offsetIn_of_line hline hdone source
  obtain ⟨after, hafter⟩ := drop_lineStart_add hline hdone
  refine ⟨c, rest, after, ⟨_, List.mem_of_getElem? hline, List.suffix_append ..⟩, ?_, ?_, ?_⟩
  · rw [hoffset, hafter, List.drop_left]
  · rw [hstart, hitem]
  · intro count hcount
    have hcolumn : done.length + count ≤ (done ++ c :: rest).length := by omega
    have hplace : item.start.advance count = ⟨source, index + 1, done.length + count + 1⟩ := by
      rw [hstart, Nat.add_right_comm]
      rfl
    rw [hplace, Position.offsetIn_of_line hline hcolumn, hoffset, Nat.add_assoc]

/-- The lexeme of an item stands in the text at the offset of the item. -/
theorem exists_piece_of_mem_scan {source : String} {text : List Char} {item : Item}
    (h : item ∈ scan source text) :
    ∃ raw rest : List Char, Piece raw rest item.reading ∧
      raw <+: text.drop (item.start.offsetIn text) := by
  obtain ⟨c, rest, after, -, hdrop, hitem, -⟩ := offset_of_mem_scan h
  have hpiece := piece_lexeme c rest item.start
  rw [← hitem] at hpiece
  refine ⟨(lexeme c rest).raw, _, hpiece, ?_⟩
  rw [hdrop, ← take_raw_lexeme]
  exact (List.take_prefix _ _).trans (List.prefix_append ..)

/-! ### Errors of items -/

/-- A literal that is spoiled by a character ends with it. -/
theorem found_of_illegal {progress : Literal.Progress} {rest : List Char} {found : Char}
    (h : (Literal.readFrom progress rest).ending = .illegal found) :
    ∃ inner, rest.take (Literal.readFrom progress rest).used = inner ++ [found] := by
  induction rest generalizing progress with
  | nil => cases h
  | cons c rest ih =>
    unfold Literal.readFrom at h ⊢
    cases hstep : Literal.step progress c with
    | more next =>
      rw [hstep] at h
      obtain ⟨inner, hinner⟩ := ih h
      exact ⟨c :: inner, congrArg (c :: ·) hinner⟩
    | unit decoded =>
      rw [hstep] at h
      obtain ⟨inner, hinner⟩ := ih h
      exact ⟨c :: inner, congrArg (c :: ·) hinner⟩
    | close =>
      rw [hstep] at h
      cases h
    | illegal =>
      rw [hstep] at h
      cases h
      exact ⟨[], rfl⟩

/-- Only a literal can be at fault: because its line ends, or because of its last
character. -/
theorem fault_of_lexeme {c : Char} {rest : List Char} {fault : ParseFault}
    (h : (lexeme c rest).reading = .error fault) :
    fault = .unclosedLiteral ∨
      ∃ (found : Char) (inner : List Char), fault = .illegalEscape found ∧
        (lexeme c rest).raw = inner ++ [found] := by
  unfold lexeme at h ⊢
  split at h
  · cases h
  · cases h
  · cases h
  · simp only [literalLexeme] at h ⊢
    cases hending : (Literal.read rest).ending with
    | closed =>
      rw [hending] at h
      cases h
    | cut =>
      rw [hending] at h
      exact .inl (Except.error.inj h).symm
    | illegal found =>
      rw [hending] at h
      obtain ⟨inner, hinner⟩ := found_of_illegal hending
      exact .inr ⟨found, '"' :: inner, (Except.error.inj h).symm, congrArg ('"' :: ·) hinner⟩
  · split at h
    · cases h
    · split at h <;> cases h

/-- The character that spoils a literal stands on the line at the place to blame. -/
theorem blame_of_lexeme {c : Char} {rest : List Char} {fault : ParseFault}
    (h : (lexeme c rest).reading = .error fault) :
    fault = .unclosedLiteral ∨ ∃ (found : Char) (count : Nat), fault = .illegalEscape found ∧
      (c :: rest)[count]? = some found ∧
      ∀ start, (lexeme c rest).blame start fault = start.advance count := by
  rcases fault_of_lexeme h with hfault | ⟨found, inner, hfault, hraw⟩
  · exact .inl hfault
  · refine .inr ⟨found, inner.length, hfault, ?_, fun start => ?_⟩
    · -- The place to blame is that of the last character of the lexeme.
      have htake := take_raw_lexeme c rest
      rw [hraw, List.length_append, List.length_singleton] at htake
      rw [← List.getElem?_take_of_lt (Nat.lt_succ_self inner.length), htake]
      simp
    · simp [hfault, Lexeme.blame, hraw]

/-- At the offset of the error of an item stands the character that spoiled a literal, if
it is not the end of the line that did. -/
theorem error_of_mem_scan {source : String} {text : List Char} {item : Item}
    (h : item ∈ scan source text) {error : ParseError} (herror : item.reading = .error error) :
    error.value = .unclosedLiteral ∨
      ∃ found : Char, error.value = .illegalEscape found ∧
        text[error.span.offsetIn text]? = some found := by
  obtain ⟨c, rest, after, -, hdrop, hitem, hoffset⟩ := offset_of_mem_scan h
  rw [hitem] at herror
  cases hreading : (lexeme c rest).reading with
  | ok token =>
    simp only [Lexeme.place, hreading] at herror
    cases herror
  | error fault =>
    simp only [Lexeme.place, hreading] at herror
    obtain rfl := Except.error.inj herror
    rcases blame_of_lexeme hreading with rfl | ⟨found, count, rfl, hfound, hblame⟩
    · exact .inl rfl
    · refine .inr ⟨found, rfl, ?_⟩
      obtain ⟨hcount, -⟩ := List.getElem?_eq_some_iff.1 hfound
      show text[((lexeme c rest).blame item.start _).offsetIn text]? = _
      rw [hblame, hoffset count (Nat.le_of_lt hcount), ← List.getElem?_drop, hdrop,
        List.getElem?_append_left hcount, hfound]

/-! ### Items in their order -/

/-- No item of a tiled line starts before the line does, or on another line. -/
theorem Tiles.start_le {start stop : Position} {line : List Char} {items : List Item}
    (h : Tiles start line items stop) :
    ∀ item ∈ items, item.start.line = start.line ∧ start.column ≤ item.start.column := by
  induction h with
  | done place => exact List.forall_mem_nil _
  | step _ _ hstop _ ih =>
    refine List.forall_mem_cons.2 ⟨⟨rfl, Nat.le_refl _⟩, fun other hother => ?_⟩
    obtain ⟨hline, hcolumn⟩ := ih other hother
    rw [hstop] at hline hcolumn
    exact ⟨hline, Nat.le_of_add_right_le hcolumn⟩

/-- Whether a place stands before another one, or is the same place. -/
def Position.UpTo (p q : Position) : Prop :=
  p.line < q.line ∨ p.line = q.line ∧ p.column ≤ q.column

/-- Each item of a tiled line stops before the later ones start. -/
theorem Tiles.pairwise {start stop : Position} {line : List Char} {items : List Item}
    (h : Tiles start line items stop) : items.Pairwise fun a b => a.stop.UpTo b.start := by
  induction h with
  | done place => exact .nil
  | step _ _ _ hothers ih =>
    refine .cons (fun other hother => .inr ?_) ih
    obtain ⟨hline, hcolumn⟩ := hothers.start_le other hother
    exact ⟨hline.symm, hcolumn⟩

/-- Each item of lines stops before the later ones start. -/
theorem pairwise_scanLines (source : String) (number : Nat) (rows : List (List Char)) :
    (scanLines source number rows).Pairwise fun a b => a.stop.UpTo b.start := by
  induction rows generalizing number with
  | nil => exact .nil
  | cons row rows ih =>
    refine List.pairwise_append.2 ⟨(tiles_placeAll _ row).pairwise, ih (number + 1), ?_⟩
    -- Items of different lines are ordered by the numbers of their lines.
    intro a ha b hb
    obtain ⟨done, c, rest, -, rfl⟩ := exists_of_mem_placeAll ha
    exact .inl (Nat.lt_of_succ_le (le_line_of_mem_scanLines hb))

/-- A lexeme is no longer than what is left of its line. -/
theorem length_raw_lexeme_le (c : Char) (rest : List Char) :
    (lexeme c rest).raw.length ≤ rest.length + 1 := by
  rw [← take_raw_lexeme, List.length_take]
  exact Nat.min_le_right _ _

/-- In offsets too, each item of a text stops before the later ones start. -/
theorem pairwise_scan (source : String) (text : List Char) :
    (scan source text).Pairwise fun a b => a.stop.offsetIn text ≤ b.start.offsetIn text := by
  refine (pairwise_scanLines source 1 (lines text)).imp_of_mem fun {a b} ha hb hab => ?_
  obtain ⟨index, done, c, rest, hline, rfl⟩ := exists_of_mem_scan ha
  obtain ⟨later, done', d, rest', hlater, rfl⟩ := exists_of_mem_scan hb
  have hraw := length_raw_lexeme_le c rest
  have hlength : (done ++ c :: rest).length = done.length + (rest.length + 1) := by simp
  have hlength' : (done' ++ d :: rest').length = done'.length + (rest'.length + 1) := by simp
  have hstop : (⟨source, index + 1, done.length + 1 + (lexeme c rest).raw.length⟩ :
      Position).offsetIn text =
        lineStart text index + (done.length + (lexeme c rest).raw.length) := by
    rw [Nat.add_right_comm]
    exact Position.offsetIn_of_line hline (by omega) source
  have hstart : (⟨source, later + 1, done'.length + 1⟩ : Position).offsetIn text =
      lineStart text later + done'.length :=
    Position.offsetIn_of_line hlater (by omega) source
  show Position.offsetIn ⟨source, index + 1, done.length + 1 + _⟩ text ≤
    Position.offsetIn ⟨source, later + 1, done'.length + 1⟩ text
  rw [hstop, hstart]
  rcases hab with hlines | ⟨hlines, hcolumns⟩
  · have hnext := lineStart_add_length_le hline (Nat.lt_of_succ_lt_succ hlines)
    omega
  · obtain rfl : index = later := Nat.succ.inj hlines
    have hcolumns' : done.length + 1 + (lexeme c rest).raw.length ≤ done'.length + 1 := hcolumns
    omega

/-! ### Texts -/

/-- Whether the text has at an offset what a node stands for: the opening bracket of a
list, the name of a symbol, or the quote that opens a string. -/
def Element.StandsAt (table : SymbolTable) (text : List Char) : Element → Prop
  | .list bracket _ span => text[span.offsetIn text]? = some bracket.opening
  | .symbol id span =>
    ∃ name, table.nameOf id = .ok name ∧ name.toList <+: text.drop (span.offsetIn text)
  | .string _ span => text[span.offsetIn text]? = some '"'
  | .int _ _ | .float _ _ => True

/-- Whether the text has at an offset what an error of the parser blames: the character
that it found, or the end of the last line. -/
def ParseError.StandsAt (text : List Char) (error : ParseError) : Prop :=
  match error.value with
  | .illegalEscape found | .unexpectedChar found =>
    text[error.span.offsetIn text]? = some found
  | .unclosedList =>
    ∃ earlier line ending, text = earlier ++ line ++ ending ∧ (lines text).getLast? = some line ∧
      IsEnding ending ∧ error.span.offsetIn text = earlier.length + line.length
  | .unclosedLiteral | .atomAtTopLevel => True

/-- The first character of a prefix stands at its offset. -/
theorem getElem?_of_prefix_drop {text raw : List Char} {c : Char} {offset : Nat}
    (h : c :: raw <+: text.drop offset) : text[offset]? = some c := by
  obtain ⟨after, hafter⟩ := h
  rw [← Nat.add_zero offset, ← List.getElem?_drop, ← hafter]
  rfl

/-- At the offset of a node of a parsed form stands what the node was read from. -/
theorem standsAt_of_parse {source : String} {text : List Char} {table : SymbolTable}
    {forms : List Form} (h : (parse source text table).1 = .ok forms) {form : Form}
    (hform : form ∈ forms) {node : Element} (hnode : node ∈ form.element.nodes) :
    node.StandsAt (parse source text table).2 text := by
  obtain ⟨token, htoken, hmark⟩ := token_of_node h hform hnode
  obtain ⟨item, hitem, hstart, hreading⟩ := item_of_token htoken
  obtain ⟨raw, rest, hpiece, hraw⟩ := exists_piece_of_mem_scan hitem
  rw [hreading] at hpiece
  rw [hstart] at hraw
  cases node with
  | list bracket elements span =>
    cases hmark
    cases hpiece
    exact getElem?_of_prefix_drop hraw
  | string content span =>
    cases hmark
    cases hpiece
    exact getElem?_of_prefix_drop hraw
  | symbol id span =>
    cases hmark with
    | symbol span hint hfloat hname =>
      cases hpiece with
      | symbol c others _ _ _ _ => exact ⟨_, hname, by simpa using hraw⟩
  | int _ _ | float _ _ => trivial

/-- The place where scanning ends is that behind the content of the last line. -/
theorem offsetIn_endOf (source : String) {text line : List Char}
    (h : (lines text).getLast? = some line) :
    ∃ earlier ending, text = earlier ++ line ++ ending ∧ IsEnding ending ∧
      (endOf source text).offsetIn text = earlier.length + line.length := by
  have hne : lines text ≠ [] := by
    rintro hnil
    rw [hnil] at h
    cases h
  obtain ⟨index, hindex⟩ : ∃ index, (lines text).length = index + 1 :=
    Nat.exists_eq_succ_of_ne_zero (fun hzero => hne (List.length_eq_zero_iff.1 hzero))
  have hline : (lines text)[index]? = some line := by
    rw [← h, List.getLast?_eq_getElem?, hindex, Nat.add_sub_cancel]
  obtain ⟨ending, hending, htext⟩ := text_eq_of_line hline
  -- No piece comes after that of the last line.
  have hlast : (pieces text).drop (index + 1) = [] := by
    rw [List.drop_eq_nil_iff, ← hindex, lines, List.length_map]
  rw [hlast, List.flatten_nil, List.append_nil, ← List.append_assoc] at htext
  refine ⟨_, ending, htext, hending, ?_⟩
  rw [endOf_of_getLast? source h, hindex, Position.offsetIn_of_line hline (Nat.le_refl _),
    lineStart]

/-- A text that leaves a list open has a line. -/
theorem exists_line_of_unclosed {source : String} {text : List Char} {table : SymbolTable}
    {error : ParseError} (h : (parse source text table).1 = .error error) :
    ∃ line, (lines text).getLast? = some line := by
  cases hlast : (lines text).getLast? with
  | some line => exact ⟨line, rfl⟩
  | none =>
    -- Without lines there are no items, and without items no list is open.
    rw [parse, scan, List.getLast?_eq_none_iff.1 hlast] at h
    cases h

/-- At the offset of an error of the parser stands what it blames. -/
theorem standsAt_of_error {source : String} {text : List Char} {table : SymbolTable}
    {error : ParseError} (h : (parse source text table).1 = .error error) :
    error.StandsAt text := by
  cases Parse.Progress.errorFrom_run h with
  | item hitem hreading =>
    rcases error_of_mem_scan hitem hreading with hfault | ⟨found, hfault, hfound⟩
    · simp only [ParseError.StandsAt, hfault]
    · simp only [ParseError.StandsAt, hfault]
      exact hfound
  | closing hitem hreading =>
    obtain ⟨raw, rest, hpiece, hraw⟩ := exists_piece_of_mem_scan hitem
    rw [hreading] at hpiece
    cases hpiece
    exact getElem?_of_prefix_drop hraw
  | atom => trivial
  | stop =>
    obtain ⟨line, hline⟩ := exists_line_of_unclosed h
    obtain ⟨earlier, ending, htext, hending, hoffset⟩ := offsetIn_endOf source hline
    exact ⟨earlier, line, ending, htext, hline, hending, hoffset⟩

/-- Coordinates and offsets agree, whatever terminators a text has. From the offset of an
item on, the text goes on with what is left of the line of the item, which the item is read
from, and the scan goes on at the offset behind the characters read. The offsets of items
grow from each to the next, across errors too. A wrong escape has its character at its
offset. Every node of a parsed form has at its offset the bracket, the name or the quote
that it was read from, and an error of the parser the character or the end of the last
line that it blames. -/
theorem scan_offsets (source : String) (text : List Char) (table : SymbolTable) :
    (∀ item ∈ scan source text,
      (∃ (c : Char) (rest after : List Char), (∃ line ∈ lines text, c :: rest <:+ line) ∧
        text.drop (item.start.offsetIn text) = c :: rest ++ after ∧
        item = (lexeme c rest).place item.start ∧
        item.stop.offsetIn text = item.start.offsetIn text + (lexeme c rest).raw.length) ∧
      ∀ found span, item.reading = .error ⟨.illegalEscape found, span⟩ →
        text[span.offsetIn text]? = some found) ∧
    ((scan source text).map fun item => item.start.offsetIn text).Pairwise (· < ·) ∧
    (∀ forms, (parse source text table).1 = .ok forms → ∀ form ∈ forms,
      ∀ node ∈ form.element.nodes, node.StandsAt (parse source text table).2 text) ∧
    ∀ error, (parse source text table).1 = .error error → error.StandsAt text := by
  have hread (item : Item) (hitem : item ∈ scan source text) :
      ∃ (c : Char) (rest after : List Char), (∃ line ∈ lines text, c :: rest <:+ line) ∧
        text.drop (item.start.offsetIn text) = c :: rest ++ after ∧
        item = (lexeme c rest).place item.start ∧
        item.stop.offsetIn text = item.start.offsetIn text + (lexeme c rest).raw.length := by
    obtain ⟨c, rest, after, hline, hdrop, heq, hoffset⟩ := offset_of_mem_scan hitem
    have hstop : item.stop = item.start.advance (lexeme c rest).raw.length := by
      rw [heq]
      rfl
    refine ⟨c, rest, after, hline, hdrop, heq, ?_⟩
    rw [hstop, hoffset _ (length_raw_lexeme_le c rest)]
  refine ⟨fun item hitem => ⟨hread item hitem, ?_⟩, ?_,
    fun _ h _ hform _ => standsAt_of_parse h hform, fun _ => standsAt_of_error⟩
  · intro found span hreading
    rcases error_of_mem_scan hitem hreading with hfault | ⟨_, hfault, hfound⟩
    · cases hfault
    · cases hfault
      exact hfound
  · rw [List.pairwise_map]
    refine (pairwise_scan source text).imp_of_mem fun {a b} ha _ hab => ?_
    -- An item is not empty, so it starts before it stops.
    obtain ⟨c, rest, -, -, -, -, hstop⟩ := hread a ha
    have hpos := List.length_pos_iff.2 (raw_lexeme_ne_nil c rest)
    omega

end BracketLisp
