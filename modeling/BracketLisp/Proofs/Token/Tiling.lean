import BracketLisp.Proofs.Text.Line
import BracketLisp.Token.Scan
import Mathlib.Data.List.TakeWhile

/-!
# `BracketLisp.Proofs.Token.Tiling`: the scanner passes over nothing

The items of a line stand side by side: the first starts in the first column, each next
one where the one before it stops, and the last stops behind the line. This holds across
errors too. `Piece` says what an item may be made of, and `Tiles` puts the pieces of a line
next to each other.

* `piece_lexeme` shows that each lexeme is such a piece, and `tiles_placeAll` carries it
  through the line.
* `place_below` moves a lexeme to a later line. So the items of a line are those of the
  line scanned alone (`scan_line_alone`).
* `scan_tiles` puts this together for all lines of a text.
-/

set_option autoImplicit false

namespace BracketLisp

open Text

/-! ### Pieces of a line -/

/-- Whether a symbol ends before `c`. -/
def EndsSymbol (c : Char) : Prop :=
  c = ' ' ∨ c = '\t' ∨ c = ';' ∨ ∃ bracket : Bracket, c = bracket.opening ∨ c = bracket.closing

/-- Whether the characters `raw`, which stand before `rest` in their line, can be read as
they are. A symbol is as long as it can be, and a comment goes on to the end of the line.
Literals and errors start with a quote. -/
inductive Piece : (raw rest : List Char) → Except ParseError Token → Prop where
  | opening (bracket : Bracket) (rest : List Char) :
      Piece [bracket.opening] rest (.ok (.opening bracket))
  | closing (bracket : Bracket) (rest : List Char) :
      Piece [bracket.closing] rest (.ok (.closing bracket))
  | space (rest : List Char) : Piece [' '] rest (.ok .space)
  | tab (rest : List Char) : Piece ['\t'] rest (.ok .tab)
  | comment (text : List Char) : Piece (';' :: text) [] (.ok (.comment (String.ofList text)))
  | symbol (c : Char) (others rest : List Char) (hquote : c ≠ '"')
      (hraw : ∀ d ∈ c :: others, ¬ EndsSymbol d)
      (hrest : ∀ d, rest.head? = some d → EndsSymbol d) :
      Piece (c :: others) rest (.ok (.symbol (String.ofList (c :: others))))
  | literal (inner rest : List Char) (content : String) :
      Piece ('"' :: (inner ++ ['"'])) rest (.ok (.literal content))
  | error (inner rest : List Char) (error : ParseError) :
      Piece ('"' :: inner) rest (.error error)

/-- Whether items stand side by side from `start` to `stop` and are read from the pieces
of `line`, none of which is empty. -/
inductive Tiles : (start : Position) → (line : List Char) → List Item → (stop : Position) →
    Prop where
  | done (place : Position) : Tiles place [] [] place
  | step {raw rest : List Char} {item : Item} {others : List Item} {stop : Position}
      (hraw : raw ≠ []) (hpiece : Piece raw rest item.reading)
      (hstop : item.stop = item.start.advance raw.length)
      (hothers : Tiles item.stop rest others stop) :
      Tiles item.start (raw ++ rest) (item :: others) stop

theorem bracket_of_ofOpening? {c : Char} {bracket : Bracket}
    (h : Bracket.ofOpening? c = some bracket) : c = bracket.opening := by
  unfold Bracket.ofOpening? at h
  split at h <;> cases h <;> rfl

theorem bracket_of_ofClosing? {c : Char} {bracket : Bracket}
    (h : Bracket.ofClosing? c = some bracket) : c = bracket.closing := by
  unfold Bracket.ofClosing? at h
  split at h <;> cases h <;> rfl

/-- A character can stand in a symbol unless it ends one. -/
theorem isSymbolChar_iff (c : Char) : isSymbolChar c = true ↔ ¬ EndsSymbol c := by
  constructor
  · rintro h (rfl | rfl | rfl | ⟨bracket, rfl | rfl⟩)
    · simp [isSymbolChar] at h
    · simp [isSymbolChar] at h
    · simp [isSymbolChar] at h
    · simp [isSymbolChar] at h
    · simp [isSymbolChar] at h
  · intro h
    have hspace : c ≠ ' ' := fun hc => h (.inl hc)
    have htab : c ≠ '\t' := fun hc => h (.inr (.inl hc))
    have hcomment : c ≠ ';' := fun hc => h (.inr (.inr (.inl hc)))
    have hopening : Bracket.ofOpening? c = none := by
      cases hbracket : Bracket.ofOpening? c with
      | none => rfl
      | some bracket =>
        exact absurd (.inr (.inr (.inr ⟨bracket, .inl (bracket_of_ofOpening? hbracket)⟩))) h
    have hclosing : Bracket.ofClosing? c = none := by
      cases hbracket : Bracket.ofClosing? c with
      | none => rfl
      | some bracket =>
        exact absurd (.inr (.inr (.inr ⟨bracket, .inr (bracket_of_ofClosing? hbracket)⟩))) h
    simp [isSymbolChar, hspace, htab, hcomment, hopening, hclosing]

/-- Only a quote closes a literal. -/
theorem eq_quote_of_step {progress : Literal.Progress} {c : Char}
    (h : Literal.step progress c = .close) : c = '"' := by
  -- A digit of a character code is never the end of a literal.
  have hdigit (base missing value : Nat) : Literal.digitStep base missing value c ≠ .close := by
    unfold Literal.digitStep
    split <;> simp
  cases progress with
  | fresh =>
    by_cases hc : c = '"'
    · exact hc
    · by_cases hbackslash : c = '\\' <;> simp [Literal.step, hc, hbackslash] at h
  | backslash =>
    simp only [Literal.step] at h
    split at h
    · cases h
    · split at h
      · cases h
      · exact absurd h (hdigit 8 2 0)
  | digits base missing value => exact absurd h (hdigit base missing value)

/-- A literal that is closed ends with a quote. -/
theorem quote_of_closed {progress : Literal.Progress} {rest : List Char}
    (h : (Literal.readFrom progress rest).ending = .closed) :
    ∃ inner, rest.take (Literal.readFrom progress rest).used = inner ++ ['"'] := by
  induction rest generalizing progress with
  | nil => cases h
  | cons c rest ih =>
    unfold Literal.readFrom at h ⊢
    cases hstep : Literal.step progress c with
    | more next =>
      rw [hstep] at h
      obtain ⟨inner, hinner⟩ := ih h
      exact ⟨c :: inner, congrArg (c :: ·) hinner⟩
    | unit decoded =>
      rw [hstep] at h
      obtain ⟨inner, hinner⟩ := ih h
      exact ⟨c :: inner, congrArg (c :: ·) hinner⟩
    | close =>
      obtain rfl := eq_quote_of_step hstep
      exact ⟨[], rfl⟩
    | illegal =>
      rw [hstep] at h
      cases h

/-- What is left behind a literal begins right after it. -/
theorem piece_literalLexeme (rest : List Char) (start : Position) :
    Piece (literalLexeme rest).raw ((('"' :: rest)).drop (literalLexeme rest).raw.length)
      ((literalLexeme rest).place start).reading := by
  simp only [literalLexeme, Lexeme.place]
  -- However the reading ends, the piece starts with the opening quote.
  cases hending : (Literal.read rest).ending with
  | closed =>
    obtain ⟨inner, hinner⟩ := quote_of_closed hending
    rw [Literal.read, hinner]
    exact .literal inner _ _
  | illegal found => exact .error _ _ _
  | cut => exact .error _ _ _

/-- A symbol is as long as it can be. -/
theorem piece_symbolLexeme {c : Char} (rest : List Char) (hquote : c ≠ '"')
    (hc : ¬ EndsSymbol c) :
    Piece (symbolLexeme c rest).raw ((c :: rest).drop (symbolLexeme c rest).raw.length)
      (.ok (.symbol (String.ofList (symbolLexeme c rest).raw))) := by
  have hdrop : (c :: rest).drop (symbolLexeme c rest).raw.length =
      rest.dropWhile isSymbolChar := by
    show rest.drop (rest.takeWhile isSymbolChar).length = _
    have hsplit : rest.takeWhile isSymbolChar ++ rest.dropWhile isSymbolChar = rest :=
      List.takeWhile_append_dropWhile
    -- The name ends where the first character stands that ends it.
    conv => lhs; rhs; rw [← hsplit]
    exact List.drop_left
  rw [hdrop]
  refine .symbol c _ _ hquote ?_ ?_
  · intro d hd
    rcases List.mem_cons.1 hd with rfl | hmem
    · exact hc
    · exact (isSymbolChar_iff d).1 (List.mem_takeWhile_imp hmem)
  · intro d hd
    have hfirst := List.head?_dropWhile_not isSymbolChar rest
    rw [hd] at hfirst
    have hnot : isSymbolChar d = false := hfirst
    by_contra hends
    rw [(isSymbolChar_iff d).2 hends] at hnot
    cases hnot

/-- A lexeme is a piece of its line, read as what it is. -/
theorem piece_lexeme (c : Char) (rest : List Char) (start : Position) :
    Piece (lexeme c rest).raw ((c :: rest).drop (lexeme c rest).raw.length)
      ((lexeme c rest).place start).reading := by
  unfold lexeme
  split
  · exact .space rest
  · exact .tab rest
  · have hdrop : (';' :: rest).drop (';' :: rest).length = [] := List.drop_length
    rw [hdrop]
    exact .comment rest
  · exact piece_literalLexeme rest start
  -- Any other character is a bracket or starts a symbol.
  next hspace htab hcomment hquote =>
    cases hopening : Bracket.ofOpening? c with
    | some bracket =>
      obtain rfl := bracket_of_ofOpening? hopening
      exact .opening bracket rest
    | none =>
      cases hclosing : Bracket.ofClosing? c with
      | some bracket =>
        obtain rfl := bracket_of_ofClosing? hclosing
        exact .closing bracket rest
      | none =>
        refine piece_symbolLexeme rest hquote ?_
        rintro (hc | hc | hc | ⟨bracket, rfl | rfl⟩)
        · exact hspace hc
        · exact htab hc
        · exact hcomment hc
        · simp at hopening
        · simp at hclosing

/-! ### Lines -/

theorem Position.advance_advance (place : Position) (m n : Nat) :
    (place.advance m).advance n = place.advance (m + n) := by
  show (⟨place.source, place.line, place.column + m + n⟩ : Position) = _
  rw [Nat.add_assoc]
  rfl

/-- The lexemes of a line, put in their places, tile it. -/
theorem tiles_placeAll (start : Position) (line : List Char) :
    Tiles start line (placeAll start (lexemes line)) (start.advance line.length) := by
  fun_induction lexemes line generalizing start with
  | case1 => exact .done start
  | case2 c rest ih =>
    -- A lexeme is cut off the front, and the others tile what is left of the line.
    have hline : (lexeme c rest).raw ++ (c :: rest).drop (lexeme c rest).raw.length =
        c :: rest := by
      conv => lhs; lhs; rw [← take_raw_lexeme]
      exact List.take_append_drop _ _
    have hlength := congrArg List.length hline
    rw [List.length_append] at hlength
    have hothers := ih (start.advance (lexeme c rest).raw.length)
    rw [Position.advance_advance, hlength] at hothers
    have htiles : Tiles ((lexeme c rest).place start).start _ _ _ :=
      .step (raw_lexeme_ne_nil c rest) (piece_lexeme c rest start) rfl hothers
    rw [hline] at htiles
    exact htiles

/-- There are at most as many items on a line as it has characters. -/
theorem Tiles.length_le {start stop : Position} {line : List Char} {items : List Item}
    (h : Tiles start line items stop) : items.length ≤ line.length := by
  induction h with
  | done place => exact Nat.le_refl 0
  | step hraw _ _ _ ih =>
    have hpos := List.length_pos_iff.2 hraw
    rw [List.length_cons, List.length_append]
    omega

/-- The same place, `count` lines further on. -/
def Position.below (position : Position) (count : Nat) : Position :=
  { position with line := position.line + count }

/-- The same item, `count` lines further on. -/
def Item.below (item : Item) (count : Nat) : Item where
  start := item.start.below count
  stop := item.stop.below count
  reading := item.reading.mapError fun error => ⟨error.value, error.span.below count⟩

/-- A lexeme on a later line is the same item there. -/
theorem place_below (lexeme : Lexeme) (start : Position) (count : Nat) :
    lexeme.place (start.below count) = (lexeme.place start).below count := by
  obtain ⟨raw, reading⟩ := lexeme
  cases reading with
  | ok token => rfl
  -- The place to blame may be inside of the lexeme, and moves with it.
  | error fault => cases fault <;> rfl

/-- A later line has the same items, except for its number. -/
theorem scanLine_below (source : String) (number count : Nat) (line : List Char) :
    scanLine source (number + count) line = (scanLine source number line).map (·.below count) := by
  have hplace (lexemes : List Lexeme) (start : Position) :
      placeAll (start.below count) lexemes = (placeAll start lexemes).map (·.below count) := by
    induction lexemes generalizing start with
    | nil => rfl
    | cons lexeme others ih =>
      rw [placeAll, placeAll, List.map_cons, place_below, ← ih]
      rfl
  exact hplace (lexemes line) ⟨source, number, 1⟩

/-- A line that is scanned alone has the items of a first line. -/
theorem scan_line_alone (source : String) {line : List Char} (h : '\n' ∉ line) :
    scan source line = scanLine source 1 line := by
  cases line with
  | nil => simp [scan, lines, pieces, scanLines, scanLine, lexemes, placeAll]
  | cons c rest =>
    rw [scan, lines_of_not_mem (List.cons_ne_nil c rest) h, scanLines, scanLines,
      List.append_nil]

/-! ### Texts -/

/-- The items that start on the line with number `number`. -/
def itemsAt (number : Nat) (items : List Item) : List Item :=
  items.filter fun item => item.start.line = number

/-- All items of a line start on it. -/
theorem line_of_mem_scanLine {source : String} {number : Nat} {line : List Char} {item : Item}
    (h : item ∈ scanLine source number line) : item.start.line = number := by
  have hplace (lexemes : List Lexeme) (start : Position) (hitem : item ∈ placeAll start lexemes) :
      item.start.line = start.line := by
    induction lexemes generalizing start with
    | nil => cases hitem
    | cons lexeme others ih =>
      rcases List.mem_cons.1 hitem with rfl | hmem
      · rfl
      · exact ih (start.advance lexeme.raw.length) hmem
  exact hplace (lexemes line) ⟨source, number, 1⟩ h

/-- No item of lines starts before the first of them. -/
theorem le_line_of_mem_scanLines {source : String} {number : Nat} {rows : List (List Char)}
    {item : Item} (h : item ∈ scanLines source number rows) : number ≤ item.start.line := by
  induction rows generalizing number with
  | nil => cases h
  | cons row rows ih =>
    rcases List.mem_append.1 h with hrow | hrows
    · exact Nat.le_of_eq (line_of_mem_scanLine hrow).symm
    · exact Nat.le_of_succ_le (ih hrows)

/-- The items on one of several lines are those of that line. -/
theorem itemsAt_scanLines {source : String} {number index : Nat} {rows : List (List Char)}
    {row : List Char} (h : rows[index]? = some row) :
    itemsAt (number + index) (scanLines source number rows) =
      scanLine source (number + index) row := by
  induction rows generalizing number index with
  | nil => cases h
  | cons first rows ih =>
    rw [scanLines, itemsAt, List.filter_append]
    -- The number of a line tells which row an item belongs to.
    cases index with
    | zero =>
      obtain rfl := Option.some.inj h
      have hfirst : ∀ item ∈ scanLine source number first, item.start.line = number :=
        fun item hitem => line_of_mem_scanLine hitem
      have hlater : ∀ item ∈ scanLines source (number + 1) rows, item.start.line ≠ number := by
        intro item hitem heq
        have hle := le_line_of_mem_scanLines hitem
        omega
      rw [Nat.add_zero, List.filter_eq_self.2 (by simpa using hfirst),
        List.filter_eq_nil_iff.2 (by simpa using hlater), List.append_nil]
    | succ index =>
      have hfirst : ∀ item ∈ scanLine source number first,
          item.start.line ≠ number + (index + 1) := by
        intro item hitem heq
        have hline := line_of_mem_scanLine hitem
        omega
      have hnumber : number + (index + 1) = number + 1 + index := by omega
      rw [List.filter_eq_nil_iff.2 (by simpa using hfirst), List.nil_append, hnumber]
      exact ih h

/-- The items of lines are those of the first, then those of the second, and so on. -/
theorem scanLines_eq_flatMap (source : String) (number : Nat) (rows : List (List Char)) :
    scanLines source (1 + number) rows = (rows.zipIdx number).flatMap fun row =>
      (scanLine source 1 row.1).map (·.below row.2) := by
  induction rows generalizing number with
  | nil => rfl
  | cons row rows ih =>
    rw [scanLines, Nat.add_assoc, ih, scanLine_below, List.zipIdx_cons, List.flatMap_cons]

/-- There are at most as many items as there are characters on the lines. -/
theorem length_scanLines_le (source : String) (number : Nat) (rows : List (List Char)) :
    (scanLines source number rows).length ≤ rows.flatten.length := by
  induction rows generalizing number with
  | nil => exact Nat.le_refl 0
  | cons row rows ih =>
    have hrow := (tiles_placeAll ⟨source, number, 1⟩ row).length_le
    have hrows := ih (number + 1)
    rw [scanLines, scanLine, List.length_append, List.flatten_cons, List.length_append]
    omega

/-- The scanner tiles a text, line by line and across errors. On each line the items stand
side by side from the first column to the place behind the last character, and each is read
from a piece of its own, which is not empty. They are the items of that line scanned alone.
The items of the text are those of its lines in their order, so there are at most as many
as the text has characters. -/
theorem scan_tiles (source : String) (text : List Char) :
    (∀ (index : Nat) (line : List Char), (lines text)[index]? = some line →
      Tiles ⟨source, index + 1, 1⟩ line (itemsAt (index + 1) (scan source text))
          ⟨source, index + 1, line.length + 1⟩ ∧
        itemsAt (index + 1) (scan source text) = (scan source line).map (·.below index)) ∧
    (scan source text = (lines text).zipIdx.flatMap fun row =>
      (scan source row.1).map (·.below row.2)) ∧
    (scan source text).length ≤ text.length := by
  refine ⟨?_, ?_, ?_⟩
  · intro index line hline
    have hfeed : '\n' ∉ line := not_mem_of_mem_lines (List.mem_of_getElem? hline)
    have hitems : itemsAt (index + 1) (scan source text) = scanLine source (1 + index) line := by
      rw [Nat.add_comm index 1]
      exact itemsAt_scanLines hline
    constructor
    · have htiles := tiles_placeAll ⟨source, 1 + index, 1⟩ line
      rw [hitems, Nat.add_comm index 1, Nat.add_comm line.length 1]
      exact htiles
    · rw [hitems, scanLine_below, scan_line_alone source hfeed]
  · rw [scan, scanLines_eq_flatMap source 0 (lines text)]
    refine List.flatMap_congr fun row hrow => ?_
    have hmem : row.1 ∈ lines text := List.fst_mem_of_mem_zipIdx hrow
    rw [scan_line_alone source (not_mem_of_mem_lines hmem)]
  · exact (length_scanLines_le source 1 (lines text)).trans (length_flatten_lines_le text)

end BracketLisp
