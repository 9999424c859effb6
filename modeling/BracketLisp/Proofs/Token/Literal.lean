import BracketLisp.Proofs.Token.Spelling

/-!
# `BracketLisp.Proofs.Token.Literal`: literals in their lines

A quote that starts a token starts a literal, and what stands behind it in its line decides
what the token is. If it begins with a row of units and a quote, the token is the literal of
the characters that the units stand for. If a character before that cannot continue its unit,
this character is at fault, and the scan goes on behind it. Else the line ends too early, and
the opening quote is to blame.

* `item_at_quote` finds the item that starts at a quote.
* `literal_reads_units` states what the item is.
* `scan_escaped` states that an escaped text between quotes is read back, and that the scan goes
  on behind it (`scanFrom`) as if nothing stood before.
-/

set_option autoImplicit false

namespace BracketLisp

open Text

/-- The item that starts at a quote is read from the rest of its line. -/
theorem item_at_quote {source : String} {text done body : List Char} {index : Nat} {item : Item}
    (hline : (lines text)[index]? = some (done ++ '"' :: body)) (hitem : item ∈ scan source text)
    (hstart : item.start = ⟨source, index + 1, done.length + 1⟩) :
    item = (literalLexeme body).place ⟨source, index + 1, done.length + 1⟩ := by
  obtain ⟨row, front, c, rest, hrow, hplace⟩ := exists_of_mem_scan hitem
  have hposition : (⟨source, row + 1, front.length + 1⟩ : Position) =
      ⟨source, index + 1, done.length + 1⟩ := by
    rw [← hstart, hplace]
    rfl
  obtain ⟨-, hindex, hlength⟩ := Position.mk.inj hposition
  obtain rfl : row = index := Nat.succ.inj hindex
  -- The line is cut at the same place both times.
  rw [hline, Option.some.injEq] at hrow
  obtain ⟨rfl, hrest⟩ := List.append_inj hrow (Nat.succ.inj hlength).symm
  obtain ⟨rfl, rfl⟩ := List.cons.inj hrest
  exact hplace

/-- The ending of what is read behind a quote tells what the item is. It takes the quote and
the characters that are read. -/
theorem place_literalLexeme {rest content : List Char} {used : Nat} {ending : Literal.Ending}
    (h : Literal.read rest = ⟨content, used, ending⟩) (start : Position) :
    ((literalLexeme rest).place start).reading =
        (match ending with
        | .closed => .ok (.literal (String.ofList content))
        | .illegal c => .error ⟨.illegalEscape c, start.advance used⟩
        | .cut => .error ⟨.unclosedLiteral, start⟩) ∧
      ((literalLexeme rest).place start).stop = start.advance (used + 1) := by
  have hused : used ≤ rest.length := by
    have hle := Literal.used_readFrom_le .fresh rest
    rwa [← Literal.read, h] at hle
  have hraw : (literalLexeme rest).raw.length = used + 1 := by
    simp only [literalLexeme, h, List.length_cons, List.length_take, Nat.min_eq_left hused]
  constructor
  · simp only [Lexeme.place, Lexeme.blame, hraw, Nat.add_sub_cancel]
    simp only [literalLexeme, h]
    cases ending <;> rfl
  · simp only [Lexeme.place, hraw]

/-- A quote that starts a token is read by the grammar of literals. What stands behind it in
its line is closed, is spoiled by the first character that cannot continue its unit, or breaks
off. The scan goes on behind the closing quote, behind the character at fault, or behind the
line. -/
theorem literal_reads_units {source : String} {text done body : List Char} {index : Nat}
    {item : Item} (hline : (lines text)[index]? = some (done ++ '"' :: body))
    (hitem : item ∈ scan source text)
    (hstart : item.start = ⟨source, index + 1, done.length + 1⟩) :
    (∀ inner content after, body = inner ++ '"' :: after → Literal.Units inner content →
      item.reading = .ok (.literal (String.ofList content)) ∧
        item.stop = ⟨source, index + 1, done.length + inner.length + 3⟩) ∧
    (¬ Literal.Closed body →
      (∀ before c after, body = before ++ c :: after → Literal.Stuck before c →
        item.reading =
            .error ⟨.illegalEscape c, ⟨source, index + 1, done.length + before.length + 2⟩⟩ ∧
          item.stop = ⟨source, index + 1, done.length + before.length + 3⟩) ∧
      (¬ Literal.Spoiled body →
        Literal.Breaks body ∧ item.reading = .error ⟨.unclosedLiteral, item.start⟩ ∧
          item.stop = ⟨source, index + 1, (done ++ '"' :: body).length + 1⟩)) := by
  obtain rfl := item_at_quote hline hitem hstart
  -- Columns are counted from the quote, which is one column further than `done` is long.
  have hadvance (count column : Nat) (h : done.length + 1 + count = column) :
      Position.advance ⟨source, index + 1, done.length + 1⟩ count = ⟨source, index + 1, column⟩ :=
    congrArg (Position.mk source (index + 1)) h
  refine ⟨?_, fun hclosed => ⟨?_, fun hspoiled => ?_⟩⟩
  · rintro inner content after rfl hunits
    obtain ⟨hreading, hstop⟩ := place_literalLexeme (Literal.read_closed hunits after)
      ⟨source, index + 1, done.length + 1⟩
    exact ⟨hreading, hstop.trans (hadvance _ _ (by omega))⟩
  · rintro before c after rfl hstuck
    obtain ⟨content, hread⟩ := Literal.read_of_stuck hstuck after hclosed
    obtain ⟨hreading, hstop⟩ := place_literalLexeme hread ⟨source, index + 1, done.length + 1⟩
    rw [hreading, hstop, hadvance (before.length + 1) (done.length + before.length + 2) (by omega)]
    exact ⟨rfl, hadvance _ _ (by omega)⟩
  · obtain ⟨⟨content, hread⟩, hbreaks⟩ := Literal.read_of_open hclosed hspoiled
    obtain ⟨hreading, hstop⟩ := place_literalLexeme hread ⟨source, index + 1, done.length + 1⟩
    have hlength : (done ++ '"' :: body).length = done.length + (body.length + 1) := by simp
    rw [hlength]
    exact ⟨hbreaks, hreading, hstop.trans (hadvance _ _ (by omega))⟩

/-- On a line with two literals the first has an octal and a hexadecimal escape and an escaped
quote. The second lacks a hexadecimal digit, so its quote is at fault and does not close it. -/
theorem literal_reads_units_two :
    ∃ first ∈ scan "t" "(\"\\101\\x4a\\\"\" \"\\x4\" y".toList,
      ∃ second ∈ scan "t" "(\"\\101\\x4a\\\"\" \"\\x4\" y".toList,
        first.start = ⟨"t", 1, 2⟩ ∧ first.reading = .ok (.literal "AJ\"") ∧
        first.stop = ⟨"t", 1, 14⟩ ∧ second.start = ⟨"t", 1, 15⟩ ∧
        second.reading = .error ⟨.illegalEscape '"', ⟨"t", 1, 19⟩⟩ ∧
        second.stop = ⟨"t", 1, 20⟩ := by
  let text := "(\"\\101\\x4a\\\"\" \"\\x4\" y".toList
  let inner := "\\101\\x4a\\\"".toList
  let body := "\\x4\" y".toList
  have hfirst : (lines text)[0]? = some (['('] ++ '"' :: (inner ++ '"' :: ' ' :: '"' :: body)) := by
    decide
  have hsecond : (lines text)[0]? = some ('(' :: '"' :: (inner ++ ['"', ' ']) ++ '"' :: body) := by
    decide
  obtain ⟨first, second, others, hscan, hstart, hstart'⟩ : ∃ first second others,
      scan "t" text = ⟨⟨"t", 1, 1⟩, ⟨"t", 1, 2⟩, .ok (.opening .paren)⟩ :: first ::
          ⟨⟨"t", 1, 14⟩, ⟨"t", 1, 15⟩, .ok .space⟩ :: second :: others ∧
        first.start = ⟨"t", 1, 2⟩ ∧ second.start = ⟨"t", 1, 15⟩ :=
    ⟨_, _, _, by with_unfolding_all rfl, by with_unfolding_all rfl, by with_unfolding_all rfl⟩
  have hmem : first ∈ scan "t" text := by simp [hscan]
  have hmem' : second ∈ scan "t" text := by simp [hscan]
  have hunits : Literal.Units inner ['A', 'J', '"'] := by
    have hoctal : Literal.IsUnit ['\\', '1', '0', '1'] 'A' :=
      @Literal.IsUnit.octal _ _ _ _ 1 0 1 (by decide) (by decide) (by decide) (by decide)
    have hhexadecimal : Literal.IsUnit ['\\', 'x', '4', 'a'] 'J' :=
      @Literal.IsUnit.hexadecimal _ _ _ 4 10 (by decide) (by decide) (by decide)
    have hsign : Literal.IsUnit ['\\', '"'] '"' := .sign (by decide)
    exact .cons hoctal (.cons hhexadecimal (.cons hsign .nil))
  have hending : (Literal.read body).ending ≠ .closed := by decide
  have hclosed : ¬ Literal.Closed body := by
    rintro ⟨inner, content, after, hbody, hunits⟩
    rw [hbody, Literal.read_closed hunits after] at hending
    exact hending rfl
  have hstuck : Literal.Stuck ['\\', 'x', '4'] '"' := by
    have hfour : IsDigitOf 16 '4' 4 := by decide
    refine ⟨[], [], ['\\', 'x', '4'], rfl, .nil, (Literal.Started.hexadecimal hfour).isStart, ?_⟩
    rintro ⟨more, decoded, hunit⟩
    cases hunit with
    | octal hx _ _ _ => exact Literal.not_isDigitOf_x hx
    | hexadecimal _ hquote _ =>
      exact (digitValue?_eq_none_iff (Nat.le_refl 16)).1 (by decide) ⟨_, hquote⟩
  obtain ⟨hreading, hstop⟩ := (literal_reads_units hfirst hmem hstart).1 inner _ _ rfl hunits
  obtain ⟨hreading', hstop'⟩ :=
    ((literal_reads_units hsecond hmem' hstart').2 hclosed).1 _ _ _ rfl hstuck
  exact ⟨first, hmem, second, hmem', hstart, hreading, hstop, hstart', hreading', hstop'⟩

/-! ### Escaped texts between quotes -/

/-- The items of a text that goes on in a line at `start`. -/
def scanFrom (start : Position) (text : List Char) : List Item :=
  placeAll start (lexemes ((lines text).headD [])) ++
    scanLines start.source (start.line + 1) (lines text).tail

/-- A scan goes on at the first column of the first line. -/
theorem scanFrom_first (source : String) (text : List Char) :
    scanFrom ⟨source, 1, 1⟩ text = scan source text := by
  rw [scan, scanFrom]
  cases lines text with
  | nil => simp [lexemes, placeAll, scanLines]
  | cons line others => rfl

/-- The first lexeme of a text takes its characters, and the scan goes on behind them. -/
theorem scan_of_lexeme (source : String) {c : Char} {others rest : List Char}
    {reading : Except ParseFault Token} (hfeed : '\n' ∉ c :: others)
    (hreturn : (c :: others).getLast? ≠ some '\r')
    (h : ∀ line, lexeme c (others ++ line) = ⟨c :: others, reading⟩) :
    scan source (c :: (others ++ rest)) =
      Lexeme.place ⟨c :: others, reading⟩ ⟨source, 1, 1⟩ ::
        scanFrom ⟨source, 1, others.length + 2⟩ rest := by
  have hlines : lines (c :: (others ++ rest)) =
      (c :: (others ++ (lines rest).headD [])) :: (lines rest).tail :=
    lines_append (List.cons_ne_nil c others) hfeed hreturn rest
  have hstop : Position.advance ⟨source, 1, 1⟩ (c :: others).length =
      ⟨source, 1, others.length + 2⟩ := by
    simp only [Position.advance, List.length_cons]
    congr 1
    omega
  rw [scan, hlines, scanLines, scanLine, lexemes_append others (h _), placeAll, hstop,
    List.cons_append, scanFrom]

/-- Whatever stands behind an escaped text between quotes, the text is read back, and the scan
goes on behind the closing quote. So no control character stands in an escaped text, each quote
in it belongs to the backslash before it, and no other text is escaped alike. -/
theorem scan_escaped (source content : String) (rest : List Char) :
    let escaped := Literal.escape content.toList
    scan source ('"' :: (escaped ++ '"' :: rest)) =
        ⟨⟨source, 1, 1⟩, ⟨source, 1, 3 + escaped.length⟩, .ok (.literal content)⟩ ::
          scanFrom ⟨source, 1, 3 + escaped.length⟩ rest ∧
      '\n' ∉ escaped ∧ '\r' ∉ escaped ∧
      (∀ before after, escaped = before ++ '"' :: after →
        Literal.trailingBackslashes before % 2 = 1) ∧
      ∀ other : String, Literal.escape other.toList = escaped → other = content := by
  intro escaped
  have hcontrol (c : Char) (hc : c ∈ escaped) : Literal.isControl c = false :=
    Literal.isControl_of_mem_escape hc
  have hfeed : '\n' ∉ escaped := fun hmem => absurd (hcontrol _ hmem) (by decide)
  have hreturn : '\r' ∉ escaped := fun hmem => absurd (hcontrol _ hmem) (by decide)
  refine ⟨?_, hfeed, hreturn, fun before after => Literal.odd_backslashes, fun other hother => ?_⟩
  · have hlast : ('"' :: (escaped ++ ['"'])).getLast? = some '"' := by
      rw [← List.cons_append, List.getLast?_concat]
    have hscan := @scan_of_lexeme source '"' (escaped ++ ['"']) rest (.ok (.literal content))
      (by simp [hfeed]) (by simp [hlast]) (lexeme_literal content)
    have hlength : (escaped ++ ['"']).length + 2 = 3 + escaped.length := by
      rw [List.length_append, List.length_singleton]
      omega
    rw [List.append_assoc, List.singleton_append, hlength] at hscan
    rw [hscan]
    simp only [Lexeme.place, Position.advance, List.length_cons, ← hlength]
    congr 3
    omega
  · exact String.toList_injective (Literal.escape_injective hother)

/-- A text with a quote, a backslash and a line feed is read back in front of another token and
another line. -/
theorem scan_escaped_two_lines :
    scan "t" "\"\\\"\\\\\\n\" y\nz".toList =
      [⟨⟨"t", 1, 1⟩, ⟨"t", 1, 9⟩, .ok (.literal "\"\\\n")⟩,
        ⟨⟨"t", 1, 9⟩, ⟨"t", 1, 10⟩, .ok .space⟩, ⟨⟨"t", 1, 10⟩, ⟨"t", 1, 11⟩, .ok (.symbol "y")⟩,
        ⟨⟨"t", 2, 1⟩, ⟨"t", 2, 2⟩, .ok (.symbol "z")⟩] ∧
      Literal.trailingBackslashes ['\\'] % 2 = 1 := by
  obtain ⟨hscan, -, -, hquote, -⟩ := scan_escaped "t" "\"\\\n" " y\nz".toList
  refine ⟨hscan.trans ?_, hquote ['\\'] "\\\\\\n".toList (by decide)⟩
  with_unfolding_all rfl

end BracketLisp
