import BracketLisp.Proofs.Form.Reading
import BracketLisp.Proofs.Text.Literal
import BracketLisp.Proofs.Token.Offset

/-!
# `BracketLisp.Proofs.Token.Spelling`: tokens that are written out

Each token can be written so that the scanner reads it, and nothing else, from what is
written. A bracket, a space and a literal may be followed by anything. A bare token has to be
followed by a character that ends it, or by nothing.

* `ReadsAs` says which tokens a line reads as, layout apart. `ReadsAs.cons` puts one token in
  front of a line.
* `Spells` says that characters read as tokens in front of any line that lets them end.
  `Spells.brackets` puts such characters between brackets, and `Spells.join_cons` joins them by
  spaces.
* `IsBare` says which characters are one bare token, and `isBare_of_mem_scan` finds that the
  symbols of a text are written so.
* `ReadsAs.scan` leads from the lexemes of a line to the items of a text.
-/

set_option autoImplicit false

namespace BracketLisp

open Text

/-- Whether a line is read without an error, and as `tokens` if layout is left out. -/
def ReadsAs (line : List Char) (tokens : List Token) : Prop :=
  ∃ all : List Token, (lexemes line).map Lexeme.reading = all.map .ok ∧
    all.filter (fun token => !token.isLayout) = tokens

/-- Whether characters can be one bare token: none of them ends it, and the first is no
quote. -/
structure IsBare (name : List Char) : Prop where
  ne_nil : name ≠ []
  quote : name.head? ≠ some '"'
  chars : ∀ c ∈ name, ¬ EndsSymbol c

/-- Whether a bare token ends before the characters `rest`. -/
def EndsBefore (rest : List Char) : Prop :=
  ∀ c, rest.head? = some c → EndsSymbol c

theorem endsBefore_space (rest : List Char) : EndsBefore (' ' :: rest) := by
  rintro c ⟨⟩
  exact .inl rfl

theorem endsBefore_closing (bracket : Bracket) (rest : List Char) :
    EndsBefore (bracket.closing :: rest) := by
  rintro c ⟨⟩
  exact .inr (.inr (.inr ⟨bracket, .inr rfl⟩))

/-! ### One token in front of a line -/

/-- Behind the first lexeme of a line come those of what is left. -/
theorem lexemes_append {c : Char} (others : List Char) {rest : List Char}
    {reading : Except ParseFault Token}
    (h : lexeme c (others ++ rest) = ⟨c :: others, reading⟩) :
    lexemes (c :: (others ++ rest)) = ⟨c :: others, reading⟩ :: lexemes rest := by
  have hdrop : (c :: others ++ rest).drop (c :: others).length = rest := List.drop_left
  rw [List.cons_append] at hdrop
  rw [lexemes, h, hdrop]

/-- An escaped text between quotes is one literal. -/
theorem lexeme_literal (content : String) (rest : List Char) :
    lexeme '"' (Literal.escape content.toList ++ ['"'] ++ rest) =
      ⟨'"' :: (Literal.escape content.toList ++ ['"']), .ok (.literal content)⟩ := by
  show literalLexeme (Literal.escape content.toList ++ ['"'] ++ rest) = _
  have hread : Literal.read (Literal.escape content.toList ++ ['"'] ++ rest) =
      ⟨content.toList, (Literal.escape content.toList).length + 1, .closed⟩ := by
    rw [List.append_assoc]
    exact Literal.read_escape content.toList rest
  have htake : (Literal.escape content.toList ++ ['"'] ++ rest).take
      ((Literal.escape content.toList).length + 1) = Literal.escape content.toList ++ ['"'] :=
    List.take_left' (by simp)
  simp only [literalLexeme, hread, htake, String.ofList_toList]

/-- A character that is no quote and ends no symbol starts one. -/
theorem lexeme_of_not_endsSymbol {c : Char} (hquote : c ≠ '"') (hc : ¬ EndsSymbol c)
    (rest : List Char) : lexeme c rest = symbolLexeme c rest := by
  unfold lexeme
  split
  · exact absurd (.inl rfl) hc
  · exact absurd (.inr (.inl rfl)) hc
  · exact absurd (.inr (.inr (.inl rfl))) hc
  · exact absurd rfl hquote
  · have hsymbol := (isSymbolChar_iff c).2 hc
    simp only [isSymbolChar, Bool.and_eq_true, Option.isNone_iff_eq_none] at hsymbol
    simp only [hsymbol.1.2, hsymbol.2]

/-- Characters that can be a bare token are one if it ends behind them. -/
theorem lexeme_of_isBare {c : Char} {others rest : List Char} (h : IsBare (c :: others))
    (hrest : EndsBefore rest) :
    lexeme c (others ++ rest) =
      ⟨c :: others, .ok (.symbol (String.ofList (c :: others)))⟩ := by
  have hquote : c ≠ '"' := by simpa using h.quote
  obtain ⟨hc, hothers⟩ := List.forall_mem_cons.1 h.chars
  -- The name goes on as long as it can, which is up to the rest.
  have htake : (others ++ rest).takeWhile isSymbolChar = others := by
    have hall : ∀ d ∈ others, isSymbolChar d = true := fun d hd =>
      (isSymbolChar_iff d).2 (hothers d hd)
    rw [List.takeWhile_append_of_pos hall]
    cases rest with
    | nil => simp
    | cons d tail =>
      have hd : ¬ isSymbolChar d = true := fun hsymbol =>
        (isSymbolChar_iff d).1 hsymbol (hrest d rfl)
      simp [hd]
  rw [lexeme_of_not_endsSymbol hquote hc, symbolLexeme, htake]

namespace ReadsAs

variable {line rest : List Char} {tokens : List Token}

theorem nil : ReadsAs [] [] :=
  ⟨[], by simp [lexemes], rfl⟩

/-- A token that means something comes first if its lexeme does. -/
theorem cons (h : ReadsAs rest tokens) {token : Token} (htoken : token.isLayout = false)
    {raw : List Char} (hlexemes : lexemes line = ⟨raw, .ok token⟩ :: lexemes rest) :
    ReadsAs line (token :: tokens) := by
  obtain ⟨all, hall, rfl⟩ := h
  refine ⟨token :: all, ?_, ?_⟩
  · rw [hlexemes, List.map_cons, hall]
    rfl
  · rw [List.filter_cons_of_pos (by simp [htoken])]

theorem space (h : ReadsAs rest tokens) : ReadsAs (' ' :: rest) tokens := by
  obtain ⟨all, hall, rfl⟩ := h
  have hlexemes : lexemes (' ' :: rest) = ⟨[' '], .ok .space⟩ :: lexemes rest :=
    lexemes_append [] rfl
  refine ⟨.space :: all, ?_, rfl⟩
  rw [hlexemes, List.map_cons, hall]
  rfl

theorem opening (h : ReadsAs rest tokens) (bracket : Bracket) :
    ReadsAs (bracket.opening :: rest) (.opening bracket :: tokens) := by
  have hlexeme : lexeme bracket.opening rest = ⟨[bracket.opening], .ok (.opening bracket)⟩ := by
    cases bracket <;> rfl
  exact h.cons rfl (lexemes_append [] hlexeme)

theorem closing (h : ReadsAs rest tokens) (bracket : Bracket) :
    ReadsAs (bracket.closing :: rest) (.closing bracket :: tokens) := by
  have hlexeme : lexeme bracket.closing rest = ⟨[bracket.closing], .ok (.closing bracket)⟩ := by
    cases bracket <;> rfl
  exact h.cons rfl (lexemes_append [] hlexeme)

end ReadsAs

/-! ### Rows of tokens -/

/-- Whether characters read as tokens wherever a bare token could end behind them. -/
def Spells (text : List Char) (tokens : List Token) : Prop :=
  ∀ rest others, EndsBefore rest → ReadsAs rest others →
    ReadsAs (text ++ rest) (tokens ++ others)

namespace Spells

variable {text : List Char} {tokens : List Token}

theorem readsAs (h : Spells text tokens) : ReadsAs text tokens := by
  have hread := h [] [] (fun _ hc => nomatch hc) .nil
  rwa [List.append_nil, List.append_nil] at hread

theorem literal (content : String) :
    Spells ('"' :: (Literal.escape content.toList ++ ['"'])) [.literal content] :=
  fun rest _ _ hread => hread.cons rfl (lexemes_append _ (lexeme_literal content rest))

theorem symbol {name : String} (h : IsBare name.toList) :
    Spells name.toList [.symbol name] := by
  intro rest others hrest hread
  cases hlist : name.toList with
  | nil => exact absurd hlist h.ne_nil
  | cons c tail =>
    rw [hlist] at h
    have hlexeme := lexeme_of_isBare h hrest
    rw [← hlist, String.ofList_toList, hlist] at hlexeme
    exact hread.cons rfl (lexemes_append tail hlexeme)

/-- What stands between brackets may end in a bare token. -/
theorem brackets (h : Spells text tokens) (bracket : Bracket) :
    Spells (bracket.opening :: (text ++ [bracket.closing]))
      (.opening bracket :: (tokens ++ [.closing bracket])) := by
  intro rest others _ hread
  have hinner := h _ _ (endsBefore_closing bracket rest) (hread.closing bracket)
  have hline : bracket.opening :: (text ++ [bracket.closing]) ++ rest =
      bracket.opening :: (text ++ bracket.closing :: rest) := by
    simp
  have htokens : .opening bracket :: (tokens ++ [.closing bracket]) ++ others =
      .opening bracket :: (tokens ++ .closing bracket :: others) := by
    simp
  rw [hline, htokens]
  exact hinner.opening bracket

theorem join_nil : Spells ([' '].intercalate []) [] :=
  fun _ _ _ hread => hread

/-- A space behind characters ends their last token, and means nothing else. -/
theorem join_cons (h : Spells text tokens) {texts : List (List Char)} {others : List Token}
    (hothers : Spells ([' '].intercalate texts) others) :
    Spells ([' '].intercalate (text :: texts)) (tokens ++ others) := by
  intro rest more hrest hread
  have hlast := hothers rest more hrest hread
  rw [List.append_assoc]
  cases texts with
  | nil =>
    rw [List.intercalate_singleton]
    exact h rest _ hrest hlast
  | cons next texts =>
    rw [List.intercalate_cons_cons, List.append_assoc, List.append_assoc]
    exact h _ _ (endsBefore_space _) hlast.space

end Spells

/-! ### Items of a text -/

/-- A symbol of a text is a bare token, and stays on its line. -/
theorem isBare_of_mem_scan {source : String} {text : List Char} {item : Item} {name : String}
    (h : item ∈ scan source text) (hreading : item.reading = .ok (.symbol name)) :
    IsBare name.toList ∧ '\n' ∉ name.toList := by
  obtain ⟨c, rest, -, ⟨line, hline, hsuffix⟩, -, hitem, -⟩ := offset_of_mem_scan h
  have hpiece := piece_lexeme c rest item.start
  rw [← hitem, hreading] at hpiece
  -- The characters of the item are among those of its line.
  have hraw : (lexeme c rest).raw ⊆ line := by
    rw [← take_raw_lexeme]
    exact List.Subset.trans (List.take_subset _ _) hsuffix.subset
  have hfeed : '\n' ∉ (lexeme c rest).raw := fun hmem =>
    not_mem_of_mem_lines hline (hraw hmem)
  generalize (c :: rest).drop _ = after at hpiece
  generalize (lexeme c rest).raw = raw at hpiece hfeed
  cases hpiece with
  | symbol c others _ hquote hraw _ =>
    rw [String.toList_ofList]
    exact ⟨⟨List.cons_ne_nil c others, by simpa using hquote, hraw⟩, hfeed⟩

/-- A line that reads as tokens has items with these tokens, and no errors. -/
theorem ReadsAs.scanLine {line : List Char} {tokens : List Token} (h : ReadsAs line tokens)
    (source : String) (number : Nat) :
    Readable (scanLine source number line) ∧
      (significant (scanLine source number line)).map Located.value = tokens := by
  obtain ⟨all, hall, rfl⟩ := h
  have hplace (lexemes : List Lexeme) (start : Position) (all : List Token)
      (hall : lexemes.map Lexeme.reading = all.map .ok) :
      Readable (placeAll start lexemes) ∧
        (significant (placeAll start lexemes)).map Located.value =
          all.filter (fun token => !token.isLayout) := by
    induction lexemes generalizing start all with
    | nil =>
      obtain rfl : all = [] := List.map_eq_nil_iff.1 hall.symm
      exact ⟨List.forall_mem_nil _, rfl⟩
    | cons lexeme others ih =>
      cases all with
      | nil => cases hall
      | cons token all =>
        rw [List.map_cons, List.map_cons, List.cons.injEq] at hall
        obtain ⟨hreadable, htokens⟩ := ih (start.advance lexeme.raw.length) all hall.2
        have hreading : (lexeme.place start).reading = .ok token := by
          rw [Lexeme.place, hall.1]
          rfl
        refine ⟨List.forall_mem_cons.2 ⟨⟨token, hreading⟩, hreadable⟩, ?_⟩
        rw [placeAll, significant_cons, List.map_append, htokens]
        cases hlayout : token.isLayout with
        | true => simp [Item.significant?, hreading, hlayout]
        | false => simp [Item.significant?, hreading, hlayout]
  exact hplace (lexemes line) ⟨source, number, 1⟩ all hall

/-- A text of one line that reads as tokens has items with these tokens, and no errors. -/
theorem ReadsAs.scan {line : List Char} {tokens : List Token} (h : ReadsAs line tokens)
    (hfeed : '\n' ∉ line) (source : String) :
    Readable (scan source line) ∧ (significant (scan source line)).map Located.value = tokens := by
  rw [scan_line_alone source hfeed]
  exact h.scanLine source 1

end BracketLisp
