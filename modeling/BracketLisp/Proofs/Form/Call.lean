import BracketLisp.Form.Outline
import BracketLisp.Proofs.Token.Spelling

/-!
# `BracketLisp.Proofs.Form.Call`: calls that are written out

The parser takes an element of a list as a whole: whatever lists are open and whatever has
been read, it goes on behind the element with nothing changed but the innermost list, which
has got the element, and the symbols. `Reads` says this of characters and the element that
they are written for.

* `reads_bare` and `reads_literal` are the two kinds of a single token.
* `run_call` is a call of a head with one argument, in parentheses. Inside a list it is an
  element again (`Reads.call`), and as a text of its own it is a form (`parse_call`).
-/

set_option autoImplicit false

namespace BracketLisp

open Text Parse

/-- A call of a name with one argument. -/
def callText (name : String) (argument : List Char) : List Char :=
  '(' :: (name.toList ++ ' ' :: (argument ++ [')']))

/-- Whether characters read as an element of a list, which stands where they do, if the symbols
are those of `table` before it and those of `later` behind it. -/
def Reads (raw : List Char) (table : SymbolTable) (element : Position → Element)
    (later : SymbolTable) : Prop :=
  ∀ (innermost : OpenList) (outer : List OpenList) (latest : List Form) (place stop : Position)
    (rest : List Char), EndsBefore rest →
    Progress.run ⟨innermost :: outer, latest, table⟩ stop (placeAll place (lexemes (raw ++ rest))) =
      Progress.run ⟨{ innermost with latest := element place :: innermost.latest } :: outer,
        latest, later⟩ stop (placeAll (place.advance raw.length) (lexemes rest))

/-! ### Single tokens -/

/-- A first lexeme that is a token is taken, and then come the others. -/
theorem run_lexeme {progress next : Progress} {place stop : Position} {c : Char}
    {others rest : List Char} {token : Token}
    (hlexeme : lexeme c (others ++ rest) = ⟨c :: others, .ok token⟩)
    (htake : progress.takeToken token place = .ok next) :
    progress.run stop (placeAll place (lexemes (c :: (others ++ rest)))) =
      next.run stop (placeAll (place.advance (c :: others).length) (lexemes rest)) := by
  have hitem : progress.take (Lexeme.place ⟨c :: others, .ok token⟩ place) = .ok next := htake
  rw [lexemes_append others hlexeme, placeAll, Progress.run, hitem]

/-- A first character that is a token by itself is taken, and then comes the rest. -/
theorem run_single {progress next : Progress} {place stop : Position} {c : Char}
    {rest : List Char} {token : Token} (hlexeme : lexeme c rest = ⟨[c], .ok token⟩)
    (htake : progress.takeToken token place = .ok next) :
    progress.run stop (placeAll place (lexemes (c :: rest))) =
      next.run stop (placeAll (place.advance 1) (lexemes rest)) := by
  have hfirst : lexeme c ([] ++ rest) = ⟨[c], .ok token⟩ := hlexeme
  exact run_lexeme hfirst htake

/-- A bare token reads as what it is classified as. -/
theorem reads_bare {name : String} (h : IsBare name.toList) {table later : SymbolTable}
    {element : Position → Element}
    (hclassify : ∀ place, classify table name place = (element place, later)) :
    Reads name.toList table element later := by
  intro innermost outer latest place stop rest hrest
  obtain ⟨c, others, hname⟩ := List.exists_cons_of_ne_nil h.ne_nil
  have htext : String.ofList (c :: others) = name := by rw [← hname, String.ofList_toList]
  rw [hname] at h ⊢
  refine run_lexeme (lexeme_of_isBare h hrest) ?_
  simp only [Progress.takeToken, htext, hclassify]
  rfl

theorem toList_quoted (content : String) :
    (quoted content).toList = '"' :: (Literal.escape content.toList ++ ['"']) := by
  simp [quoted]

/-- A literal reads as its content. -/
theorem reads_literal (content : String) (table : SymbolTable) :
    Reads (quoted content).toList table (.string content) table := by
  intro innermost outer latest place stop rest _
  rw [toList_quoted]
  exact run_lexeme (lexeme_literal content rest) rfl

/-! ### Calls -/

section Calls

variable {name : String} {argument : List Char} {table mid later : SymbolTable}
  {first second : Position → Element}

/-- A head and an argument in parentheses are read as one list. -/
theorem run_call (hname : Reads name.toList table first mid)
    (hargument : Reads argument mid second later) (pending : List OpenList) (latest : List Form)
    (place stop : Position) (rest : List Char) :
    Progress.run ⟨pending, latest, table⟩ stop
        (placeAll place (lexemes (callText name argument ++ rest))) =
      (Progress.complete ⟨pending, latest, later⟩ ⟨.paren, [first (place.advance 1),
          second (place.advance (name.toList.length + 2))], place⟩).run stop
        (placeAll (place.advance (callText name argument).length) (lexemes rest)) := by
  have htext : callText name argument ++ rest =
      '(' :: (name.toList ++ ' ' :: (argument ++ ')' :: rest)) := by
    simp [callText]
  have hend : ((((place.advance 1).advance name.toList.length).advance 1).advance
      argument.length).advance 1 = place.advance (callText name argument).length := by
    simp only [Position.advance_advance, callText, List.length_cons, List.length_append,
      List.length_nil]
    congr 1
    omega
  have hsecond : ((place.advance 1).advance name.toList.length).advance 1 =
      place.advance (name.toList.length + 2) := by
    simp only [Position.advance_advance]
    congr 1
    omega
  -- The open list behind its bracket, behind the head and behind the argument.
  let opened : OpenList := ⟨.paren, [], place⟩
  let headed : OpenList := ⟨.paren, [first (place.advance 1)], place⟩
  let filled : OpenList :=
    ⟨.paren, [second (place.advance (name.toList.length + 2)), first (place.advance 1)], place⟩
  rw [htext, ← hend]
  calc
    _ = Progress.run ⟨opened :: pending, latest, table⟩ stop (placeAll (place.advance 1)
          (lexemes (name.toList ++ ' ' :: (argument ++ ')' :: rest)))) :=
      run_single rfl rfl
    _ = Progress.run ⟨headed :: pending, latest, mid⟩ stop
          (placeAll ((place.advance 1).advance name.toList.length)
            (lexemes (' ' :: (argument ++ ')' :: rest)))) :=
      hname opened pending latest _ stop _ (endsBefore_space _)
    _ = Progress.run ⟨headed :: pending, latest, mid⟩ stop
          (placeAll (((place.advance 1).advance name.toList.length).advance 1)
            (lexemes (argument ++ ')' :: rest))) :=
      run_single rfl rfl
    _ = Progress.run ⟨filled :: pending, latest, later⟩ stop
          (placeAll ((((place.advance 1).advance name.toList.length).advance 1).advance
            argument.length) (lexemes (')' :: rest))) := by
      rw [hsecond]
      exact hargument headed pending latest _ stop _ (endsBefore_closing .paren rest)
    _ = _ := run_single rfl rfl

/-- A call reads as a list of a list. -/
theorem Reads.call (hname : Reads name.toList table first mid)
    (hargument : Reads argument mid second later) :
    Reads (callText name argument) table (fun place => .list .paren [first (place.advance 1),
      second (place.advance (name.toList.length + 2))] place) later := by
  intro innermost outer latest place stop rest _
  exact run_call hname hargument _ latest place stop rest

/-- A text that is a call has it as its only form. -/
theorem parse_call (hname : Reads name.toList table first mid)
    (hargument : Reads argument mid second later) (hfeed : '\n' ∉ callText name argument)
    (source : String) :
    parse source (callText name argument) table =
      (.ok [⟨.paren, [first ⟨source, 1, 2⟩, second ⟨source, 1, name.toList.length + 3⟩],
        ⟨source, 1, 1⟩⟩], later) := by
  have hrun := run_call hname hargument [] [] ⟨source, 1, 1⟩
    (endOf source (callText name argument)) []
  rw [List.append_nil] at hrun
  have hnil : lexemes [] = [] := by rw [lexemes]
  have hsecond : (⟨source, 1, 1⟩ : Position).advance (name.toList.length + 2) =
      ⟨source, 1, name.toList.length + 3⟩ :=
    congrArg (Position.mk source 1) (Nat.add_comm 1 _)
  rw [hnil, hsecond] at hrun
  rw [parse, scan_line_alone source hfeed]
  exact hrun

end Calls

end BracketLisp
