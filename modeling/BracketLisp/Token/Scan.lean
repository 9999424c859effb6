import BracketLisp.Text.Line
import BracketLisp.Text.Literal
import BracketLisp.Token

/-!
# `BracketLisp.Token.Scan`: from text to tokens

A line is cut into lexemes from left to right. The first character decides the kind:
a quote starts a literal, a semicolon a comment, and any other character that is
neither blank nor bracket a symbol, which is as long as it can be. Faults do not stop
the scan: the next lexeme starts where the faulty one ends.

* `lexemes` cuts one line. No lexeme is empty (`raw_lexeme_ne_nil`), and together
  they are the line (`flatten_raw_lexemes`).
* `scan` cuts a text and gives each lexeme its place.
* `endOf` is the place where the scan stops, and `endOf_of_getLast?` finds it behind the last
  line.
-/

set_option autoImplicit false

namespace BracketLisp

open Text

/-! ### Lexemes of a line -/

/-- The lexeme of a literal, its opening quote included, before `rest`. -/
def literalLexeme (rest : List Char) : Lexeme :=
  let reading := Literal.read rest
  { raw := '"' :: rest.take reading.used
    reading :=
      match reading.ending with
      | .closed => .ok (.literal (String.ofList reading.content))
      | .illegal found => .error (.illegalEscape found)
      | .cut => .error .unclosedLiteral }

/-- The lexeme of a symbol that starts with `c`. -/
def symbolLexeme (c : Char) (rest : List Char) : Lexeme :=
  let name := c :: rest.takeWhile isSymbolChar
  ⟨name, .ok (.symbol (String.ofList name))⟩

/-- The first lexeme of a line that starts with `c`. -/
def lexeme (c : Char) (rest : List Char) : Lexeme :=
  match c with
  | ' ' => ⟨[c], .ok .space⟩
  | '\t' => ⟨[c], .ok .tab⟩
  | ';' => ⟨c :: rest, .ok (.comment (String.ofList rest))⟩
  | '"' => literalLexeme rest
  | _ =>
    match Bracket.ofOpening? c with
    | some bracket => ⟨[c], .ok (.opening bracket)⟩
    | none =>
      match Bracket.ofClosing? c with
      | some bracket => ⟨[c], .ok (.closing bracket)⟩
      | none => symbolLexeme c rest

/-- Every lexeme holds at least the character that starts it. -/
theorem raw_lexeme_ne_nil (c : Char) (rest : List Char) : (lexeme c rest).raw ≠ [] := by
  unfold lexeme
  repeat' split
  all_goals simp [literalLexeme, symbolLexeme]

/-- All lexemes of a line, in order. -/
def lexemes : List Char → List Lexeme
  | [] => []
  | c :: rest =>
    lexeme c rest :: lexemes ((c :: rest).drop (lexeme c rest).raw.length)
termination_by line => line.length
decreasing_by
  have := List.length_pos_iff.2 (raw_lexeme_ne_nil c rest)
  simp only [List.length_drop, List.length_cons]
  omega

/-- A lexeme is what its line starts with. -/
theorem take_raw_lexeme (c : Char) (rest : List Char) :
    (c :: rest).take (lexeme c rest).raw.length = (lexeme c rest).raw := by
  unfold lexeme
  split
  · simp
  · simp
  · simp
  · simp [literalLexeme, List.take_eq_take_iff]
  · split
    · simp
    · split
      · simp
      · have := List.takeWhile_prefix (l := rest) isSymbolChar
        simpa [symbolLexeme] using (List.prefix_iff_eq_take.1 this).symm

/-- The lexemes of a line, put together, are the line. -/
theorem flatten_raw_lexemes (line : List Char) :
    ((lexemes line).map Lexeme.raw).flatten = line := by
  fun_induction lexemes line with
  | case1 => rfl
  | case2 c rest ih =>
    rw [List.map_cons, List.flatten_cons, ih]
    conv => lhs; lhs; rw [← take_raw_lexeme]
    exact List.take_append_drop _ _

/-! ### Lexemes in their places -/

/-- A lexeme in its place: where it starts, where the scan goes on, and the token or
the error. -/
structure Item where
  start : Position
  stop : Position
  reading : Except ParseError Token
deriving Repr

/-- The place to blame for a fault of a lexeme: for a wrong escape its last character,
else its first one. -/
def Lexeme.blame (lexeme : Lexeme) (start : Position) (fault : ParseFault) : Position :=
  match fault with
  | .illegalEscape _ => start.advance (lexeme.raw.length - 1)
  | _ => start

/-- The lexeme as an item that starts at `start`. -/
def Lexeme.place (lexeme : Lexeme) (start : Position) : Item where
  start := start
  stop := start.advance lexeme.raw.length
  reading := lexeme.reading.mapError fun fault => ⟨fault, lexeme.blame start fault⟩

/-- Lexemes as items, each starting where the one before it stops. -/
def placeAll (start : Position) : List Lexeme → List Item
  | [] => []
  | lexeme :: others => lexeme.place start :: placeAll (start.advance lexeme.raw.length) others

/-- The items of the line with number `number`. -/
def scanLine (source : String) (number : Nat) (line : List Char) : List Item :=
  placeAll ⟨source, number, 1⟩ (lexemes line)

/-- The items of lines, the first of which has the number `number`. -/
def scanLines (source : String) (number : Nat) : List (List Char) → List Item
  | [] => []
  | line :: others => scanLine source number line ++ scanLines source (number + 1) others

/-- The items of a text, faults included. -/
def scan (source : String) (text : List Char) : List Item :=
  scanLines source 1 (lines text)

/-- Where scanning starts: before the first line. -/
def startOf (source : String) : Position :=
  ⟨source, 0, 1⟩

/-- Where lexemes stop that start at `start`. -/
def stopAfter (start : Position) : List Lexeme → Position
  | [] => start
  | lexeme :: others => stopAfter (start.advance lexeme.raw.length) others

/-- Where scanning stops in lines, the first of which has the number `number`, when it has come
to `place` before them. -/
def stopAfterLines (source : String) (number : Nat) (place : Position) :
    List (List Char) → Position
  | [] => place
  | line :: others =>
    stopAfterLines source (number + 1) (stopAfter ⟨source, number, 1⟩ (lexemes line)) others

/-- Where scanning ends. -/
def endOf (source : String) (text : List Char) : Position :=
  stopAfterLines source 1 (startOf source) (lines text)

/-- Lexemes stop behind all their characters. -/
theorem stopAfter_eq (start : Position) (row : List Lexeme) :
    stopAfter start row = start.advance (row.map Lexeme.raw).flatten.length := by
  induction row generalizing start with
  | nil => rfl
  | cons lexeme others ih =>
    rw [stopAfter, ih]
    simp [Position.advance, Nat.add_assoc]

/-- Scanning stops behind the last line, since its lexemes are the line. -/
theorem stopAfterLines_concat (source : String) (number : Nat) (place : Position)
    (earlier : List (List Char)) (line : List Char) :
    stopAfterLines source number place (earlier ++ [line]) =
      ⟨source, number + earlier.length, line.length + 1⟩ := by
  induction earlier generalizing number place with
  | nil =>
    rw [List.nil_append, stopAfterLines, stopAfterLines, stopAfter_eq, flatten_raw_lexemes]
    simp [Position.advance, Nat.add_comm]
  | cons first others ih =>
    rw [List.cons_append, stopAfterLines, ih, List.length_cons, Nat.add_right_comm, Nat.add_assoc]

/-- Scanning ends one past the last character of the last line. -/
theorem endOf_of_getLast? (source : String) {text line : List Char}
    (h : (lines text).getLast? = some line) :
    endOf source text = ⟨source, (lines text).length, line.length + 1⟩ := by
  obtain ⟨earlier, hlines⟩ := List.getLast?_eq_some_iff.1 h
  rw [endOf, hlines, stopAfterLines_concat, List.length_append, List.length_singleton,
    Nat.add_comm 1]

end BracketLisp
