import BracketLisp.Text.Digit

/-!
# `BracketLisp.Text.Literal`: string literals, written and read

A literal stands between two double quotes on one line. Between them a backslash
starts an escape: a letter for a control character, a character that stands for
itself, exactly three octal digits, or `x` and exactly two hexadecimal ones.

* `escape` writes a text so that it can stand between the quotes: control characters
  and the two special characters are escaped, and nothing else is.
* `read` goes through what follows the opening quote, one character at a time, and
  tells how far the literal goes and how it ends. The first character that no escape
  can go on with ends the reading.
-/

set_option autoImplicit false

namespace BracketLisp.Text.Literal

/-! ### Writing -/

/-- The letter that stands for a control character after a backslash, if one does. -/
def shorthand? (c : Char) : Option Char :=
  match c with
  | '\x07' => some 'a'
  | '\x08' => some 'b'
  | '\t' => some 't'
  | '\n' => some 'n'
  | '\x0b' => some 'v'
  | '\x0c' => some 'f'
  | '\r' => some 'r'
  | _ => none

/-- Whether `c` is one of the 33 control characters of ASCII. -/
def isControl (c : Char) : Bool :=
  c.toNat < 0x20 || c.toNat == 0x7f

/-- A hexadecimal digit in lower case. -/
def hexDigit (value : Nat) : Char :=
  Char.ofNat (if value < 10 then '0'.toNat + value else 'a'.toNat + (value - 10))

/-- One character as it is written inside a literal. -/
def escapeChar (c : Char) : List Char :=
  if c = '\\' ∨ c = '"' then
    ['\\', c]
  else
    match shorthand? c with
    | some letter => ['\\', letter]
    | none =>
      if isControl c then
        ['\\', 'x', hexDigit (c.toNat / 16), hexDigit (c.toNat % 16)]
      else
        [c]

/-- A text as it is written between the quotes of a literal. -/
def escape (content : List Char) : List Char :=
  content.flatMap escapeChar

/-! ### Reading -/

/-- What a letter or sign stands for right after a backslash, if anything. -/
def expand? (c : Char) : Option Char :=
  match c with
  | 'a' => some '\x07'
  | 'b' => some '\x08'
  | 'f' => some '\x0c'
  | 'n' => some '\n'
  | 'r' => some '\r'
  | 't' => some '\t'
  | 'v' => some '\x0b'
  | '\\' => some '\\'
  | '\x27' => some '\x27'
  | '"' => some '"'
  | '?' => some '?'
  | _ => none

/-- How much of the current unit of a literal has been read. -/
inductive Progress where
  /-- Nothing: the next character starts a unit. -/
  | fresh
  /-- A backslash. -/
  | backslash
  /-- Digits of `base` amounting to `value`, with `missing + 1` more to come. -/
  | digits (base missing value : Nat)
deriving DecidableEq, Repr

/-- What a character does to a literal being read. -/
inductive Step where
  /-- It continues the unit. -/
  | more (progress : Progress)
  /-- It completes the unit, which stands for `c`. -/
  | unit (c : Char)
  /-- It is the closing quote. -/
  | close
  /-- It cannot stand there. -/
  | illegal
deriving DecidableEq, Repr

/-- One more digit of a character code. -/
def digitStep (base missing value : Nat) (c : Char) : Step :=
  match digitValue? base c, missing with
  | none, _ => .illegal
  | some digit, 0 => .unit (Char.ofNat (value * base + digit))
  | some digit, missing + 1 => .more (.digits base missing (value * base + digit))

/-- What `c` does to a literal that has come as far as `progress`. -/
def step (progress : Progress) (c : Char) : Step :=
  match progress with
  | .fresh =>
    if c = '"' then .close
    else if c = '\\' then .more .backslash
    else .unit c
  | .backslash =>
    match expand? c with
    | some decoded => .unit decoded
    | none => if c = 'x' then .more (.digits 16 1 0) else digitStep 8 2 0 c
  | .digits base missing value => digitStep base missing value c

/-- How a literal ends. -/
inductive Ending where
  /-- With its closing quote. -/
  | closed
  /-- With a character that cannot stand there. -/
  | illegal (found : Char)
  /-- With the line. -/
  | cut
deriving DecidableEq, Repr

/-- What comes after an opening quote: the decoded characters, the number of
characters read, the last one of the ending included, and the ending. -/
structure Reading where
  content : List Char
  used : Nat
  ending : Ending
deriving DecidableEq, Repr

/-- Puts one character before the reading of what follows it. -/
def Reading.skip (reading : Reading) : Reading :=
  { reading with used := reading.used + 1 }

/-- Puts a character that completes the unit `c` before the reading of what follows. -/
def Reading.push (c : Char) (reading : Reading) : Reading :=
  { reading with content := c :: reading.content, used := reading.used + 1 }

/-- Reads on in a literal that has come as far as `progress`. -/
def readFrom : Progress → List Char → Reading
  | _, [] => ⟨[], 0, .cut⟩
  | progress, c :: rest =>
    match step progress c with
    | .more next => (readFrom next rest).skip
    | .unit decoded => (readFrom .fresh rest).push decoded
    | .close => ⟨[], 1, .closed⟩
    | .illegal => ⟨[], 1, .illegal c⟩

/-- Reads what follows the opening quote of a literal in its line. -/
def read (rest : List Char) : Reading :=
  readFrom .fresh rest

/-- A reading never uses more characters than there are. -/
theorem used_readFrom_le (progress : Progress) (rest : List Char) :
    (readFrom progress rest).used ≤ rest.length := by
  induction rest generalizing progress with
  | nil => simp [readFrom]
  | cons c rest ih =>
    unfold readFrom
    split
    · simpa [Reading.skip] using ih _
    · simpa [Reading.push] using ih _
    · simp
    · simp

end BracketLisp.Text.Literal
