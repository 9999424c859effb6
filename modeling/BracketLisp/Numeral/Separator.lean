import BracketLisp.Text.Digit

/-!
# `BracketLisp.Numeral.Separator`: signs, base marks and digit separators

The parts that integer and float numerals share. A numeral may open with a sign and
then with a base mark (`0x`, `0o`, `0b`, in either case). An underscore may stand
between two digits, or between a base mark and a digit, and means nothing there.
After a hexadecimal mark the letters `a` to `f` are digits too.
-/

set_option autoImplicit false

namespace BracketLisp.Numeral

open Text

/-- Splits a sign off the front: whether it is a minus, and what follows it. -/
def splitSign : List Char → Bool × List Char
  | '-' :: rest => (true, rest)
  | '+' :: rest => (false, rest)
  | text => (false, text)

/-- The base that a letter after a zero marks. -/
def markedBase? (c : Char) : Option Nat :=
  match c with
  | 'x' | 'X' => some 16
  | 'o' | 'O' => some 8
  | 'b' | 'B' => some 2
  | _ => none

/-- Splits a base mark off the front: the base, and what follows the mark. -/
def splitMark? : List Char → Option (Nat × List Char)
  | '0' :: letter :: rest => (markedBase? letter).map (·, rest)
  | _ => none

/-- What stands before the next character, as far as separators care. -/
inductive Before where
  | start
  | digit
  | separator
  | other
deriving DecidableEq, Repr

/-- Whether each underscore has a digit on both sides, where `before` is what stands
before the text. -/
def separated (digit : Char → Bool) : Before → List Char → Bool
  | before, [] => before != .separator
  | before, c :: rest =>
    if digit c then
      separated digit .digit rest
    else if c = '_' then
      before == .digit && separated digit .separator rest
    else
      before != .separator && separated digit .other rest

/-- The digits that separators may stand between, in a numeral of the base marked. -/
def isSeparableDigit (base : Nat) (c : Char) : Bool :=
  isDigit (if base = 16 then 16 else 10) c

/-- Whether every underscore of the numeral stands where it may. A base mark counts as
a digit for the underscore after it. -/
def separatorsOk (text : List Char) : Bool :=
  let unsigned := (splitSign text).2
  match splitMark? unsigned with
  | some (base, rest) => separated (isSeparableDigit base) .digit rest
  | none => separated (isSeparableDigit 10) .start unsigned

/-- The numeral without its separators, unless one stands where it may not. -/
def withoutSeparators? (text : List Char) : Option (List Char) :=
  if '_' ∈ text ∧ separatorsOk text = false then
    none
  else
    some (text.filter (· != '_'))

end BracketLisp.Numeral
