import BracketLisp.Numeral.Integer

/-!
# `BracketLisp.Numeral.Float`: float numerals

Two forms exist, both after an optional sign.

* Decimal: digits with an optional point among them, at least one digit in all, and an
  optional exponent of ten. The words `inf`, `infinity` and `nan` are numerals too, in
  either case. The value is the float nearest to the number written.
* Hexadecimal: after the mark `0x`, digits with an optional point and a binary
  exponent, which is not optional. Each digit rounds, and so does the power of two.
-/

set_option autoImplicit false

namespace BracketLisp.Numeral

open Text

/-- The float beyond all numbers. -/
def infinity : Float := 1.0 / 0.0

/-- The float that is no number. -/
def notANumber : Float := 0.0 / 0.0

/-- The float `x` or its opposite. -/
def signed (negative : Bool) (x : Float) : Float :=
  if negative then -x else x

/-! ### Decimal form -/

/-- Whether the text is the word, where ASCII letters may be of either case. -/
def isWord (word : String) (text : List Char) : Bool :=
  text.map Char.toLower == word.toList

/-- A decimal exponent: an optional sign and one or more digits. -/
def exponent? (text : List Char) : Option Int :=
  let (negative, digits) := splitSign text
  (natural? 10 digits).map fun magnitude => if negative then -(magnitude : Int) else magnitude

/-- What may follow the digits of a decimal numeral: nothing, or a letter `e` and an
exponent. -/
def decimalScale? (text : List Char) : Option Int :=
  match text with
  | [] => some 0
  | c :: rest => if c = 'e' ∨ c = 'E' then exponent? rest else none

/-- Splits digits around an optional point: those before it, those after it, and what
follows them. -/
def splitPoint (text : List Char) : List Char × List Char × List Char :=
  let (whole, rest) := text.span (isDigit 10)
  match rest with
  | '.' :: rest =>
    let (fraction, rest) := rest.span (isDigit 10)
    (whole, fraction, rest)
  | _ => (whole, [], rest)

/-- The float nearest to `mantissa * 10 ^ scale`. -/
def decimalFloat (mantissa : Nat) (scale : Int) : Float :=
  Float.ofScientific mantissa (scale < 0) scale.natAbs

/-- The float that an unsigned decimal numeral stands for. -/
def decimal? (text : List Char) : Option Float :=
  let (whole, fraction, rest) := splitPoint text
  match natural? 10 (whole ++ fraction), decimalScale? rest with
  | some mantissa, some scale => some (decimalFloat mantissa (scale - fraction.length))
  | _, _ => none

/-- The float that a word or an unsigned decimal numeral stands for. -/
def unsignedFloat? (text : List Char) : Option Float :=
  if isWord "inf" text ∨ isWord "infinity" text then
    some infinity
  else if isWord "nan" text then
    some notANumber
  else
    decimal? text

/-! ### Hexadecimal form -/

/-- The float that hexadecimal digits add up to, each one rounding the sum. -/
def hexDigitsFrom? : Float → List Char → Option Float
  | value, [] => some value
  | value, c :: rest =>
    match digitValue? 16 c with
    | some digit => hexDigitsFrom? (value * 16.0 + Float.ofNat digit) rest
    | none => none

/-- Splits a text at the first character that satisfies `mark`, which is dropped. -/
def splitAtMark? (mark : Char → Bool) (text : List Char) : Option (List Char × List Char) :=
  match text.span fun c => !mark c with
  | (before, _ :: after) => some (before, after)
  | (_, []) => none

/-- Two to the power `exponent` as a float: infinite above 1023, and below zero the
reciprocal of the opposite power, so nothing at all below -1023. -/
def powerOfTwo (exponent : Int) : Float :=
  if 1023 < exponent then
    infinity
  else if 0 ≤ exponent then
    Float.ofNat (1 <<< exponent.toNat)
  else if -1023 ≤ exponent then
    1.0 / Float.ofNat (1 <<< exponent.natAbs)
  else
    0.0

/-- A binary exponent, which has to fit into 32 bits. -/
def binaryExponent? (text : List Char) : Option Int :=
  (exponent? text).filter fun exponent =>
    Int32.minValue.toInt ≤ exponent ∧ exponent ≤ Int32.maxValue.toInt

/-- How many binary places the digits of a hexadecimal fraction take, a number which has to
fit into 32 bits. -/
def fractionBits? (fraction : List Char) : Option Nat :=
  if 4 * fraction.length ≤ Int32.maxValue.toInt then some (4 * fraction.length) else none

/-- The float that a hexadecimal numeral stands for, sign and mark taken off. -/
def hexadecimal? (text : List Char) : Option Float :=
  match splitAtMark? (fun c => c = 'p' ∨ c = 'P') text with
  | none => none
  | some (mantissa, exponent) =>
    let (whole, fraction) := (splitAtMark? (· = '.') mantissa).getD (mantissa, [])
    if whole.isEmpty ∧ fraction.isEmpty then
      none
    else
      match hexDigitsFrom? 0.0 (whole ++ fraction), binaryExponent? exponent with
      | some value, some exponent =>
        if value == 0.0 then
          some 0.0
        else
          (fractionBits? fraction).map fun (bits : Nat) => value * powerOfTwo (exponent - bits)
      | _, _ => none

/-- The float that a numeral without separators stands for. -/
def plainFloat? (text : List Char) : Option Float :=
  let (negative, unsigned) := splitSign text
  let value? :=
    match splitMark? unsigned with
    | some (16, digits) => hexadecimal? digits
    | _ => unsignedFloat? unsigned
  value?.map (signed negative)

/-- The float that a float numeral stands for. -/
def float? (text : List Char) : Option Float :=
  (withoutSeparators? text).bind plainFloat?

end BracketLisp.Numeral
