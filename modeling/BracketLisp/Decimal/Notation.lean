import BracketLisp.Decimal.Shortest

/-!
# `BracketLisp.Decimal.Notation`: floats as text

The text of a float is its shortest decimal. Magnitudes from `10 ^ -4` to below
`10 ^ 16`, and zero, are written positionally, with at least one digit after the
point. All others are written with an exponent of ten, which has neither a plus sign
nor leading zeros, and only as many digits as there are.
-/

set_option autoImplicit false

namespace BracketLisp.Decimal

/-- The least and the greatest exponent of the leading digit that are written
positionally. -/
def positionalRange : Int × Int := (-4, 15)

/-- Digits with a point among them: `point` digits before it, or zeros after it if
`point` is negative. One zero stands where no digit would. -/
def positional (digits : List Char) (point : Int) : List Char :=
  let before := digits.take point.toNat ++ List.replicate (point.toNat - digits.length) '0'
  let after := List.replicate (-point).toNat '0' ++ digits.drop point.toNat
  (if before.isEmpty then ['0'] else before) ++ '.' :: (if after.isEmpty then ['0'] else after)

/-- Digits with a point after the first, if others follow it, and an exponent. -/
def scientific (digits : List Char) (exponent : Int) : List Char :=
  digits.take 1 ++ (if digits.length ≤ 1 then [] else '.' :: digits.drop 1) ++
    'e' :: (toString exponent).toList

/-- A point of a grid, written in the way its magnitude asks for. -/
def GridPoint.text (point : GridPoint) : List Char :=
  let digits := Nat.toDigits 10 point.multiple
  let leading := point.exponent + digits.length - 1
  if positionalRange.1 ≤ leading ∧ leading ≤ positionalRange.2 then
    positional digits (leading + 1)
  else
    scientific digits leading

/-- The text of a dyadic without its sign. -/
def Dyadic.text (x : Dyadic) : List Char :=
  if x.mantissa = 0 then positional ['0'] 1 else x.shortest.text

/-- The text of a float. A zero keeps its sign, and `NaN` has none. -/
def floatText (x : Float) : String :=
  match read x with
  | .nan => "NaN"
  | .infinite negative => if negative then "-inf" else "inf"
  | .finite negative magnitude =>
    String.ofList ((if negative then ['-'] else []) ++ magnitude.text)

end BracketLisp.Decimal
