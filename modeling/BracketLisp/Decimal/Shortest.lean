/-!
# `BracketLisp.Decimal.Shortest`: the shortest decimals of binary floats

A float of 64 bits is a special value or a `Dyadic` with a sign. The reals that round
to a dyadic form an interval around it, whose ends belong to it exactly when its
mantissa is even. The shortest decimal of the dyadic is the point of that interval on
the coarsest decimal grid that has one, and the nearest of those on that grid.

All comparisons are between natural numbers: value, ends and grid points are written
over one common denominator.
-/

set_option autoImplicit false

namespace BracketLisp.Decimal

/-- The number `mantissa * 2 ^ exponent`. `narrow` says that the neighbour below is
half as far away as the one above, as it is at the powers of two. -/
structure Dyadic where
  mantissa : Nat
  exponent : Int
  narrow : Bool
deriving DecidableEq, Repr

/-- What the 64 bits of a float say. -/
inductive Reading where
  | nan
  | infinite (negative : Bool)
  | finite (negative : Bool) (magnitude : Dyadic)
deriving DecidableEq, Repr

/-- The number of fractions of a float, and the leading one that normal floats add to
theirs. -/
def leadingOne : Nat := 1 <<< 52

/-- The exponent bits of floats that are infinite or no numbers. -/
def specialExponent : Nat := 2047

/-- Takes a float apart: a sign bit, eleven bits of exponent, and 52 bits of fraction. -/
def read (x : Float) : Reading :=
  let bits := x.toBits.toNat
  let negative := bits >>> 63 = 1
  let exponent : Nat := (bits >>> 52) % (specialExponent + 1)
  let fraction : Nat := bits % leadingOne
  if exponent = specialExponent then
    if fraction = 0 then .infinite negative else .nan
  else if exponent = 0 then
    .finite negative ⟨fraction, -1074, false⟩
  else
    .finite negative ⟨fraction + leadingOne, (exponent : Int) - 1075, fraction = 0 ∧ 1 < exponent⟩

/-- The number `multiple * 10 ^ exponent`, a point of a decimal grid. -/
structure GridPoint where
  multiple : Nat
  exponent : Int
deriving DecidableEq, Repr

/-! ### One grid -/

/-- A dyadic, the ends of its interval and the step of a decimal grid, all over one
denominator. -/
structure Scaled where
  value : Nat
  least : Nat
  greatest : Nat
  step : Nat
  closed : Bool
deriving DecidableEq, Repr

/-- A dyadic beside the grid of the multiples of `10 ^ exponent`. Quarters of the unit
of the mantissa make the ends of the interval integers. -/
def Dyadic.scale (x : Dyadic) (exponent : Int) : Scaled :=
  let quarter := x.exponent - 2
  let factor := Nat.pow 10 (-exponent).toNat <<< quarter.toNat
  { value := 4 * x.mantissa * factor
    least := (4 * x.mantissa - if x.narrow then 1 else 2) * factor
    greatest := (4 * x.mantissa + 2) * factor
    step := Nat.pow 10 exponent.toNat <<< (-quarter).toNat
    closed := x.mantissa % 2 = 0 }

/-- Whether a grid point rounds to the dyadic. -/
def Scaled.covers (s : Scaled) (multiple : Nat) : Bool :=
  if s.closed then
    s.least ≤ multiple * s.step ∧ multiple * s.step ≤ s.greatest
  else
    s.least < multiple * s.step ∧ multiple * s.step < s.greatest

/-- The point of the grid that rounds to the dyadic and is nearest to it. Only the two
neighbours of the value need to be tried. Of two that are equally near it is the
upper one. -/
def Scaled.nearest? (s : Scaled) : Option Nat :=
  let below := s.value / s.step
  let above := below + 1
  if s.covers below ∧
      (s.covers above = false ∨ s.value - below * s.step < above * s.step - s.value) then
    some below
  else if s.covers above then
    some above
  else
    none

/-! ### From coarse grids to fine ones -/

/-- The first hit among `count` grids, of which `10 ^ exponent` is the coarsest. -/
def Dyadic.search (x : Dyadic) : (count : Nat) → (exponent : Int) → GridPoint
  | 0, exponent => ⟨0, exponent⟩
  | count + 1, exponent =>
    match (x.scale exponent).nearest? with
    | some multiple => ⟨multiple, exponent⟩
    | none => x.search count (exponent - 1)

/-- An exponent of ten at which the grid is too coarse for the dyadic: the power is at
least its value, by the bound 0.30103 on the decimal logarithm of two. -/
def Dyadic.coarse (x : Dyadic) : Int :=
  (x.mantissa.log2 + 1 + x.exponent) * 30103 / 100000 + 1

/-- The shortest decimal that rounds to a dyadic other than zero, and the nearest to
it of that length. Twenty grids reach past seventeen digits, which always suffice. -/
def Dyadic.shortest (x : Dyadic) : GridPoint :=
  x.search 20 x.coarse

end BracketLisp.Decimal
