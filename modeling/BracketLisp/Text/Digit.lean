/-!
# `BracketLisp.Text.Digit`: digits of a number base

Digits are ASCII: `0` to `9`, then `a` to `z` in either case, as far as the base goes.
-/

set_option autoImplicit false

namespace BracketLisp.Text

/-- The value of a digit or letter, whatever the base. -/
def alphanumericValue? (c : Char) : Option Nat :=
  if '0' ≤ c ∧ c ≤ '9' then
    some (c.toNat - '0'.toNat)
  else if 'a' ≤ c ∧ c ≤ 'z' then
    some (c.toNat - 'a'.toNat + 10)
  else if 'A' ≤ c ∧ c ≤ 'Z' then
    some (c.toNat - 'A'.toNat + 10)
  else
    none

/-- The value of `c` as a digit of `base`, which is at most 36. -/
def digitValue? (base : Nat) (c : Char) : Option Nat :=
  (alphanumericValue? c).filter (· < base)

/-- Whether `c` is a digit of `base`. -/
def isDigit (base : Nat) (c : Char) : Bool :=
  (digitValue? base c).isSome

/-- Any digit value is smaller than its base. -/
theorem digitValue?_lt {base : Nat} {c : Char} {value : Nat}
    (h : digitValue? base c = some value) : value < base := by
  simpa using (Option.filter_eq_some_iff.1 h).2

end BracketLisp.Text
