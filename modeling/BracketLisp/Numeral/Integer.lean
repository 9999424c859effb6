import BracketLisp.Integer
import BracketLisp.Numeral.Separator

/-!
# `BracketLisp.Numeral.Integer`: integer numerals

An integer numeral is an optional sign and digits in base 16, 8 or 2 after a base
mark, in base 8 after a further leading zero, and in base 10 otherwise. Its value has
to fit into 64 bits, first without its sign and then with it. The first of these conditions
follows from the second (`plainInteger?_eq_bind`).
-/

set_option autoImplicit false

namespace BracketLisp.Numeral

open Text

/-- The number that digits of `base` write, unless one of them is no such digit. -/
def digitsFrom? (base : Nat) : Nat → List Char → Option Nat
  | value, [] => some value
  | value, c :: rest =>
    match digitValue? base c with
    | some digit => digitsFrom? base (value * base + digit) rest
    | none => none

/-- The number that one or more digits of `base` write. -/
def natural? (base : Nat) (digits : List Char) : Option Nat :=
  if digits.isEmpty then none else digitsFrom? base 0 digits

/-- The base of an unsigned numeral, and its digits. -/
def splitBase (text : List Char) : Nat × List Char :=
  match splitMark? text, text with
  | some marked, _ => marked
  | none, '0' :: digit :: rest => (8, digit :: rest)
  | none, _ => (10, text)

/-- The word without sign that one or more digits of `base` write, if their number has one. -/
def magnitude? (base : Nat) (digits : List Char) : Option UInt64 :=
  match natural? base digits with
  | some n => if n < UInt64.size then some (UInt64.ofNat n) else none
  | none => none

/-- The word that an integer numeral without separators stands for. -/
def plainInteger? (text : List Char) : Option Int64 :=
  let (negative, unsigned) := splitSign text
  let (base, digits) := splitBase unsigned
  match magnitude? base digits with
  | some magnitude =>
    let magnitude : Int := magnitude.toNat
    Integer.ofInt? (if negative then -magnitude else magnitude)
  | none => none

/-- A number that no word without sign stands for is too large with either sign, so it does not
matter that the digits are read as such a word first. -/
theorem plainInteger?_eq_bind (text : List Char) :
    plainInteger? text =
      (natural? (splitBase (splitSign text).2).1 (splitBase (splitSign text).2).2).bind
        fun n => Integer.ofInt? (if (splitSign text).1 then -(n : Int) else n) := by
  simp only [plainInteger?, magnitude?]
  cases natural? (splitBase (splitSign text).2).1 (splitBase (splitSign text).2).2 with
  | none => rfl
  | some n =>
    by_cases hn : n < UInt64.size
    · simp only [if_pos hn, UInt64.toNat_ofNat_of_lt' hn, Option.bind_some]
    · have hlarge : ¬ Integer.Fits (if (splitSign text).1 then -(n : Int) else n) := by
        have hleast : Int64.minValue.toInt = -0x8000000000000000 := rfl
        have hgreatest : Int64.maxValue.toInt = 0x7fffffffffffffff := rfl
        have hsize : UInt64.size = 0x10000000000000000 := rfl
        unfold Integer.Fits
        split <;> omega
      simp only [if_neg hn, Option.bind_some, Integer.ofInt?_eq_none_iff.2 hlarge]

/-- The word that an integer numeral stands for. -/
def integer? (text : List Char) : Option Int64 :=
  (withoutSeparators? text).bind plainInteger?

end BracketLisp.Numeral
