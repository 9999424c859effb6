import BracketLisp.Eval.Fold
import BracketLisp.Integer

/-!
# `BracketLisp.Eval.Bits`: integers as rows of bits

Integers are rows of 64 bits in two's complement here. Shifts by fewer than 64 places
are defined, to the left with zeros and to the right with copies of the sign.
-/

set_option autoImplicit false

namespace BracketLisp

variable {H : Type}

/-- Combines the bits of two or more integers from the left. -/
def bitFold (op : Int64 → Int64 → Int64) : ArgumentFold H where
  State := Option Int64
  arity := .atLeast 2
  start := none
  step := fun total? operand =>
    (intOperand operand).map fun value =>
      .next (some (match total? with
        | none => value
        | some total => op total value))
  finish := fun total? => .ok ((total?.map .int).getD .nil)

/-- The exclusive or of integers, or the complement of a single one. -/
def exclusiveOr : List Int64 → Int64
  | [value] => ~~~value
  | values => values.foldr (· ^^^ ·) 0

/-- Exclusive or of one or more operands. -/
def bitXorFold : ArgumentFold H where
  State := List Int64
  arity := .atLeast 1
  start := []
  step := fun latest operand => (intOperand operand).map fun value => .next (value :: latest)
  finish := fun latest => .ok (.int (exclusiveOr latest))

/-- The number of bits of a word. -/
def wordBits : UInt32 := 64

/-- The greatest number of places that a shift goes, which is one less than there are bits. -/
def greatestShift : Int := 63

/-- The number of places for a number that asks to shift: a word of 32 bits without sign, and
fewer than there are bits. -/
def places? (count : Int64) : Option UInt32 :=
  (Integer.toUInt32? count).filter (· < wordBits)

/-- The number of places that an operand asks to shift by. -/
def shiftOperand (operand : Located (Value H)) : Except EvalError Nat := do
  let count ← intOperand operand
  match places? count with
  | some places => pure places.toNat
  | none => throw ⟨.outOfRange count.toInt 0 greatestShift, operand.span⟩

/-- The two conditions on the places come to one. -/
theorem map_places? (count : Int64) :
    (places? count).map UInt32.toNat =
      if 0 ≤ count.toInt ∧ count.toInt ≤ greatestShift then some count.toInt.toNat else none := by
  have hsize : UInt32.size = 4294967296 := rfl
  unfold places? Integer.toUInt32? greatestShift
  by_cases hword : 0 ≤ count.toInt ∧ count.toInt < UInt32.size
  · have hplaces : (UInt32.ofNat count.toInt.toNat).toNat = count.toInt.toNat :=
      UInt32.toNat_ofNat_of_lt' (by omega)
    have hbits : UInt32.ofNat count.toInt.toNat < wordBits ↔ count.toInt ≤ 63 := by
      rw [UInt32.lt_iff_toNat_lt, hplaces]
      show count.toInt.toNat < 64 ↔ _
      omega
    rw [if_pos hword, Option.filter_some]
    simp only [decide_eq_true_eq, hbits, hword.1, true_and]
    split
    · rw [Option.map_some, hplaces]
    · rfl
  · rw [if_neg hword, if_neg (by omega)]
    rfl

theorem shiftOperand_eq (operand : Located (Value H)) :
    shiftOperand operand = (intOperand operand).bind fun count =>
      if 0 ≤ count.toInt ∧ count.toInt ≤ greatestShift then .ok count.toInt.toNat
      else .error ⟨.outOfRange count.toInt 0 greatestShift, operand.span⟩ := by
  unfold shiftOperand
  cases intOperand operand with
  | error error => rfl
  | ok count =>
    have hplaces := map_places? count
    simp only [bind, Except.bind]
    split at hplaces
    next hcount =>
      obtain ⟨places, hsome, heq⟩ := Option.map_eq_some_iff.1 hplaces
      rw [hsome, if_pos hcount, ← heq]
      rfl
    next hcount =>
      rw [Option.map_eq_none_iff.1 hplaces, if_neg hcount]
      rfl

/-- Shifts one operand by another. -/
def shiftOf (shift : Int64 → Nat → Int64) (left right : Located (Value H)) :
    Except EvalError (Value H) := do
  let value ← intOperand left
  let count ← shiftOperand right
  pure (.int (shift value count))

/-- The word shifted to the left by fewer than 64 places. Bits that leave it are lost. -/
def shiftLeft (value : Int64) (count : Nat) : Int64 :=
  value <<< Int64.ofNat count

/-- The word shifted to the right by fewer than 64 places, its sign kept. -/
def shiftRight (value : Int64) (count : Nat) : Int64 :=
  value >>> Int64.ofNat count

end BracketLisp
