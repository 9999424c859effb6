/-!
# `BracketLisp.Integer`: integers of 64 bits and their limits

Integer values are the 64-bit words of two's complement. Arithmetic on them is done
without bound and then checked: a result that does not fit is no result.
-/

set_option autoImplicit false

namespace BracketLisp.Integer

/-- Whether `n` is one of the integers that 64 bits hold. -/
def Fits (n : Int) : Prop :=
  Int64.minValue.toInt ≤ n ∧ n ≤ Int64.maxValue.toInt

instance (n : Int) : Decidable (Fits n) :=
  inferInstanceAs (Decidable (_ ∧ _))

/-- The word of an unbounded integer, if it fits. -/
def ofInt? (n : Int) : Option Int64 :=
  if Fits n then some (Int64.ofInt n) else none

/-- The word of 32 bits without sign for the integer of a word, if there is one. -/
def toUInt32? (word : Int64) : Option UInt32 :=
  if 0 ≤ word.toInt ∧ word.toInt < UInt32.size then some (UInt32.ofNat word.toInt.toNat) else none

/-- Any word fits. -/
theorem fits_toInt (word : Int64) : Fits word.toInt :=
  ⟨word.minValue_le_toInt, word.toInt_le⟩

/-- Exactly the integer that a word stands for has it as its word. -/
theorem ofInt?_eq_some_iff {n : Int} {word : Int64} : ofInt? n = some word ↔ word.toInt = n := by
  unfold ofInt?
  split
  next h =>
    rw [Option.some.injEq]
    constructor
    · rintro rfl
      exact Int64.toInt_ofInt_of_le h.1 (Int.lt_add_one_of_le h.2)
    · rintro rfl
      exact Int64.ofInt_toInt word
  next h =>
    constructor
    · intro hn
      cases hn
    · rintro rfl
      exact absurd (fits_toInt word) h

/-- Going to an unbounded integer and back gives the word. -/
@[simp]
theorem ofInt?_toInt (word : Int64) : ofInt? word.toInt = some word :=
  ofInt?_eq_some_iff.2 rfl

/-- No word exists exactly where the integer does not fit. -/
theorem ofInt?_eq_none_iff {n : Int} : ofInt? n = none ↔ ¬Fits n := by
  unfold ofInt?
  split <;> simp_all

end BracketLisp.Integer
