import BracketLisp.Numeral.Integer
import Mathlib.Data.List.Basic

/-!
# `BracketLisp.Proofs.Numeral.Decimal`: integers written in base ten

An integer that is written in base ten reads as itself: `integer?_toString`. Nothing in its
written form makes it something else. It has no separator and no base mark, and no leading
zero (`eq_zero_of_head?_toDigits`), which would make it octal. The least integer has a
magnitude that is no 64-bit integer, which is why the sign goes to the magnitude before its
size is checked.
-/

set_option autoImplicit false

namespace BracketLisp.Numeral

open Text

/-! ### Digits -/

/-- A decimal digit has the value of its place behind zero. -/
theorem digitValue?_of_isDigit {c : Char} (h : c.isDigit = true) :
    digitValue? 10 c = some (c.toNat - '0'.toNat) := by
  obtain ⟨hlower, hupper⟩ := Char.isDigit_iff_toNat.1 h
  have hnine : '9'.toNat = '0'.toNat + 9 := rfl
  have hrange : '0' ≤ c ∧ c ≤ '9' := ⟨hlower, hupper⟩
  have hsmall : c.toNat - '0'.toNat < 10 := by omega
  rw [digitValue?, alphanumericValue?, if_pos hrange, Option.filter_some,
    if_pos (decide_eq_true hsmall)]

/-- Decimal digits add up to the number that they write. -/
theorem digitsFrom?_of_isDigit {digits : List Char} (h : ∀ c ∈ digits, c.isDigit = true)
    (value : Nat) : digitsFrom? 10 value digits = some (Nat.ofDigitChars 10 digits value) := by
  induction digits generalizing value with
  | nil => rfl
  | cons c rest ih =>
    rw [List.forall_mem_cons] at h
    rw [digitsFrom?, digitValue?_of_isDigit h.1, Nat.ofDigitChars_cons, Nat.mul_comm 10 value]
    exact ih h.2 _

theorem natural?_toDigits (n : Nat) : natural? 10 (Nat.toDigits 10 n) = some n := by
  have hdigits : ∀ c ∈ Nat.toDigits 10 n, c.isDigit = true := fun c hc =>
    Nat.isDigit_of_mem_toDigits (by omega) (by omega) hc
  have hempty : (Nat.toDigits 10 n).isEmpty = false :=
    List.isEmpty_eq_false_iff.2 Nat.toDigits_ne_nil
  rw [natural?, hempty, digitsFrom?_of_isDigit hdigits, Nat.ofDigitChars_ten_toDigits]
  rfl

/-- Only zero is written with a zero in front. -/
theorem eq_zero_of_head?_toDigits {n : Nat} (h : (Nat.toDigits 10 n).head? = some '0') :
    n = 0 := by
  induction n using Nat.strongRecOn with
  | ind n ih =>
    rw [Nat.toDigits_eq_if (by omega)] at h
    by_cases hsmall : n < 10
    · rw [if_pos hsmall] at h
      exact Nat.digitChar_eq_zero.1 (Option.some.inj h)
    · -- The first digit is that of the number without its last digit.
      rw [if_neg hsmall, List.head?_append_of_ne_nil _ Nat.toDigits_ne_nil] at h
      have hzero : n / 10 = 0 := ih (n / 10) (by omega) h
      omega

/-- The base of digits without a mark or a zero in front is ten. -/
theorem splitBase_toDigits (n : Nat) :
    splitBase (Nat.toDigits 10 n) = (10, Nat.toDigits 10 n) := by
  by_cases hzero : n = 0
  · subst hzero
    rfl
  · have hhead : (Nat.toDigits 10 n).head? ≠ some '0' := fun h =>
      hzero (eq_zero_of_head?_toDigits h)
    cases hdigits : Nat.toDigits 10 n with
    | nil => rfl
    | cons c rest =>
      have hc : c ≠ '0' := by simpa [hdigits] using hhead
      simp [splitBase, splitMark?, hc]

/-! ### Integers -/

/-- An integer is written as its sign and the digits of its magnitude. -/
theorem toList_toString_int (n : Int) :
    (toString n).toList = (if 0 ≤ n then [] else ['-']) ++ Nat.toDigits 10 n.natAbs := by
  rw [Int.toString_eq_repr, Int.repr_eq_if]
  by_cases hsign : 0 ≤ n
  · have habs : n.toNat = n.natAbs := by omega
    simp [hsign, habs]
  · have habs : (-n).toNat = n.natAbs := by omega
    simp [hsign, habs]

/-- Only digits and a sign occur in a written integer. -/
theorem minus_or_isDigit_of_mem {n : Int} {c : Char} (h : c ∈ (toString n).toList) :
    c = '-' ∨ c.isDigit = true := by
  rw [toList_toString_int, List.mem_append] at h
  rcases h with hsign | hdigit
  · split at hsign
    · cases hsign
    · exact .inl (List.mem_singleton.1 hsign)
  · exact .inr (Nat.isDigit_of_mem_toDigits (by omega) (by omega) hdigit)

/-- A written integer splits into its sign and its digits. -/
theorem splitSign_toString (n : Int) :
    splitSign (toString n).toList = (decide (n < 0), Nat.toDigits 10 n.natAbs) := by
  rw [toList_toString_int]
  by_cases hsign : 0 ≤ n
  · have hnegative : ¬ n < 0 := by omega
    rw [if_pos hsign, List.nil_append]
    cases hdigits : Nat.toDigits 10 n.natAbs with
    | nil => exact absurd hdigits Nat.toDigits_ne_nil
    | cons c rest =>
      have hdigit : c.isDigit = true :=
        Nat.isDigit_of_mem_toDigits (b := 10) (n := n.natAbs) (by omega) (by omega)
          (hdigits ▸ List.mem_cons_self ..)
      have hminus : c ≠ '-' := by
        rintro rfl
        exact absurd hdigit (by decide)
      have hplus : c ≠ '+' := by
        rintro rfl
        exact absurd hdigit (by decide)
      simp [splitSign, hminus, hplus, hnegative]
  · have hnegative : n < 0 := by omega
    rw [if_neg hsign]
    simp [splitSign, hnegative]

/-- A 64-bit integer written in base ten reads as itself. -/
theorem integer?_toString (value : Int64) :
    integer? (toString value.toInt).toList = some value := by
  have hunderscore : '_' ∉ (toString value.toInt).toList := by
    intro hmem
    rcases minus_or_isDigit_of_mem hmem with h | h
    · cases h
    · exact absurd h (by decide)
  have hplain : withoutSeparators? (toString value.toInt).toList =
      some (toString value.toInt).toList := by
    have hfilter : (toString value.toInt).toList.filter (· != '_') =
        (toString value.toInt).toList := by
      refine List.filter_eq_self.2 fun c hc => bne_iff_ne.2 ?_
      rintro rfl
      exact hunderscore hc
    rw [withoutSeparators?, if_neg fun h => hunderscore h.1, hfilter]
  have hsigned : (if decide (value.toInt < 0) = true then -(value.toInt.natAbs : Int)
      else (value.toInt.natAbs : Int)) = value.toInt := by
    by_cases hnegative : value.toInt < 0
    · rw [if_pos (decide_eq_true hnegative)]
      omega
    · rw [if_neg (by simpa using hnegative)]
      omega
  rw [integer?, hplain, Option.bind_some, plainInteger?_eq_bind, splitSign_toString]
  simp only [splitBase_toDigits, natural?_toDigits, Option.bind_some, hsigned,
    Integer.ofInt?_toInt]

end BracketLisp.Numeral
