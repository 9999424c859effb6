import BracketLisp.Text.Digit
import Mathlib.Data.List.Basic

/-!
# `BracketLisp.Proofs.Text.Digit`: the digits up to base sixteen

Up to base sixteen the digits are the first characters of a row of ten figures and six letters,
and the place of a digit in the row is its value. `IsDigitOf` says so, and
`digitValue?_eq_some_iff` finds that these are the digits that are read. No literal or numeral
has a greater base.
-/

set_option autoImplicit false

namespace BracketLisp.Text

/-- The digits in the order of their values, with letters of either case. -/
def digitRows : List (List Char) :=
  ["0123456789abcdef".toList, "0123456789ABCDEF".toList]

/-- Whether `c` is the digit for `value` in a base of at most sixteen. -/
def IsDigitOf (base : Nat) (c : Char) (value : Nat) : Prop :=
  value < base ∧ ∃ row ∈ digitRows, row[value]? = some c

instance (base : Nat) (c : Char) (value : Nat) : Decidable (IsDigitOf base c value) :=
  inferInstanceAs (Decidable (_ ∧ _))

/-- Whether `c` is a digit of a base of at most sixteen. -/
def IsDigitIn (base : Nat) (c : Char) : Prop :=
  ∃ value, IsDigitOf base c value

/-- The digits of a base are digits of any greater base. -/
theorem IsDigitIn.mono {base greater : Nat} {c : Char} (h : IsDigitIn base c)
    (hle : base ≤ greater) : IsDigitIn greater c := by
  obtain ⟨value, hlt, hrow⟩ := h
  exact ⟨value, Nat.lt_of_lt_of_le hlt hle, hrow⟩

/-- A digit has its place in the row as its value. -/
theorem alphanumericValue?_of_row {row : List Char} (hrow : row ∈ digitRows) {c : Char}
    {value : Nat} (h : row[value]? = some c) : alphanumericValue? c = some value := by
  have hrows : ∀ row ∈ digitRows, row.length = 16 ∧
      ∀ value < 16, row[value]?.map alphanumericValue? = some (some value) := by decide
  obtain ⟨hlength, hvalues⟩ := hrows row hrow
  obtain ⟨hlt, -⟩ := List.getElem?_eq_some_iff.1 h
  have hvalue := hvalues value (hlength ▸ hlt)
  rwa [h, Option.map_some, Option.some.injEq] at hvalue

/-- A character whose value is below sixteen stands in its place in a row. -/
theorem row_of_alphanumericValue? {c : Char} {value : Nat}
    (h : alphanumericValue? c = some value) (hlt : value < 16) :
    ∃ row ∈ digitRows, row[value]? = some c := by
  have hdecimal : ∀ value < 10, ∃ row ∈ digitRows,
      row[value]? = some (Char.ofNat (value + 48)) := by decide
  have hlower : ∀ value < 16, 10 ≤ value → ∃ row ∈ digitRows,
      row[value]? = some (Char.ofNat (value + 87)) := by decide
  have hupper : ∀ value < 16, 10 ≤ value → ∃ row ∈ digitRows,
      row[value]? = some (Char.ofNat (value + 55)) := by decide
  -- A character is known once its code is.
  have hcode {code : Nat} (heq : c.toNat = code) : Char.ofNat code = c := by
    rw [← heq, Char.ofNat_toNat]
  unfold alphanumericValue? at h
  split at h
  next hrange =>
    have hbounds : 48 ≤ c.toNat ∧ c.toNat ≤ 57 := hrange
    have hvalue : c.toNat - 48 = value := Option.some.inj h
    have hrow := hdecimal value (by omega)
    rwa [hcode (by omega)] at hrow
  next =>
    split at h
    next hrange =>
      have hbounds : 97 ≤ c.toNat ∧ c.toNat ≤ 122 := hrange
      have hvalue : c.toNat - 97 + 10 = value := Option.some.inj h
      have hrow := hlower value hlt (by omega)
      rwa [hcode (by omega)] at hrow
    next =>
      split at h
      next hrange =>
        have hbounds : 65 ≤ c.toNat ∧ c.toNat ≤ 90 := hrange
        have hvalue : c.toNat - 65 + 10 = value := Option.some.inj h
        have hrow := hupper value hlt (by omega)
        rwa [hcode (by omega)] at hrow
      next => cases h

/-- Digits are read as their values. -/
theorem digitValue?_eq_some_iff {base : Nat} (hbase : base ≤ 16) {c : Char} {value : Nat} :
    digitValue? base c = some value ↔ IsDigitOf base c value := by
  rw [digitValue?, Option.filter_eq_some_iff, decide_eq_true_eq]
  constructor
  · rintro ⟨hvalue, hlt⟩
    exact ⟨hlt, row_of_alphanumericValue? hvalue (Nat.lt_of_lt_of_le hlt hbase)⟩
  · rintro ⟨hlt, row, hrow, hget⟩
    exact ⟨alphanumericValue?_of_row hrow hget, hlt⟩

/-- No other character is read as a digit. -/
theorem digitValue?_eq_none_iff {base : Nat} (hbase : base ≤ 16) {c : Char} :
    digitValue? base c = none ↔ ¬ IsDigitIn base c := by
  rw [Option.eq_none_iff_forall_ne_some, IsDigitIn, not_exists]
  exact forall_congr' fun value => not_congr (digitValue?_eq_some_iff hbase)

theorem isDigit_iff {base : Nat} (hbase : base ≤ 16) {c : Char} :
    isDigit base c = true ↔ IsDigitIn base c := by
  rw [isDigit, Option.isSome_iff_exists]
  exact exists_congr fun value => digitValue?_eq_some_iff hbase

/-- A digit is none of the characters that are no digits. -/
theorem IsDigitIn.ne {base : Nat} {c d : Char} (h : IsDigitIn base c) (hbase : base ≤ 16)
    (hd : isDigit 16 d = false) : c ≠ d := by
  rintro rfl
  have hdigit := (isDigit_iff (Nat.le_refl 16)).2 (h.mono hbase)
  rw [hd] at hdigit
  cases hdigit

end BracketLisp.Text
