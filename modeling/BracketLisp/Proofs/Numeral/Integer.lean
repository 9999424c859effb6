import BracketLisp.Proofs.Numeral.Decimal
import BracketLisp.Proofs.Numeral.Separator
import Mathlib.Data.List.Forall2
import Mathlib.Data.Nat.Digits.Defs

/-!
# `BracketLisp.Proofs.Numeral.Integer`: the grammar of integers

An integer without separators is an optional sign in front of a magnitude (`IntegerNumeral`). A
magnitude is digits behind a base mark, octal digits behind a zero, or decimal digits that do not
open with a zero (`Magnitude`). What the digits write is the sum of their values by place
(`Writes`).

* `natural?_eq_some_iff`, `magnitude_iff` and `integer?_eq_some_iff` find that the digits, the
  magnitudes and the integers that are read are these, with these values.
* `integer?_opposite` turns the sign around.
* `integer_reads_numerals` puts together what is said of integers.
-/

set_option autoImplicit false

namespace BracketLisp.Numeral

open Text

/-! ### Digits -/

/-- Whether one or more digits of a base write the number `n`. -/
def Writes (base : Nat) (digits : List Char) (n : Nat) : Prop :=
  digits ≠ [] ∧ ∃ values, List.Forall₂ (IsDigitOf base) digits values ∧
    n = Nat.ofDigits base values.reverse

/-- Reading digits adds them to the number that has been read, one place further each. -/
theorem digitsFrom?_eq_some_iff {base : Nat} (hbase : base ≤ 16) {digits : List Char}
    {value n : Nat} :
    digitsFrom? base value digits = some n ↔
      ∃ values, List.Forall₂ (IsDigitOf base) digits values ∧
        n = values.foldl (fun value digit => digit + base * value) value := by
  induction digits generalizing value with
  | nil =>
    rw [digitsFrom?, Option.some.injEq]
    constructor
    · rintro rfl
      exact ⟨[], .nil, rfl⟩
    · rintro ⟨_, ⟨⟩, rfl⟩
      rfl
  | cons c rest ih =>
    rw [digitsFrom?]
    constructor
    · intro h
      split at h
      next digit hdigit =>
        obtain ⟨values, hvalues, rfl⟩ := ih.1 h
        refine ⟨digit :: values, .cons ((digitValue?_eq_some_iff hbase).1 hdigit) hvalues, ?_⟩
        rw [List.foldl_cons, Nat.mul_comm, Nat.add_comm]
      next => cases h
    · rintro ⟨_, hvalues, rfl⟩
      cases hvalues with
      | @cons _ digit _ values hdigit hvalues =>
        rw [(digitValue?_eq_some_iff hbase).2 hdigit]
        refine ih.2 ⟨values, hvalues, ?_⟩
        rw [List.foldl_cons, Nat.mul_comm base, Nat.add_comm]

/-- What digits are read as is what they write. -/
theorem natural?_eq_some_iff {base : Nat} (hbase : base ≤ 16) {digits : List Char} {n : Nat} :
    natural? base digits = some n ↔ Writes base digits n := by
  have hplaces (values : List Nat) : Nat.ofDigits base values.reverse =
      values.foldl (fun value digit => digit + base * value) 0 := by
    rw [Nat.ofDigits_eq_foldr, List.foldr_reverse]
    rfl
  unfold natural? Writes
  cases digits with
  | nil => simp
  | cons c rest =>
    rw [List.isEmpty_cons, if_neg (by decide), digitsFrom?_eq_some_iff hbase]
    simp only [hplaces, ne_eq, reduceCtorEq, not_false_eq_true, true_and]

/-- Any digits write a number. -/
theorem exists_writes_iff {base : Nat} {digits : List Char} :
    (∃ n, Writes base digits n) ↔ digits ≠ [] ∧ ∀ c ∈ digits, IsDigitIn base c := by
  have hvalues : (∃ values, List.Forall₂ (IsDigitOf base) digits values) ↔
      ∀ c ∈ digits, IsDigitIn base c := by
    induction digits with
    | nil => exact ⟨fun _ => List.forall_mem_nil _, fun _ => ⟨[], .nil⟩⟩
    | cons c rest ih =>
      rw [List.forall_mem_cons, ← ih]
      constructor
      · rintro ⟨_, hall⟩
        cases hall with
        | cons hdigit hvalues => exact ⟨⟨_, hdigit⟩, _, hvalues⟩
      · rintro ⟨⟨value, hdigit⟩, values, hvalues⟩
        exact ⟨value :: values, .cons hdigit hvalues⟩
  rw [← hvalues]
  constructor
  · rintro ⟨n, hne, values, hdigits, -⟩
    exact ⟨hne, values, hdigits⟩
  · rintro ⟨hne, values, hdigits⟩
    exact ⟨_, hne, values, hdigits, rfl⟩

/-- The first of the digits that write a number. -/
theorem Writes.head {base : Nat} {digits : List Char} {n : Nat} (h : Writes base digits n) :
    ∃ c rest, digits = c :: rest ∧ IsDigitIn base c := by
  obtain ⟨hne, hdigits⟩ := exists_writes_iff.1 ⟨n, h⟩
  cases digits with
  | nil => exact absurd rfl hne
  | cons c rest => exact ⟨c, rest, rfl, hdigits c (List.mem_cons_self ..)⟩

/-- No sign stands in front of digits. -/
theorem Writes.unsigned {base : Nat} (hbase : base ≤ 16) {digits : List Char} {n : Nat}
    (h : Writes base digits n) : Unsigned digits := by
  obtain ⟨c, rest, rfl, hdigit⟩ := h.head
  exact unsigned_cons (hdigit.ne hbase (by decide)) (hdigit.ne hbase (by decide)) rest

/-! ### Magnitudes -/

/-- Whether an unsigned text is a numeral for `n`. -/
inductive Magnitude : List Char → Nat → Prop
  /-- A base mark and digits of the base. -/
  | marked {mark digits : List Char} {base n : Nat} (hmark : IsMark mark base)
      (hdigits : Writes base digits n) : Magnitude (mark ++ digits) n
  /-- A zero and octal digits. -/
  | octal {digits : List Char} {n : Nat} (hdigits : Writes 8 digits n) :
      Magnitude ('0' :: digits) n
  /-- Decimal digits, zero alone or without a zero in front. -/
  | decimal {digits : List Char} {n : Nat} (hhead : digits = ['0'] ∨ digits.head? ≠ some '0')
      (hdigits : Writes 10 digits n) : Magnitude digits n

theorem IsMark.base_le {mark : List Char} {base : Nat} (h : IsMark mark base) : base ≤ 16 := by
  have hall : ∀ pair ∈ baseLetters, pair.2 ≤ 16 := by decide
  obtain ⟨letter, hletter, -⟩ := h
  exact hall _ hletter

/-- No mark goes on with a decimal digit. -/
theorem splitMark?_of_isDigitIn {c : Char} (h : IsDigitIn 10 c) (rest : List Char) :
    splitMark? ('0' :: c :: rest) = none := by
  have hletters : ∀ pair ∈ baseLetters, isDigit 10 pair.1 = false := by decide
  rw [Option.eq_none_iff_forall_ne_some]
  rintro ⟨base, after⟩ hmark
  obtain ⟨mark, ⟨letter, hletter, rfl⟩, heq⟩ := splitMark?_eq_some_iff.1 hmark
  obtain ⟨-, rfl, -⟩ : '0' = '0' ∧ c = letter ∧ rest = after := by simpa using heq
  have hdigit := (isDigit_iff (by omega)).2 h
  rw [hletters _ hletter] at hdigit
  cases hdigit

/-- No mark opens with anything but a zero. -/
theorem splitMark?_of_head? {text : List Char} (h : text.head? ≠ some '0') :
    splitMark? text = none := by
  unfold splitMark?
  split
  · simp at h
  · rfl

theorem splitBase_marked {mark : List Char} {base : Nat} (h : IsMark mark base)
    (digits : List Char) : splitBase (mark ++ digits) = (base, digits) := by
  unfold splitBase
  rw [splitMark?_eq_some_iff.2 ⟨mark, h, rfl⟩]

theorem splitBase_octal {c : Char} {rest : List Char}
    (h : splitMark? ('0' :: c :: rest) = none) :
    splitBase ('0' :: c :: rest) = (8, c :: rest) := by
  unfold splitBase
  rw [h]
  rfl

theorem splitBase_decimal {text : List Char} (h : text = ['0'] ∨ text.head? ≠ some '0') :
    splitBase text = (10, text) := by
  rcases h with rfl | hhead
  · rfl
  · unfold splitBase
    rw [splitMark?_of_head? hhead]
    split
    next heq => cases heq
    next heq => simp at hhead
    next => rfl

/-- The digits that a magnitude is read from, in their base, write it. -/
theorem magnitude_iff {text : List Char} {n : Nat} :
    natural? (splitBase text).1 (splitBase text).2 = some n ↔ Magnitude text n := by
  constructor
  · intro h
    cases hmark : splitMark? text with
    | some marked =>
      obtain ⟨mark, hbase, rfl⟩ := splitMark?_eq_some_iff.1 hmark
      rw [splitBase_marked hbase] at h
      exact .marked hbase ((natural?_eq_some_iff hbase.base_le).1 h)
    | none =>
      by_cases hdecimal : text = ['0'] ∨ text.head? ≠ some '0'
      · rw [splitBase_decimal hdecimal] at h
        exact .decimal hdecimal ((natural?_eq_some_iff (by omega)).1 h)
      · -- A zero and more, and no mark.
        rw [not_or, not_not] at hdecimal
        obtain ⟨digits, rfl⟩ := List.head?_eq_some_iff.1 hdecimal.2
        cases digits with
        | nil => exact absurd rfl hdecimal.1
        | cons c rest =>
          rw [splitBase_octal hmark] at h
          exact .octal ((natural?_eq_some_iff (by omega)).1 h)
  · intro h
    cases h with
    | marked hmark hdigits =>
      rw [splitBase_marked hmark]
      exact (natural?_eq_some_iff hmark.base_le).2 hdigits
    | octal hdigits =>
      obtain ⟨c, rest, rfl, hc⟩ := hdigits.head
      rw [splitBase_octal (splitMark?_of_isDigitIn (hc.mono (by omega)) rest)]
      exact (natural?_eq_some_iff (by omega)).2 hdigits
    | decimal hhead hdigits =>
      rw [splitBase_decimal hhead]
      exact (natural?_eq_some_iff (by omega)).2 hdigits

/-- A magnitude has no sign of its own. -/
theorem Magnitude.unsigned {text : List Char} {n : Nat} (h : Magnitude text n) :
    Unsigned text := by
  cases h with
  | marked hmark _ => exact hmark.unsigned _
  | octal _ => exact unsigned_cons (by decide) (by decide) _
  | decimal _ hdigits => exact hdigits.unsigned (by omega)

/-! ### Integers -/

/-- A number with a sign in front. -/
def withSign (negative : Bool) (n : Nat) : Int :=
  if negative then -(n : Int) else n

/-- Whether a text without separators is a numeral for the integer `n`, of whatever size. -/
def IntegerNumeral (text : List Char) (n : Int) : Prop :=
  ∃ sign negative unsigned magnitude, IsSign sign negative ∧ Magnitude unsigned magnitude ∧
    text = sign ++ unsigned ∧ n = withSign negative magnitude

theorem plainInteger?_eq_some_iff {text : List Char} {word : Int64} :
    plainInteger? text = some word ↔ IntegerNumeral text word.toInt := by
  rw [plainInteger?_eq_bind, Option.bind_eq_some_iff]
  constructor
  · rintro ⟨magnitude, hmagnitude, hword⟩
    obtain ⟨sign, hsign, htext, -⟩ := exists_sign text
    exact ⟨sign, _, _, magnitude, hsign, magnitude_iff.1 hmagnitude, htext,
      Integer.ofInt?_eq_some_iff.1 hword⟩
  · rintro ⟨sign, negative, unsigned, magnitude, hsign, hmagnitude, rfl, hvalue⟩
    rw [splitSign_append hsign hmagnitude.unsigned]
    exact ⟨magnitude, magnitude_iff.2 hmagnitude, Integer.ofInt?_eq_some_iff.2 hvalue⟩

/-- A numeral stands for one integer. -/
theorem IntegerNumeral.unique {text : List Char} {n n' : Int} (h : IntegerNumeral text n)
    (h' : IntegerNumeral text n') : n = n' := by
  obtain ⟨sign, negative, unsigned, magnitude, hsign, hmagnitude, rfl, rfl⟩ := h
  obtain ⟨sign', negative', unsigned', magnitude', hsign', hmagnitude', heq, rfl⟩ := h'
  have hsplit := splitSign_append hsign hmagnitude.unsigned
  rw [heq, splitSign_append hsign' hmagnitude'.unsigned] at hsplit
  obtain ⟨rfl, rfl⟩ := Prod.mk.inj hsplit
  have hread := magnitude_iff.2 hmagnitude
  rw [magnitude_iff.2 hmagnitude', Option.some.injEq] at hread
  rw [hread]

/-- What is read as a word is a numeral for its integer, with its separators in place. -/
theorem integer?_eq_some_iff {text : List Char} {word : Int64} :
    integer? text = some word ↔
      WellSeparated text ∧ IntegerNumeral (text.filter (· != '_')) word.toInt := by
  rw [integer?, Option.bind_eq_some_iff]
  simp only [withoutSeparators?_eq_some_iff, plainInteger?_eq_some_iff]
  constructor
  · rintro ⟨_, ⟨hseparated, rfl⟩, hnumeral⟩
    exact ⟨hseparated, hnumeral⟩
  · rintro ⟨hseparated, hnumeral⟩
    exact ⟨_, ⟨hseparated, rfl⟩, hnumeral⟩

/-- Whether a text, separators included, is a numeral for an integer of 64 bits. -/
def IsInteger (text : List Char) : Prop :=
  WellSeparated text ∧ ∃ n, IntegerNumeral (text.filter (· != '_')) n ∧
    -0x8000000000000000 ≤ n ∧ n ≤ 0x7fffffffffffffff

/-- The numerals for integers of 64 bits are read. -/
theorem exists_integer?_iff {text : List Char} :
    (∃ word, integer? text = some word) ↔ IsInteger text := by
  simp only [integer?_eq_some_iff]
  constructor
  · rintro ⟨word, hseparated, hnumeral⟩
    obtain ⟨hlower, hupper⟩ := Integer.fits_toInt word
    exact ⟨hseparated, word.toInt, hnumeral, hlower, hupper⟩
  · rintro ⟨hseparated, n, hnumeral, hlower, hupper⟩
    have hvalue : (Int64.ofInt n).toInt = n :=
      Int64.toInt_ofInt_of_le hlower (Int.lt_add_one_of_le hupper)
    exact ⟨Int64.ofInt n, hseparated, hvalue.symm ▸ hnumeral⟩

/-! ### Opposite signs -/

/-- Whether two texts only differ in their signs, one of which is a minus. -/
def Opposite (text other : List Char) : Prop :=
  ∃ sign sign' negative rest, IsSign sign negative ∧ IsSign sign' !negative ∧ Unsigned rest ∧
    text = sign ++ rest ∧ other = sign' ++ rest

/-- A sign has no part in the places of separators. -/
theorem Opposite.wellSeparated {text other : List Char} (h : Opposite text other)
    (hseparated : WellSeparated text) : WellSeparated other := by
  obtain ⟨sign, sign', negative, rest, hsign, hsign', hrest, rfl, rfl⟩ := h
  rw [← separatorsOk_iff, separatorsOk, splitSign_append hsign hrest] at hseparated
  rw [← separatorsOk_iff, separatorsOk, splitSign_append hsign' hrest]
  exact hseparated

/-- No separator comes first behind a sign. -/
theorem WellSeparated.head {sign rest : List Char} {negative : Bool} (hsign : IsSign sign negative)
    (hrest : Unsigned rest) (h : WellSeparated (sign ++ rest)) : rest.head? ≠ some '_' := by
  intro hhead
  obtain ⟨after, rfl⟩ := List.head?_eq_some_iff.1 hhead
  rw [← separatorsOk_iff, separatorsOk, splitSign_append hsign hrest] at h
  simp only [splitMark?_of_head? (show ('_' :: after).head? ≠ some '0' by simp), separated] at h
  exact absurd h (by simp [isSeparableDigit, isDigit, digitValue?, alphanumericValue?])

theorem IntegerNumeral.opposite {text other : List Char} (h : Opposite text other)
    (hseparated : WellSeparated text) {n : Int}
    (hnumeral : IntegerNumeral (text.filter (· != '_')) n) :
    IntegerNumeral (other.filter (· != '_')) (-n) := by
  obtain ⟨sign, sign', negative, rest, hsign, hsign', hrest, rfl, rfl⟩ := h
  have hfirst := WellSeparated.head hsign hrest hseparated
  have hfilter {sign : List Char} {negative : Bool} (hsign : IsSign sign negative) :
      (sign ++ rest).filter (· != '_') = sign ++ rest.filter (· != '_') := by
    cases hsign <;> simp
  -- Without separators the rest still has no sign in front.
  have hplain : Unsigned (rest.filter (· != '_')) := by
    cases rest with
    | nil => exact hrest
    | cons c rest =>
      have hc : c ≠ '_' := by simpa using hfirst
      rw [List.filter_cons_of_pos (by simpa using hc)]
      exact hrest
  rw [hfilter hsign] at hnumeral
  obtain ⟨sign₁, negative₁, unsigned, magnitude, hsign₁, hmagnitude, heq, rfl⟩ := hnumeral
  have hsplit := splitSign_append hsign hplain
  rw [heq, splitSign_append hsign₁ hmagnitude.unsigned] at hsplit
  obtain ⟨rfl, rfl⟩ := Prod.mk.inj hsplit
  refine ⟨sign', _, _, magnitude, hsign', hmagnitude, hfilter hsign', ?_⟩
  cases negative₁ <;> simp [withSign]

/-- The opposite of a numeral is read as the opposite integer, if that fits. -/
theorem integer?_opposite {text other : List Char} (h : Opposite text other) {word : Int64}
    (hword : integer? text = some word) (word' : Int64) :
    integer? other = some word' ↔ word'.toInt = -word.toInt := by
  obtain ⟨hseparated, hnumeral⟩ := integer?_eq_some_iff.1 hword
  have hnegated := hnumeral.opposite h hseparated
  rw [integer?_eq_some_iff]
  constructor
  · rintro ⟨-, hnumeral'⟩
    exact hnumeral'.unique hnegated
  · intro hvalue
    rw [hvalue]
    exact ⟨h.wellSeparated hseparated, hnegated⟩

/-- A text is read as an integer if its separators stand where they may and it is a numeral for
an integer of 64 bits without them, and then as this integer. What a word is written as in base
ten is read as the word. The opposite of a text is read as the opposite integer, if that fits. -/
theorem integer_reads_numerals :
    (∀ text (word : Int64), integer? text = some word ↔
      WellSeparated text ∧ ∃ n, IntegerNumeral (text.filter (· != '_')) n ∧
        -0x8000000000000000 ≤ n ∧ n ≤ 0x7fffffffffffffff ∧ word.toInt = n) ∧
    (∀ word : Int64, integer? (toString word.toInt).toList = some word) ∧
    (∀ text other word, Opposite text other → integer? text = some word →
      ∀ word', integer? other = some word' ↔ word'.toInt = -word.toInt) := by
  refine ⟨fun text word => ?_, integer?_toString, fun _ _ _ h => integer?_opposite h⟩
  rw [integer?_eq_some_iff]
  constructor
  · rintro ⟨hseparated, hnumeral⟩
    obtain ⟨hlower, hupper⟩ := Integer.fits_toInt word
    exact ⟨hseparated, word.toInt, hnumeral, hlower, hupper, rfl⟩
  · rintro ⟨hseparated, n, hnumeral, -, -, rfl⟩
    exact ⟨hseparated, hnumeral⟩

/-- The least integer has no opposite, so its numeral is none any more without the minus. A
separator behind the base mark is no hindrance. -/
theorem integer_reads_numerals_least :
    integer? "-0x_8000_0000_0000_0000".toList = some Int64.minValue ∧
      (∀ word, integer? "0x_8000_0000_0000_0000".toList ≠ some word) ∧
      integer? "+0x_7f".toList = some 127 ∧ integer? "-0x_7f".toList = some (-127) := by
  have hleast : integer? "-0x_8000_0000_0000_0000".toList = some Int64.minValue := by
    decide +kernel
  have hopposite : Opposite "-0x_8000_0000_0000_0000".toList "0x_8000_0000_0000_0000".toList :=
    ⟨['-'], [], true, "0x_8000_0000_0000_0000".toList, .minus, .none, by decide, by decide,
      by decide⟩
  have hbyte : integer? "+0x_7f".toList = some 127 := by decide +kernel
  have hopposite' : Opposite "+0x_7f".toList "-0x_7f".toList :=
    ⟨['+'], ['-'], false, "0x_7f".toList, .plus, .minus, by decide, by decide, by decide⟩
  refine ⟨hleast, fun word hword => ?_, hbyte, ?_⟩
  · have hvalue := (integer_reads_numerals.2.2 _ _ _ hopposite hleast word).1 hword
    have hbound := (Integer.fits_toInt word).2
    rw [hvalue] at hbound
    exact absurd hbound (by decide)
  · exact (integer_reads_numerals.2.2 _ _ _ hopposite' hbyte (-127)).2 (by decide)

end BracketLisp.Numeral
