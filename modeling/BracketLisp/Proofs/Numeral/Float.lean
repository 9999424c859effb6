import BracketLisp.Numeral.Float
import BracketLisp.Proofs.Numeral.Integer
import Mathlib.Data.List.TakeDrop
import Mathlib.Data.List.TakeWhile

/-!
# `BracketLisp.Proofs.Numeral.Float`: the grammar of floats

A float without separators is an optional sign in front of one of four forms (`UnsignedFloat`): a
hexadecimal one with its binary exponent, a word, or decimal digits with or without an exponent of
ten. In all but the words there are digits with an optional point among them (`Pointed`).

The reader cuts a text at the marks that it expects, and only then looks at the digits. As no
digit is a mark, this finds the forms of the grammar: `hexadecimal?_iff`, `decimal?_iff` and
`unsignedFloat_iff` say so of each form, and `float?_iff` of floats with separators.

Nothing is said of the value of a float.
-/

set_option autoImplicit false

namespace BracketLisp.Numeral

open Text

/-! ### Forms -/

/-- Whether a text is digits of a base with an optional point, and at least one digit. -/
def Pointed (base : Nat) (text : List Char) : Prop :=
  ∃ whole fraction, whole ++ fraction ≠ [] ∧ (∀ c ∈ whole ++ fraction, IsDigitIn base c) ∧
    (text = whole ++ '.' :: fraction ∨ text = whole ∧ fraction = [])

/-- Whether a text is a decimal number with an optional sign, for the integer `n`. -/
def SignedDecimal (text : List Char) (n : Int) : Prop :=
  ∃ sign negative digits magnitude, IsSign sign negative ∧ Writes 10 digits magnitude ∧
    text = sign ++ digits ∧ n = withSign negative magnitude

/-- Whether a text is a hexadecimal float behind its base mark. -/
def PointedHexadecimal (text : List Char) : Prop :=
  ∃ mantissa mark exponent n, Pointed 16 mantissa ∧ (mark = 'p' ∨ mark = 'P') ∧
    SignedDecimal exponent n ∧ -0x80000000 ≤ n ∧ n ≤ 0x7fffffff ∧
    text = mantissa ++ mark :: exponent

/-- Whether a text is an exponent of ten, or nothing. -/
def DecimalScale (text : List Char) : Prop :=
  text = [] ∨ ∃ mark exponent n, (mark = 'e' ∨ mark = 'E') ∧ SignedDecimal exponent n ∧
    text = mark :: exponent

/-- The words that are floats, in small letters. -/
def floatWords : List (List Char) :=
  ["inf".toList, "infinity".toList, "nan".toList]

/-- Whether an unsigned text without separators is a float. -/
inductive UnsignedFloat : List Char → Prop
  /-- A mark of base sixteen, digits with an optional point, and a binary exponent of 32 bits. -/
  | hexadecimal {letter : Char} {text : List Char} (hletter : letter = 'x' ∨ letter = 'X')
      (h : PointedHexadecimal text) : UnsignedFloat ('0' :: letter :: text)
  /-- A word, in letters of either case. -/
  | word {text : List Char} (h : text.map Char.toLower ∈ floatWords) : UnsignedFloat text
  /-- Decimal digits with an optional point, and an optional exponent. -/
  | decimal {mantissa scale : List Char} (hmantissa : Pointed 10 mantissa)
      (hscale : DecimalScale scale) : UnsignedFloat (mantissa ++ scale)

/-- Whether a text without separators is a float. -/
def FloatNumeral (text : List Char) : Prop :=
  ∃ sign negative unsigned, IsSign sign negative ∧ UnsignedFloat unsigned ∧
    text = sign ++ unsigned

/-! ### Cuts -/

/-- A text is cut behind the longest front that satisfies a test. -/
theorem span_eq_iff {test : Char → Bool} {text front rest : List Char} :
    text.span test = (front, rest) ↔ text = front ++ rest ∧ (∀ c ∈ front, test c = true) ∧
      ∀ c ∈ rest.head?, test c = false := by
  rw [List.span_eq_takeWhile_dropWhile, Prod.mk.injEq]
  constructor
  · rintro ⟨rfl, rfl⟩
    refine ⟨List.takeWhile_append_dropWhile.symm, fun c hc => List.mem_takeWhile_imp hc, ?_⟩
    intro c hc
    have hhead := List.head?_dropWhile_not test text
    rw [Option.mem_def.1 hc] at hhead
    simpa using hhead
  · rintro ⟨rfl, hfront, hrest⟩
    rw [List.takeWhile_append_of_pos hfront, List.dropWhile_append_of_pos hfront]
    cases rest with
    | nil => simp
    | cons c rest =>
      have hc := hrest c rfl
      simp [hc]

/-- A text is cut at its first mark. -/
theorem splitAtMark?_eq_some_iff {mark : Char → Bool} {text before after : List Char} :
    splitAtMark? mark text = some (before, after) ↔
      ∃ c, mark c = true ∧ text = before ++ c :: after ∧ ∀ d ∈ before, mark d = false := by
  unfold splitAtMark?
  constructor
  · intro h
    split at h
    next front c rest hspan =>
      obtain ⟨htext, hfront, hrest⟩ := span_eq_iff.1 hspan
      obtain ⟨rfl, rfl⟩ := Prod.mk.inj (Option.some.inj h)
      exact ⟨c, by simpa using hrest c rfl, htext, fun d hd => by simpa using hfront d hd⟩
    next => cases h
  · rintro ⟨c, hc, htext, hbefore⟩
    have hspan : text.span (fun d => !mark d) = (before, c :: after) :=
      span_eq_iff.2 ⟨htext, fun d hd => by simp [hbefore d hd], by simp [hc]⟩
    rw [hspan]

/-- A text without a mark is not cut. -/
theorem splitAtMark?_eq_none_iff {mark : Char → Bool} {text : List Char} :
    splitAtMark? mark text = none ↔ ∀ c ∈ text, mark c = false := by
  constructor
  · intro h c hc
    by_contra hmark
    rw [Bool.not_eq_false] at hmark
    obtain ⟨c, hfind⟩ := Option.isSome_iff_exists.1 (List.find?_isSome.2 ⟨c, hc, hmark⟩)
    obtain ⟨hmark, before, after, rfl, hbefore⟩ := List.find?_eq_some_iff_append.1 hfind
    have hcut : splitAtMark? mark (before ++ c :: after) = some (before, after) :=
      splitAtMark?_eq_some_iff.2 ⟨c, hmark, rfl, fun d hd => by simpa using hbefore d hd⟩
    rw [h] at hcut
    cases hcut
  · intro h
    rw [Option.eq_none_iff_forall_ne_some]
    rintro ⟨before, after⟩ hcut
    obtain ⟨c, hc, rfl, -⟩ := splitAtMark?_eq_some_iff.1 hcut
    rw [h c (List.mem_append_right _ (List.mem_cons_self ..))] at hc
    cases hc

/-- A digit with a point among digits is none of the other characters. -/
theorem Pointed.digit_or_point {base : Nat} {text : List Char} (h : Pointed base text) :
    ∀ c ∈ text, IsDigitIn base c ∨ c = '.' := by
  obtain ⟨whole, fraction, -, hdigits, rfl | ⟨rfl, rfl⟩⟩ := h
  · intro c hc
    rw [List.mem_append, List.mem_cons] at hc
    rcases hc with hc | rfl | hc
    · exact .inl (hdigits c (List.mem_append_left _ hc))
    · exact .inr rfl
    · exact .inl (hdigits c (List.mem_append_right _ hc))
  · exact fun c hc => .inl (hdigits c (List.mem_append_left _ hc))

theorem Pointed.ne_nil {base : Nat} {text : List Char} (h : Pointed base text) : text ≠ [] := by
  obtain ⟨whole, fraction, hne, -, rfl | ⟨rfl, rfl⟩⟩ := h
  · simp
  · simpa using hne

/-! ### Exponents -/

theorem exponent?_eq_some_iff {text : List Char} {n : Int} :
    exponent? text = some n ↔ SignedDecimal text n := by
  have hread : exponent? text = some n ↔ ∃ magnitude,
      natural? 10 (splitSign text).2 = some magnitude ∧
        withSign (splitSign text).1 magnitude = n := by
    simp [exponent?, withSign, Option.bind_eq_some_iff]
  rw [hread]
  constructor
  · rintro ⟨magnitude, hmagnitude, rfl⟩
    obtain ⟨sign, hsign, htext, -⟩ := exists_sign text
    exact ⟨sign, _, _, magnitude, hsign, (natural?_eq_some_iff (by omega)).1 hmagnitude, htext,
      rfl⟩
  · rintro ⟨sign, negative, digits, magnitude, hsign, hdigits, rfl, rfl⟩
    rw [splitSign_append hsign (hdigits.unsigned (by omega))]
    exact ⟨magnitude, (natural?_eq_some_iff (by omega)).2 hdigits, rfl⟩

theorem binaryExponent?_eq_some_iff {text : List Char} {n : Int} :
    binaryExponent? text = some n ↔
      SignedDecimal text n ∧ -0x80000000 ≤ n ∧ n ≤ 0x7fffffff := by
  rw [binaryExponent?, Option.filter_eq_some_iff, exponent?_eq_some_iff, decide_eq_true_eq]
  rfl

/-- A decimal scale is read if it is one. -/
theorem decimalScale?_iff {text : List Char} :
    (∃ n, decimalScale? text = some n) ↔ DecimalScale text := by
  unfold decimalScale? DecimalScale
  cases text with
  | nil => simp
  | cons c rest =>
    by_cases hc : c = 'e' ∨ c = 'E'
    · simp only [if_pos hc, exponent?_eq_some_iff]
      constructor
      · rintro ⟨n, hn⟩
        exact .inr ⟨c, rest, n, hc, hn, rfl⟩
      · rintro (hnil | ⟨mark, exponent, n, -, hn, heq⟩)
        · cases hnil
        · obtain ⟨rfl, rfl⟩ := List.cons.inj heq
          exact ⟨n, hn⟩
    · simp only [if_neg hc]
      constructor
      · rintro ⟨n, ⟨⟩⟩
      · rintro (hnil | ⟨mark, exponent, n, hmark, -, heq⟩)
        · cases hnil
        · obtain ⟨rfl, rfl⟩ := List.cons.inj heq
          exact absurd hmark hc

/-! ### Hexadecimal form -/

/-- Digits add up to a float if all of them are digits. -/
theorem hexDigitsFrom?_iff {digits : List Char} {value : Float} :
    (∃ x, hexDigitsFrom? value digits = some x) ↔ ∀ c ∈ digits, IsDigitIn 16 c := by
  induction digits generalizing value with
  | nil => exact ⟨fun _ => List.forall_mem_nil _, fun _ => ⟨value, rfl⟩⟩
  | cons c rest ih =>
    rw [hexDigitsFrom?, List.forall_mem_cons]
    cases hdigit : digitValue? 16 c with
    | none =>
      have hnone := (digitValue?_eq_none_iff (Nat.le_refl 16)).1 hdigit
      simp [hnone]
    | some digit =>
      have hsome : IsDigitIn 16 c := ⟨digit, (digitValue?_eq_some_iff (Nat.le_refl 16)).1 hdigit⟩
      simp only [ih, hsome, true_and]

/-- A mantissa is cut at its point, if it has one. -/
theorem pointed_iff_split {base : Nat} (hbase : base ≤ 16) {text whole fraction : List Char}
    (h : (splitAtMark? (· = '.') text).getD (text, []) = (whole, fraction)) :
    Pointed base text ↔
      whole ++ fraction ≠ [] ∧ ∀ c ∈ whole ++ fraction, IsDigitIn base c := by
  constructor
  · rintro ⟨whole', fraction', hne, hdigits, htext⟩
    -- No digit is a point, so the cut is at the point of the grammar.
    have hwhole : ∀ c ∈ whole', decide (c = '.') = false := fun c hc =>
      decide_eq_false ((hdigits c (List.mem_append_left _ hc)).ne hbase (by decide))
    have hsplit : (splitAtMark? (· = '.') text).getD (text, []) = (whole', fraction') := by
      rcases htext with rfl | ⟨rfl, rfl⟩
      · rw [splitAtMark?_eq_some_iff.2 ⟨'.', by decide, rfl, hwhole⟩, Option.getD_some]
      · rw [splitAtMark?_eq_none_iff.2 hwhole, Option.getD_none]
    obtain ⟨rfl, rfl⟩ := Prod.mk.inj (h.symm.trans hsplit)
    exact ⟨hne, hdigits⟩
  · rintro ⟨hne, hdigits⟩
    refine ⟨whole, fraction, hne, hdigits, ?_⟩
    cases hsplit : splitAtMark? (· = '.') text with
    | none =>
      rw [hsplit, Option.getD_none] at h
      obtain ⟨rfl, rfl⟩ := Prod.mk.inj h
      exact .inr ⟨rfl, rfl⟩
    | some parts =>
      rw [hsplit, Option.getD_some] at h
      subst h
      obtain ⟨c, hc, htext, -⟩ := splitAtMark?_eq_some_iff.1 hsplit
      rw [of_decide_eq_true hc] at htext
      exact .inl htext

/-- No mark of an exponent stands in a hexadecimal mantissa. -/
theorem Pointed.no_mark {text : List Char} (h : Pointed 16 text) :
    ∀ c ∈ text, decide (c = 'p' ∨ c = 'P') = false := by
  intro c hc
  rcases h.digit_or_point c hc with hdigit | rfl
  · have hlower : c ≠ 'p' := hdigit.ne (Nat.le_refl 16) (by decide)
    have hupper : c ≠ 'P' := hdigit.ne (Nat.le_refl 16) (by decide)
    simp [hlower, hupper]
  · decide

/-- A text that is cut into a mantissa and an exponent is a hexadecimal float if these two are
parts of one. -/
theorem pointedHexadecimal_iff_split {text mantissa exponent : List Char}
    (h : splitAtMark? (fun c => c = 'p' ∨ c = 'P') text = some (mantissa, exponent)) :
    PointedHexadecimal text ↔
      Pointed 16 mantissa ∧ ∃ n, binaryExponent? exponent = some n := by
  simp only [binaryExponent?_eq_some_iff]
  constructor
  · rintro ⟨mantissa', mark, exponent', n, hmantissa, hmark, hexponent, hlower, hupper, htext⟩
    have hsplit := splitAtMark?_eq_some_iff.2
      ⟨mark, decide_eq_true hmark, htext, hmantissa.no_mark⟩
    rw [hsplit, Option.some.injEq] at h
    obtain ⟨rfl, rfl⟩ := Prod.mk.inj h
    exact ⟨hmantissa, n, hexponent, hlower, hupper⟩
  · rintro ⟨hmantissa, n, hexponent, hlower, hupper⟩
    obtain ⟨mark, hmark, htext, -⟩ := splitAtMark?_eq_some_iff.1 h
    exact ⟨mantissa, mark, exponent, n, hmantissa, of_decide_eq_true hmark, hexponent, hlower,
      hupper, htext⟩

/-- What a cut text is read as depends on its parts, as long as the binary places of its fraction
fit into 32 bits. -/
theorem hexadecimal?_of_split {text mantissa exponent whole fraction : List Char} {bits : Nat}
    (hmark : splitAtMark? (fun c => c = 'p' ∨ c = 'P') text = some (mantissa, exponent))
    (hpoint : (splitAtMark? (· = '.') mantissa).getD (mantissa, []) = (whole, fraction))
    (hbits : fractionBits? fraction = some bits) :
    (∃ x, hexadecimal? text = some x) ↔
      (whole ++ fraction ≠ [] ∧ ∃ value, hexDigitsFrom? 0.0 (whole ++ fraction) = some value) ∧
        ∃ n, binaryExponent? exponent = some n := by
  have hempty : whole.isEmpty ∧ fraction.isEmpty ↔ whole ++ fraction = [] := by
    rw [List.isEmpty_iff, List.isEmpty_iff, List.append_eq_nil_iff]
  simp only [hexadecimal?, hmark, hpoint, hempty]
  by_cases hnil : whole ++ fraction = []
  · simp [hnil]
  · simp only [if_neg hnil]
    cases hexDigitsFrom? 0.0 (whole ++ fraction) with
    | none => simp
    | some value =>
      cases binaryExponent? exponent with
      | none => simp
      | some n =>
        dsimp only
        -- A value of zero is read whatever the fraction, any other one if its places fit.
        cases value == 0.0 <;> simp [hbits, hnil]

/-- No cut makes a text longer. -/
theorem length_of_split {text mantissa exponent whole fraction : List Char}
    (hmark : splitAtMark? (fun c => c = 'p' ∨ c = 'P') text = some (mantissa, exponent))
    (hpoint : (splitAtMark? (· = '.') mantissa).getD (mantissa, []) = (whole, fraction)) :
    fraction.length ≤ text.length := by
  obtain ⟨c, -, rfl, -⟩ := splitAtMark?_eq_some_iff.1 hmark
  have hmantissa : fraction.length ≤ mantissa.length := by
    cases hsplit : splitAtMark? (· = '.') mantissa with
    | none =>
      rw [hsplit, Option.getD_none] at hpoint
      obtain ⟨-, rfl⟩ := Prod.mk.inj hpoint
      exact Nat.zero_le _
    | some parts =>
      rw [hsplit, Option.getD_some] at hpoint
      subst hpoint
      obtain ⟨d, -, rfl, -⟩ := splitAtMark?_eq_some_iff.1 hsplit
      rw [List.length_append, List.length_cons]
      omega
  rw [List.length_append]
  omega

/-- A hexadecimal float is read if it is one, as long as the binary places of any fraction fit into
32 bits. -/
theorem hexadecimal?_iff {text : List Char} (hlength : text.length < 0x20000000) :
    (∃ x, hexadecimal? text = some x) ↔ PointedHexadecimal text := by
  cases hmark : splitAtMark? (fun c => c = 'p' ∨ c = 'P') text with
  | none =>
    constructor
    · rintro ⟨x, hx⟩
      simp only [hexadecimal?, hmark, reduceCtorEq] at hx
    · rintro ⟨mantissa, mark, exponent, n, -, hp, -, -, -, rfl⟩
      have hnone := splitAtMark?_eq_none_iff.1 hmark mark (by simp)
      exact absurd hp (of_decide_eq_false hnone)
  | some parts =>
    obtain ⟨mantissa, exponent⟩ := parts
    obtain ⟨whole, fraction, hpoint⟩ :
        ∃ whole fraction, (splitAtMark? (· = '.') mantissa).getD (mantissa, []) =
          (whole, fraction) := ⟨_, _, rfl⟩
    have hbits : fractionBits? fraction = some (4 * fraction.length) := by
      have hle := length_of_split hmark hpoint
      have hmax : Int32.maxValue.toInt = 0x7fffffff := rfl
      rw [fractionBits?, if_pos (by omega)]
    rw [pointedHexadecimal_iff_split hmark, pointed_iff_split (Nat.le_refl 16) hpoint,
      hexadecimal?_of_split hmark hpoint hbits, hexDigitsFrom?_iff]

/-! ### Decimal form -/

/-- What follows a decimal mantissa neither goes on with its digits nor has a point. -/
theorem DecimalScale.head {text : List Char} (h : DecimalScale text) :
    ∀ c ∈ text.head?, isDigit 10 c = false ∧ c ≠ '.' := by
  rcases h with rfl | ⟨mark, exponent, n, hmark, -, rfl⟩
  · rintro c ⟨⟩
  · rintro c ⟨⟩
    rcases hmark with rfl | rfl <;> decide

/-- A mantissa is split off at its point, if it has one. -/
theorem splitPoint_append {whole fraction mantissa rest : List Char}
    (hdigits : ∀ c ∈ whole ++ fraction, IsDigitIn 10 c)
    (hmantissa : mantissa = whole ++ '.' :: fraction ∨ mantissa = whole ∧ fraction = [])
    (hrest : ∀ c ∈ rest.head?, isDigit 10 c = false ∧ c ≠ '.') :
    splitPoint (mantissa ++ rest) = (whole, fraction, rest) := by
  have hread : ∀ c ∈ whole ++ fraction, isDigit 10 c = true := fun c hc =>
    (isDigit_iff (by omega)).2 (hdigits c hc)
  have hwhole : ∀ c ∈ whole, isDigit 10 c = true := fun c hc =>
    hread c (List.mem_append_left _ hc)
  have hfraction : (fraction ++ rest).span (isDigit 10) = (fraction, rest) :=
    span_eq_iff.2 ⟨rfl, fun c hc => hread c (List.mem_append_right _ hc),
      fun c hc => (hrest c hc).1⟩
  unfold splitPoint
  rcases hmantissa with rfl | ⟨rfl, rfl⟩
  · have hspan : (whole ++ '.' :: fraction ++ rest).span (isDigit 10) =
        (whole, '.' :: (fraction ++ rest)) :=
      span_eq_iff.2 ⟨by rw [List.append_assoc, List.cons_append], hwhole, by simp; decide⟩
    simp only [hspan, hfraction]
  · have hspan : (mantissa ++ rest).span (isDigit 10) = (mantissa, rest) :=
      span_eq_iff.2 ⟨rfl, hwhole, fun c hc => (hrest c hc).1⟩
    simp only [hspan]
    split
    · simp at hrest
    · rfl

/-- The parts that a text is split into make up the text. -/
theorem exists_of_splitPoint {text whole fraction rest : List Char}
    (h : splitPoint text = (whole, fraction, rest)) :
    ∃ mantissa, text = mantissa ++ rest ∧
      (mantissa = whole ++ '.' :: fraction ∨ mantissa = whole ∧ fraction = []) := by
  unfold splitPoint at h
  cases hspan : text.span (isDigit 10) with
  | mk front after =>
    obtain ⟨rfl, -, -⟩ := span_eq_iff.1 hspan
    simp only [hspan] at h
    split at h
    next tail =>
      cases hfraction : tail.span (isDigit 10) with
      | mk digits others =>
        obtain ⟨rfl, -, -⟩ := span_eq_iff.1 hfraction
        simp only [hfraction, Prod.mk.injEq] at h
        obtain ⟨rfl, rfl, rfl⟩ := h
        exact ⟨front ++ '.' :: digits, by simp, .inl rfl⟩
    next =>
      simp only [Prod.mk.injEq] at h
      obtain ⟨rfl, rfl, rfl⟩ := h
      exact ⟨front, rfl, .inr ⟨rfl, rfl⟩⟩

/-- A decimal float is read if it is one. -/
theorem decimal?_iff {text : List Char} :
    (∃ x, decimal? text = some x) ↔
      ∃ mantissa scale, Pointed 10 mantissa ∧ DecimalScale scale ∧ text = mantissa ++ scale := by
  have hread {whole fraction rest : List Char} (h : splitPoint text = (whole, fraction, rest)) :
      (∃ x, decimal? text = some x) ↔
        (∃ n, Writes 10 (whole ++ fraction) n) ∧ DecimalScale rest := by
    simp only [decimal?, h, ← decimalScale?_iff, ← natural?_eq_some_iff (show 10 ≤ 16 by omega)]
    cases natural? 10 (whole ++ fraction) <;> cases decimalScale? rest <;> simp
  constructor
  · intro h
    obtain ⟨whole, fraction, rest, hsplit⟩ :
        ∃ whole fraction rest, splitPoint text = (whole, fraction, rest) := ⟨_, _, _, rfl⟩
    obtain ⟨hwrites, hscale⟩ := (hread hsplit).1 h
    obtain ⟨hne, hdigits⟩ := exists_writes_iff.1 hwrites
    obtain ⟨mantissa, htext, hmantissa⟩ := exists_of_splitPoint hsplit
    exact ⟨mantissa, rest, ⟨whole, fraction, hne, hdigits, hmantissa⟩, hscale, htext⟩
  · rintro ⟨mantissa, scale, ⟨whole, fraction, hne, hdigits, hmantissa⟩, hscale, rfl⟩
    rw [hread (splitPoint_append hdigits hmantissa hscale.head)]
    exact ⟨exists_writes_iff.2 ⟨hne, hdigits⟩, hscale⟩

/-- Words and decimal floats are read. -/
theorem unsignedFloat?_iff {text : List Char} :
    (∃ x, unsignedFloat? text = some x) ↔ text.map Char.toLower ∈ floatWords ∨
      ∃ mantissa scale, Pointed 10 mantissa ∧ DecimalScale scale ∧ text = mantissa ++ scale := by
  have hwords : text.map Char.toLower ∈ floatWords ↔
      (isWord "inf" text ∨ isWord "infinity" text) ∨ isWord "nan" text := by
    simp only [floatWords, isWord, beq_iff_eq, List.mem_cons, List.not_mem_nil, or_false,
      or_assoc]
  rw [hwords, ← decimal?_iff]
  unfold unsignedFloat?
  cases isWord "inf" text <;> cases isWord "infinity" text <;> cases isWord "nan" text <;> simp

/-! ### Floats -/

/-- What stands first in a word is a letter. -/
theorem head_of_floatWords {text : List Char} (h : text.map Char.toLower ∈ floatWords) :
    ∃ c rest, text = c :: rest ∧ c.toLower ∈ ['i', 'n'] := by
  cases text with
  | nil => exact absurd h (by decide)
  | cons c rest =>
    have hheads : ∀ word ∈ floatWords, word.head? = some 'i' ∨ word.head? = some 'n' := by decide
    have hhead := hheads _ h
    rw [List.map_cons, List.head?_cons, Option.some.injEq, Option.some.injEq] at hhead
    exact ⟨c, rest, rfl, by simpa using hhead⟩

/-- No mark of a base and no sign stands in front of a word. -/
theorem word_front {text : List Char} (h : text.map Char.toLower ∈ floatWords) :
    splitMark? text = none ∧ Unsigned text := by
  obtain ⟨c, rest, rfl, hc⟩ := head_of_floatWords h
  have hne (d : Char) (hd : d.toLower ∉ ['i', 'n']) : c ≠ d := by
    rintro rfl
    exact hd hc
  refine ⟨splitMark?_of_head? ?_, unsigned_cons (hne '+' (by decide)) (hne '-' (by decide)) rest⟩
  simpa using hne '0' (by decide)

/-- No sign stands in front of digits with a point among them. -/
theorem Pointed.unsigned {base : Nat} (hbase : base ≤ 16) {text : List Char}
    (h : Pointed base text) (rest : List Char) : Unsigned (text ++ rest) := by
  cases htext : text with
  | nil => exact absurd htext h.ne_nil
  | cons c tail =>
    rcases h.digit_or_point c (htext ▸ List.mem_cons_self ..) with hdigit | rfl
    · exact unsigned_cons (hdigit.ne hbase (by decide)) (hdigit.ne hbase (by decide)) _
    · exact unsigned_cons (by decide) (by decide) _

/-- A decimal float has no base mark: after a zero it goes on with a digit, a point or the mark of
an exponent. -/
theorem splitMark?_of_decimal {mantissa scale : List Char} (hmantissa : Pointed 10 mantissa)
    (hscale : DecimalScale scale) : splitMark? (mantissa ++ scale) = none := by
  have hletters : ∀ pair ∈ baseLetters,
      isDigit 10 pair.1 = false ∧ pair.1 ≠ '.' ∧ pair.1 ≠ 'e' ∧ pair.1 ≠ 'E' := by decide
  rw [Option.eq_none_iff_forall_ne_some]
  rintro ⟨base, rest⟩ hmark
  obtain ⟨mark, ⟨letter, hletter, rfl⟩, heq⟩ := splitMark?_eq_some_iff.1 hmark
  obtain ⟨hdigit, hpoint, hlower, hupper⟩ := hletters _ hletter
  match mantissa, hmantissa with
  | [], hmantissa => exact hmantissa.ne_nil rfl
  | [c], _ =>
    -- The letter would be the first character of the scale.
    obtain ⟨-, htail⟩ := List.cons.inj heq
    rcases hscale with rfl | ⟨mark, exponent, n, hscale, -, rfl⟩
    · cases htail
    · obtain ⟨rfl, -⟩ := List.cons.inj htail
      exact hscale.elim hlower hupper
  | c :: d :: tail, hmantissa =>
    obtain ⟨-, htail⟩ := List.cons.inj heq
    obtain ⟨rfl, -⟩ := List.cons.inj htail
    rcases hmantissa.digit_or_point d (by simp) with hd | hd
    · rw [(isDigit_iff (by omega)).2 hd] at hdigit
      cases hdigit
    · exact hpoint hd

theorem UnsignedFloat.unsigned {text : List Char} (h : UnsignedFloat text) : Unsigned text := by
  cases h with
  | hexadecimal _ _ => exact unsigned_cons (by decide) (by decide) _
  | word h => exact (word_front h).2
  | decimal hmantissa _ => exact hmantissa.unsigned (by omega) _

/-- The mark of base sixteen decides which forms a float can have. -/
theorem unsignedFloat_iff {text : List Char} :
    UnsignedFloat text ↔
      (∃ digits, splitMark? text = some (16, digits) ∧ PointedHexadecimal digits) ∨
        (∀ digits, splitMark? text ≠ some (16, digits)) ∧
          (text.map Char.toLower ∈ floatWords ∨
            ∃ mantissa scale, Pointed 10 mantissa ∧ DecimalScale scale ∧
              text = mantissa ++ scale) := by
  constructor
  · intro h
    cases h with
    | @hexadecimal letter digits hletter h =>
      have hmark : splitMark? ('0' :: letter :: digits) = some (16, digits) := by
        rcases hletter with rfl | rfl <;> rfl
      exact .inl ⟨digits, hmark, h⟩
    | word h => exact .inr ⟨fun _ => by simp [(word_front h).1], .inl h⟩
    | decimal hmantissa hscale =>
      exact .inr ⟨fun _ => by simp [splitMark?_of_decimal hmantissa hscale],
        .inr ⟨_, _, hmantissa, hscale, rfl⟩⟩
  · rintro (⟨digits, hmark, h⟩ | ⟨-, h | ⟨mantissa, scale, hmantissa, hscale, rfl⟩⟩)
    · have hsixteen : ∀ pair ∈ baseLetters, pair.2 = 16 → pair.1 = 'x' ∨ pair.1 = 'X' := by
        decide
      obtain ⟨mark, ⟨letter, hletter, rfl⟩, rfl⟩ := splitMark?_eq_some_iff.1 hmark
      exact .hexadecimal (hsixteen _ hletter rfl) h
    · exact .word h
    · exact .decimal hmantissa hscale

/-- A float without separators is read if it is one. -/
theorem plainFloat?_iff {text : List Char} (hlength : text.length < 0x20000000) :
    (∃ x, plainFloat? text = some x) ↔ FloatNumeral text := by
  have hread : (∃ x, plainFloat? text = some x) ↔ UnsignedFloat (splitSign text).2 := by
    rw [unsignedFloat_iff, ← unsignedFloat?_iff]
    unfold plainFloat?
    dsimp only
    split
    next digits hmark =>
      obtain ⟨front, -, htext⟩ := splitMark?_splitSign_iff.1 hmark
      have hshort : digits.length < 0x20000000 := by
        rw [htext, List.length_append] at hlength
        omega
      simp [hmark, hexadecimal?_iff hshort]
    next hmark =>
      have hnone : ∀ digits, splitMark? (splitSign text).2 ≠ some (16, digits) := hmark
      simp [hnone]
  rw [hread]
  constructor
  · intro h
    obtain ⟨sign, hsign, htext, -⟩ := exists_sign text
    exact ⟨sign, _, _, hsign, h, htext⟩
  · rintro ⟨sign, negative, unsigned, hsign, h, rfl⟩
    rw [splitSign_append hsign h.unsigned]
    exact h

/-- Whether a text, separators included, is a float. -/
def IsFloat (text : List Char) : Prop :=
  WellSeparated text ∧ FloatNumeral (text.filter (· != '_'))

/-- A float is read if its separators stand where they may and it is one without them. -/
theorem float?_iff {text : List Char} (hlength : text.length < 0x20000000) :
    (∃ x, float? text = some x) ↔ IsFloat text := by
  have hshort : (text.filter (· != '_')).length < 0x20000000 :=
    Nat.lt_of_le_of_lt (List.length_filter_le ..) hlength
  rw [IsFloat, ← plainFloat?_iff hshort]
  simp only [float?, Option.bind_eq_some_iff, withoutSeparators?_eq_some_iff]
  constructor
  · rintro ⟨x, _, ⟨hseparated, rfl⟩, hx⟩
    exact ⟨hseparated, x, hx⟩
  · rintro ⟨hseparated, x, hx⟩
    exact ⟨x, _, ⟨hseparated, rfl⟩, hx⟩

end BracketLisp.Numeral
