import BracketLisp.Numeral.Separator
import BracketLisp.Proofs.Text.Digit

/-!
# `BracketLisp.Proofs.Numeral.Separator`: where separators may stand

What a numeral opens with is taken off its front: a sign (`splitSign_append`) and a base mark
(`splitMark?_eq_some_iff`), together a base prefix (`splitMark?_splitSign_iff`). The separators
are then checked in one pass that remembers a single character. `separatorsOk_iff` finds that
this is a rule on the neighbours of each underscore: on its right stands a digit, and on its
left a digit or the base prefix (`WellSeparated`). `separators_by_place` says the same by the
places of the underscores, with the sign and the prefix described by themselves (`Opening`).
-/

set_option autoImplicit false

namespace BracketLisp.Numeral

open Text

/-! ### Signs -/

/-- Whether characters are an optional sign, which is a minus if `negative`. -/
inductive IsSign : List Char → Bool → Prop
  | none : IsSign [] false
  | plus : IsSign ['+'] false
  | minus : IsSign ['-'] true

/-- Whether no sign stands in front of the text. -/
def Unsigned (text : List Char) : Prop :=
  text.head? ≠ some '+' ∧ text.head? ≠ some '-'

instance (text : List Char) : Decidable (Unsigned text) :=
  inferInstanceAs (Decidable (_ ∧ _))

theorem unsigned_cons {c : Char} (hplus : c ≠ '+') (hminus : c ≠ '-') (rest : List Char) :
    Unsigned (c :: rest) :=
  ⟨by simpa using hplus, by simpa using hminus⟩

/-- A sign is taken off an unsigned text. -/
theorem splitSign_append {sign rest : List Char} {negative : Bool} (hsign : IsSign sign negative)
    (hrest : Unsigned rest) : splitSign (sign ++ rest) = (negative, rest) := by
  cases hsign with
  | none =>
    obtain ⟨hplus, hminus⟩ := hrest
    rw [List.nil_append]
    unfold splitSign
    split
    · simp at hminus
    · simp at hplus
    · rfl
  | plus => rfl
  | minus => rfl

/-- What is taken off is an optional sign. If it is none, then no sign is left either. -/
theorem exists_sign (text : List Char) :
    ∃ sign, IsSign sign (splitSign text).1 ∧ text = sign ++ (splitSign text).2 ∧
      (sign = [] → Unsigned text) := by
  unfold splitSign
  split
  · exact ⟨['-'], .minus, rfl, nofun⟩
  · exact ⟨['+'], .plus, rfl, nofun⟩
  next hminus hplus =>
    refine ⟨[], .none, rfl, fun _ => ⟨fun hhead => ?_, fun hhead => ?_⟩⟩
    · obtain ⟨rest, rfl⟩ := List.head?_eq_some_iff.1 hhead
      exact hplus rest rfl
    · obtain ⟨rest, rfl⟩ := List.head?_eq_some_iff.1 hhead
      exact hminus rest rfl

/-! ### Base marks -/

/-- The letters that mark a base after a zero. -/
def baseLetters : List (Char × Nat) :=
  [('x', 16), ('X', 16), ('o', 8), ('O', 8), ('b', 2), ('B', 2)]

/-- Whether characters are the mark of a base. -/
def IsMark (mark : List Char) (base : Nat) : Prop :=
  ∃ letter, (letter, base) ∈ baseLetters ∧ mark = ['0', letter]

theorem markedBase?_eq_some_iff {c : Char} {base : Nat} :
    markedBase? c = some base ↔ (c, base) ∈ baseLetters := by
  constructor
  · intro h
    unfold markedBase? at h
    split at h <;> cases h <;> decide
  · have hall : ∀ pair ∈ baseLetters, markedBase? pair.1 = some pair.2 := by decide
    exact hall (c, base)

/-- A mark is taken off with its base. -/
theorem splitMark?_eq_some_iff {text rest : List Char} {base : Nat} :
    splitMark? text = some (base, rest) ↔ ∃ mark, IsMark mark base ∧ text = mark ++ rest := by
  constructor
  · intro h
    unfold splitMark? at h
    split at h
    next letter after =>
      obtain ⟨found, hfound, hpair⟩ := Option.map_eq_some_iff.1 h
      obtain ⟨rfl, rfl⟩ := Prod.mk.inj hpair
      exact ⟨['0', letter], ⟨letter, markedBase?_eq_some_iff.1 hfound, rfl⟩, rfl⟩
    next => cases h
  · rintro ⟨mark, ⟨letter, hletter, rfl⟩, rfl⟩
    simp [splitMark?, markedBase?_eq_some_iff.2 hletter]

/-- A mark is no sign. -/
theorem IsMark.unsigned {mark : List Char} {base : Nat} (h : IsMark mark base)
    (rest : List Char) : Unsigned (mark ++ rest) := by
  obtain ⟨letter, -, rfl⟩ := h
  exact unsigned_cons (by decide) (by decide) (letter :: rest)

/-- Whether characters are an optional sign and the mark of a base. -/
def BasePrefix (front : List Char) (base : Nat) : Prop :=
  ∃ sign negative mark, IsSign sign negative ∧ IsMark mark base ∧ front = sign ++ mark

/-- A base is found exactly where a base prefix opens the text. -/
theorem splitMark?_splitSign_iff {text rest : List Char} {base : Nat} :
    splitMark? (splitSign text).2 = some (base, rest) ↔
      ∃ front, BasePrefix front base ∧ text = front ++ rest := by
  rw [splitMark?_eq_some_iff]
  constructor
  · rintro ⟨mark, hmark, hunsigned⟩
    obtain ⟨sign, hsign, htext, -⟩ := exists_sign text
    refine ⟨sign ++ mark, ⟨sign, _, mark, hsign, hmark, rfl⟩, ?_⟩
    rw [List.append_assoc, ← hunsigned]
    exact htext
  · rintro ⟨front, ⟨sign, negative, mark, hsign, hmark, rfl⟩, rfl⟩
    rw [List.append_assoc, splitSign_append hsign (hmark.unsigned rest)]
    exact ⟨mark, hmark, rfl⟩

/-- A text has one base prefix at most. -/
theorem BasePrefix.unique {front front' rest rest' : List Char} {base base' : Nat}
    (h : BasePrefix front base) (h' : BasePrefix front' base')
    (heq : front ++ rest = front' ++ rest') : base = base' ∧ rest = rest' := by
  have hfirst : splitMark? (splitSign (front ++ rest)).2 = some (base, rest) :=
    splitMark?_splitSign_iff.2 ⟨front, h, rfl⟩
  rw [splitMark?_splitSign_iff.2 ⟨front', h', heq⟩, Option.some.injEq] at hfirst
  obtain ⟨rfl, rfl⟩ := Prod.mk.inj hfirst
  exact ⟨rfl, rfl⟩

/-- Neither a sign nor a mark is an underscore. -/
theorem IsSign.not_mem {sign : List Char} {negative : Bool} (h : IsSign sign negative) :
    '_' ∉ sign := by
  cases h <;> decide

theorem BasePrefix.not_mem {front : List Char} {base : Nat} (h : BasePrefix front base) :
    '_' ∉ front := by
  have hletters : ∀ pair ∈ baseLetters, pair.1 ≠ '_' := by decide
  obtain ⟨sign, negative, _, hsign, ⟨letter, hletter, rfl⟩, rfl⟩ := h
  have hne : letter ≠ '_' := hletters _ hletter
  simp [hsign.not_mem, hne.symm]

/-! ### One pass over the separators -/

/-- Whether a digit comes first. -/
def DigitAhead (digit : Char → Bool) (text : List Char) : Prop :=
  ∃ c ∈ text.head?, digit c = true

/-- Whether a digit stands right behind `before` and the characters `front`. -/
def DigitBehind (digit : Char → Bool) (before : Before) (front : List Char) : Prop :=
  match front.getLast? with
  | none => before = .digit
  | some c => digit c = true

/-- Whether each underscore stands between digits, where `before` is what stands before the
text. -/
def BetweenDigits (digit : Char → Bool) (before : Before) (text : List Char) : Prop :=
  ∀ front after, text = front ++ '_' :: after →
    DigitAhead digit after ∧ DigitBehind digit before front

/-- What is remembered of a character. -/
def Before.ofChar (digit : Char → Bool) (c : Char) : Before :=
  if digit c then .digit else if c = '_' then .separator else .other

/-- The character in front of a text is all that counts of what stands before it. -/
theorem digitBehind_cons {digit : Char → Bool} {before : Before} {c : Char} {front : List Char} :
    DigitBehind digit before (c :: front) ↔ DigitBehind digit (.ofChar digit c) front := by
  unfold DigitBehind
  rw [List.getLast?_cons]
  cases front.getLast? with
  | some d => simp
  | none =>
    simp only [Option.getD_none, Before.ofChar]
    split
    next hc => simp [hc]
    next hc => split <;> simp [hc]

theorem betweenDigits_cons {digit : Char → Bool} {before : Before} {c : Char}
    {rest : List Char} :
    BetweenDigits digit before (c :: rest) ↔
      (c = '_' → DigitAhead digit rest ∧ before = .digit) ∧
        BetweenDigits digit (.ofChar digit c) rest := by
  constructor
  · intro h
    refine ⟨?_, fun front after hrest => ?_⟩
    · rintro rfl
      exact h [] rest rfl
    · obtain ⟨hahead, hbehind⟩ := h (c :: front) after (by rw [hrest, List.cons_append])
      exact ⟨hahead, digitBehind_cons.1 hbehind⟩
  · rintro ⟨hfirst, hrest⟩ front after htext
    cases front with
    | nil =>
      obtain ⟨rfl, rfl⟩ := List.cons.inj htext
      exact hfirst rfl
    | cons d front =>
      obtain ⟨rfl, hafter⟩ := List.cons.inj htext
      obtain ⟨hahead, hbehind⟩ := hrest front after hafter
      exact ⟨hahead, digitBehind_cons.2 hbehind⟩

/-- One pass finds whether each underscore stands between digits. If the text stands behind an
underscore, a digit has to come first. -/
theorem separated_iff {digit : Char → Bool} (hdigit : digit '_' = false) {before : Before}
    {text : List Char} :
    separated digit before text = true ↔
      (before = .separator → DigitAhead digit text) ∧ BetweenDigits digit before text := by
  induction text generalizing before with
  | nil => simp [separated, DigitAhead, BetweenDigits]
  | cons c rest ih =>
    have hahead : DigitAhead digit (c :: rest) ↔ digit c = true := by simp [DigitAhead]
    rw [betweenDigits_cons, hahead, separated]
    by_cases hc : digit c = true
    · have hne : c ≠ '_' := by
        rintro rfl
        rw [hdigit] at hc
        cases hc
      simp [hc, hne, ih, Before.ofChar]
    · by_cases hunderscore : c = '_'
      · simp only [hunderscore, hdigit, Before.ofChar]
        cases before <;> simp [ih]
      · simp only [hc, hunderscore, Before.ofChar]
        cases before <;> simp [ih]

/-! ### The rule -/

/-- Whether `c` is one of the digits that separators may stand between in a text: a decimal one,
or after the prefix of base sixteen a hexadecimal one. -/
def SeparatorDigit (text : List Char) (c : Char) : Prop :=
  IsDigitIn 10 c ∨ IsDigitIn 16 c ∧ ∃ front rest, BasePrefix front 16 ∧ text = front ++ rest

/-- Whether each underscore has a digit on its right, and on its left a digit or the base
prefix. -/
def WellSeparated (text : List Char) : Prop :=
  ∀ before after, text = before ++ '_' :: after →
    (∃ c ∈ after.head?, SeparatorDigit text c) ∧
      ((∃ c ∈ before.getLast?, SeparatorDigit text c) ∨ ∃ base, BasePrefix before base)

/-- The digits of the pass are those of the rule. -/
theorem isSeparableDigit_iff {text : List Char} {base : Nat} {c : Char}
    (h : base = 16 ↔ ∃ front rest, BasePrefix front 16 ∧ text = front ++ rest) :
    isSeparableDigit base c = true ↔ SeparatorDigit text c := by
  unfold isSeparableDigit SeparatorDigit
  rw [← h]
  by_cases hbase : base = 16
  · rw [if_pos hbase, isDigit_iff (by omega)]
    exact ⟨fun hc => .inr ⟨hc, hbase⟩, fun hc => hc.elim (·.mono (by omega)) And.left⟩
  · rw [if_neg hbase, isDigit_iff (by omega)]
    exact ⟨.inl, fun hc => hc.elim id fun hc => absurd hc.2 hbase⟩

/-- The rule holds of a text if it holds behind what opens the text. -/
theorem wellSeparated_append {digit : Char → Bool} {before : Before} {front rest : List Char}
    (hdigit : ∀ c, digit c = true ↔ SeparatorDigit (front ++ rest) c) (hfront : '_' ∉ front)
    (hbefore : before = .digit ↔ (∃ c ∈ front.getLast?, SeparatorDigit (front ++ rest) c) ∨
      ∃ base, BasePrefix front base)
    (hinner : ∀ base inner after, rest = inner ++ after → BasePrefix (front ++ inner) base →
      inner = []) :
    BetweenDigits digit before rest ↔ WellSeparated (front ++ rest) := by
  have hbehind (inner after : List Char) (hrest : rest = inner ++ after) :
      DigitBehind digit before inner ↔
        (∃ c ∈ (front ++ inner).getLast?, SeparatorDigit (front ++ rest) c) ∨
          ∃ base, BasePrefix (front ++ inner) base := by
    cases hlast : inner.getLast? with
    | none =>
      obtain rfl := List.getLast?_eq_none_iff.1 hlast
      rw [List.append_nil]
      exact hbefore
    | some c =>
      have hnone : ¬ ∃ base, BasePrefix (front ++ inner) base := by
        rintro ⟨base, hopens⟩
        rw [hinner base inner after hrest hopens] at hlast
        cases hlast
      simp only [DigitBehind, hlast, List.getLast?_append, Option.some_or, Option.mem_def,
        Option.some.injEq, exists_eq_left', hnone, or_false, hdigit]
  have hahead (after : List Char) : DigitAhead digit after ↔
      ∃ c ∈ after.head?, SeparatorDigit (front ++ rest) c := by
    simp only [DigitAhead, hdigit]
  constructor
  · intro h outer after htext
    -- The underscore is none of those characters that open the text.
    obtain ⟨inner, rfl, hrest⟩ | ⟨inner, hcut, hafter⟩ := List.append_eq_append_iff.1 htext
    · obtain ⟨hright, hleft⟩ := h inner after hrest
      exact ⟨(hahead after).1 hright, (hbehind inner _ hrest).1 hleft⟩
    · cases inner with
      | nil =>
        rw [List.append_nil] at hcut
        subst hcut
        obtain ⟨hright, hleft⟩ := h [] after hafter.symm
        have hleft' := (hbehind [] rest rfl).1 hleft
        rw [List.append_nil] at hleft'
        exact ⟨(hahead after).1 hright, hleft'⟩
      | cons d inner =>
        obtain ⟨rfl, -⟩ := List.cons.inj hafter
        exact absurd (hcut ▸ List.mem_append_right _ (List.mem_cons_self ..)) hfront
  · intro h inner after hrest
    have htext : front ++ rest = (front ++ inner) ++ '_' :: after := by
      rw [hrest, List.append_assoc]
    obtain ⟨hright, hleft⟩ := h _ after htext
    exact ⟨(hahead after).2 hright, (hbehind inner _ hrest).2 hleft⟩

/-- The check of the separators is the rule on their neighbours. -/
theorem separatorsOk_iff (text : List Char) : separatorsOk text = true ↔ WellSeparated text := by
  have hunderscore : ∀ base, isSeparableDigit base '_' = false := by
    intro base
    unfold isSeparableDigit
    split <;> decide
  unfold separatorsOk
  dsimp only
  split
  next base rest hmark =>
    obtain ⟨front, hopens, rfl⟩ := splitMark?_splitSign_iff.1 hmark
    have hbase : base = 16 ↔ ∃ front' rest', BasePrefix front' 16 ∧
        front ++ rest = front' ++ rest' := by
      constructor
      · rintro rfl
        exact ⟨front, rest, hopens, rfl⟩
      · rintro ⟨front', rest', hopens', heq⟩
        exact (hopens.unique hopens' heq).1
    rw [separated_iff (hunderscore base)]
    simp only [reduceCtorEq, false_implies, true_and]
    refine wellSeparated_append (fun c => isSeparableDigit_iff hbase) hopens.not_mem
      ⟨fun _ => .inr ⟨base, hopens⟩, fun _ => rfl⟩ ?_
    -- What stands behind the prefix of the text is in none of its prefixes.
    rintro base' inner after rfl hopens'
    have heq : front ++ (inner ++ after) = front ++ inner ++ after := by rw [List.append_assoc]
    have hlength := congrArg List.length (hopens.unique hopens' heq).2
    rw [List.length_append] at hlength
    exact List.length_eq_zero_iff.1 (by omega)
  next hmark =>
    obtain ⟨sign, hsign, htext, -⟩ := exists_sign text
    generalize (splitSign text).1 = negative at hsign
    have hnone (base : Nat) (front rest : List Char) (hopens : BasePrefix front base) :
        text ≠ front ++ rest := by
      intro heq
      rw [splitMark?_splitSign_iff.2 ⟨front, hopens, heq⟩] at hmark
      cases hmark
    have hbase : 10 = 16 ↔ ∃ front rest, BasePrefix front 16 ∧ text = front ++ rest :=
      ⟨fun h => absurd h (by decide), fun ⟨front, rest, hopens, heq⟩ =>
        absurd heq (hnone 16 front rest hopens)⟩
    have hlast : ¬ ((∃ c ∈ sign.getLast?, SeparatorDigit text c) ∨
        ∃ base, BasePrefix sign base) := by
      rintro (⟨c, hc, hdigit⟩ | ⟨base, hopens⟩)
      · rw [← isSeparableDigit_iff hbase] at hdigit
        cases hsign <;> cases hc <;> exact absurd hdigit (by decide)
      · exact hnone base sign _ hopens htext
    rw [separated_iff (hunderscore 10)]
    simp only [reduceCtorEq, false_implies, true_and]
    generalize (splitSign text).2 = unsigned at htext
    subst htext
    refine wellSeparated_append (fun c => isSeparableDigit_iff hbase) hsign.not_mem
      ⟨nofun, fun h => absurd h hlast⟩ ?_
    rintro base inner after rfl hopens
    exact absurd (List.append_assoc ..).symm (hnone base _ after hopens)

/-- A numeral loses its separators if they stand where they may. -/
theorem withoutSeparators?_eq_some_iff {text plain : List Char} :
    withoutSeparators? text = some plain ↔
      WellSeparated text ∧ plain = text.filter (· != '_') := by
  unfold withoutSeparators?
  rw [← separatorsOk_iff]
  by_cases hmem : '_' ∈ text
  · cases separatorsOk text <;> simp [hmem, eq_comm]
  · have hsep : separatorsOk text = true := by
      rw [separatorsOk_iff]
      rintro before after rfl
      exact absurd (List.mem_append_right _ (List.mem_cons_self ..)) hmem
    simp [hsep, eq_comm]

/-! ### The rule by places -/

/-- Whether a text is an optional sign, an optional base mark and the rest. A sign that is there
is taken, and so is a mark behind it. The mark is one of `base?`, if there is one. -/
structure Opening (text sign mark : List Char) (base? : Option Nat) (rest : List Char) : Prop where
  eq : text = sign ++ (mark ++ rest)
  hasSign : sign = ['+'] ∨ sign = ['-'] ∨ sign = [] ∧ Unsigned text
  hasMark : (∃ base, base? = some base ∧ IsMark mark base) ∨
    base? = none ∧ mark = [] ∧ ∀ found base after, IsMark found base → rest ≠ found ++ after

/-- Whether the character at a place of the rest has a digit right behind it, and right before it a
digit or, at the first place, a mark. -/
def PlacedWell (digit : Char → Prop) (marked : Prop) (rest : List Char) (place : Nat) : Prop :=
  (∃ c, rest[place + 1]? = some c ∧ digit c) ∧
    match place with
    | 0 => marked
    | before + 1 => ∃ c, rest[before]? = some c ∧ digit c

/-- What opens a text is what is split off it. -/
theorem Opening.split {text sign mark rest : List Char} {base? : Option Nat}
    (h : Opening text sign mark base? rest) :
    (splitSign text).2 = mark ++ rest ∧ splitMark? (mark ++ rest) = base?.map (·, rest) := by
  obtain ⟨rfl, hsign, hmark⟩ := h
  constructor
  · rcases hsign with rfl | rfl | ⟨rfl, hunsigned⟩
    · rfl
    · rfl
    · rw [List.nil_append] at hunsigned ⊢
      exact congrArg Prod.snd (splitSign_append .none hunsigned)
  · rcases hmark with ⟨base, rfl, hmark⟩ | ⟨rfl, rfl, hnone⟩
    · exact splitMark?_eq_some_iff.2 ⟨mark, hmark, rfl⟩
    · rw [List.nil_append, Option.map_none, Option.eq_none_iff_forall_ne_some]
      rintro ⟨base, after⟩ hsome
      obtain ⟨found, hfound, heq⟩ := splitMark?_eq_some_iff.1 hsome
      exact hnone found base after hfound heq

/-- Any text opens in some way. -/
theorem exists_opening (text : List Char) :
    ∃ sign mark base? rest, Opening text sign mark base? rest := by
  obtain ⟨sign, hsign, htext, hunsigned⟩ := exists_sign text
  have hsign' : sign = ['+'] ∨ sign = ['-'] ∨ sign = [] ∧ Unsigned text := by
    generalize (splitSign text).1 = negative at hsign
    cases hsign with
    | none => exact .inr (.inr ⟨rfl, hunsigned rfl⟩)
    | plus => exact .inl rfl
    | minus => exact .inr (.inl rfl)
  cases hsplit : splitMark? (splitSign text).2 with
  | none =>
    refine ⟨sign, [], none, _, htext, hsign',
      .inr ⟨rfl, rfl, fun found base after hfound heq => ?_⟩⟩
    rw [splitMark?_eq_some_iff.2 ⟨found, hfound, heq⟩] at hsplit
    cases hsplit
  | some marked =>
    obtain ⟨base, rest⟩ := marked
    obtain ⟨mark, hmark, hunmarked⟩ := splitMark?_eq_some_iff.1 hsplit
    exact ⟨sign, mark, some base, rest, hunmarked ▸ htext, hsign', .inl ⟨base, rfl, hmark⟩⟩

/-- To stand between digits is a matter of the two neighbours of each underscore. -/
theorem betweenDigits_iff_places {digit : Char → Bool} {before : Before} {text : List Char} :
    BetweenDigits digit before text ↔ ∀ place, text[place]? = some '_' →
      PlacedWell (fun c => digit c = true) (before = .digit) text place := by
  induction text generalizing before with
  | nil => simp [BetweenDigits]
  | cons c rest ih =>
    have hahead : DigitAhead digit rest ↔ ∃ d, rest[0]? = some d ∧ digit d = true := by
      rw [DigitAhead, List.head?_eq_getElem?]
      rfl
    have hbehind : Before.ofChar digit c = .digit ↔ digit c = true := by
      unfold Before.ofChar
      split
      · simp_all
      · split <;> simp_all
    rw [betweenDigits_cons, ih, hahead]
    constructor
    · rintro ⟨hfirst, hrest⟩ (_ | place) hplace
      · exact hfirst (Option.some.inj hplace)
      · obtain ⟨hright, hleft⟩ := hrest place hplace
        refine ⟨hright, ?_⟩
        cases place with
        | zero => exact ⟨c, rfl, hbehind.1 hleft⟩
        | succ place => exact hleft
    · intro h
      refine ⟨fun hc => h 0 (congrArg some hc), fun place hplace => ?_⟩
      obtain ⟨hright, hleft⟩ := h (place + 1) hplace
      refine ⟨hright, ?_⟩
      cases place with
      | zero =>
        obtain ⟨d, hd, hdigit⟩ := hleft
        obtain rfl : c = d := Option.some.inj hd
        exact hbehind.2 hdigit
      | succ place => exact hleft

/-- The digits of the pass, behind what opens a text. -/
theorem isSeparableDigit_iff_base {base? : Option Nat} {c : Char} :
    isSeparableDigit (base?.getD 10) c = true ↔
      IsDigitIn 10 c ∨ base? = some 16 ∧ IsDigitIn 16 c := by
  unfold isSeparableDigit
  have hbase : base?.getD 10 = 16 ↔ base? = some 16 := by cases base? <;> simp
  by_cases hsixteen : base? = some 16
  · rw [if_pos (hbase.2 hsixteen), isDigit_iff (by omega)]
    exact ⟨fun hc => .inr ⟨hsixteen, hc⟩, fun hc => hc.elim (·.mono (by omega)) And.right⟩
  · rw [if_neg (mt hbase.1 hsixteen), isDigit_iff (by omega)]
    exact ⟨.inl, fun hc => hc.elim id fun hc => absurd hc.1 hsixteen⟩

/-- Take an optional sign and then an optional base mark off a text, which is always possible. The
check of the separators is then a rule on the places of the underscores in the rest: a digit has to
stand right behind each of them, and right before it a digit or, if it is the first character of the
rest, the mark. Letters are digits only behind the mark of base sixteen. -/
theorem separators_by_place (text : List Char) :
    (∃ sign mark base? rest, Opening text sign mark base? rest) ∧
    ∀ sign mark base? rest, Opening text sign mark base? rest →
      (separatorsOk text = true ↔ ∀ place, rest[place]? = some '_' →
        PlacedWell (fun c => IsDigitIn 10 c ∨ base? = some 16 ∧ IsDigitIn 16 c)
          (base?.isSome = true) rest place) := by
  refine ⟨exists_opening text, fun sign mark base? rest hopening => ?_⟩
  obtain ⟨hunsigned, hmarked⟩ := hopening.split
  have hcheck : separatorsOk text = separated (isSeparableDigit (base?.getD 10))
      (if base?.isSome then .digit else .start) rest := by
    rw [separatorsOk, hunsigned, hmarked]
    cases base? with
    | some base => rfl
    | none =>
      obtain ⟨-, rfl, -⟩ := hopening.hasMark.resolve_left nofun
      rfl
  have hunderscore : isSeparableDigit (base?.getD 10) '_' = false := by
    unfold isSeparableDigit
    split <;> decide
  rw [hcheck, separated_iff hunderscore, betweenDigits_iff_places]
  simp only [isSeparableDigit_iff_base]
  cases base? <;> simp

/-- Behind a sign and the mark of base sixteen the first underscore has the mark before it and a
letter behind it, and the second one has letters on both sides. A doubled underscore is none that
has a digit on its left. -/
theorem separators_by_place_hexadecimal :
    separatorsOk "-0X_f_A1".toList = true ∧ separatorsOk "1__0".toList = false := by
  have hmarked : Opening "-0X_f_A1".toList ['-'] ['0', 'X'] (some 16) "_f_A1".toList :=
    ⟨by decide, .inr (.inl rfl), .inl ⟨16, rfl, 'X', by decide, rfl⟩⟩
  have hplain : Opening "1__0".toList [] [] none "1__0".toList := by
    refine ⟨rfl, .inr (.inr ⟨rfl, by decide⟩), .inr ⟨rfl, rfl, ?_⟩⟩
    rintro _ base after ⟨letter, -, rfl⟩ heq
    exact absurd (List.cons.inj heq).1 (by decide)
  have hletter : IsDigitIn 16 'f' ∧ IsDigitIn 16 'A' := ⟨⟨15, by decide⟩, ⟨10, by decide⟩⟩
  constructor
  · refine ((separators_by_place _).2 _ _ _ _ hmarked).2 ?_
    rintro (_ | _ | _ | place) hplace
    · exact ⟨⟨'f', rfl, .inr ⟨rfl, hletter.1⟩⟩, rfl⟩
    · exact absurd hplace (by decide)
    · exact ⟨⟨'A', rfl, .inr ⟨rfl, hletter.2⟩⟩, 'f', rfl, .inr ⟨rfl, hletter.1⟩⟩
    · match place with
      | 0 | 1 => exact absurd hplace (by decide)
      | place + 2 => cases hplace
  · rw [Bool.eq_false_iff]
    intro hok
    obtain ⟨-, c, hc, hdigit⟩ := ((separators_by_place _).2 _ _ _ _ hplain).1 hok 2 rfl
    obtain rfl : '_' = c := Option.some.inj hc
    rcases hdigit with hdigit | ⟨hbase, -⟩
    · exact hdigit.ne (by decide) (by decide) rfl
    · cases hbase

end BracketLisp.Numeral
