import BracketLisp.Proofs.Text.Digit
import BracketLisp.Text.Literal

/-!
# `BracketLisp.Proofs.Text.Unit`: the grammar of literals

Between its quotes a literal is a row of units. A unit is a character that stands for itself,
or a backslash and what has to follow it. `IsUnit` lists the units and `Units` puts them in a
row. Behind an opening quote, such a row is closed, or a character spoils it, or it breaks off
at the end of the line.

The reader takes one character after the other and remembers only what the characters of the
current unit amount to. `Started` ties the two together.

* `Started.next` says what one more character does to a unit that has been started.
* `Started.leadsTo` reads the start of a unit, `IsUnit.read` a unit and `Units.read` a row.
* `read_closed`, `read_of_stuck` and `read_of_open` find the reading of whatever can stand
  behind an opening quote.
-/

set_option autoImplicit false

namespace BracketLisp.Text.Literal

/-! ### Units -/

/-- The letters that stand for control characters behind a backslash: for the bell, the
backspace, the form feed, the line feed, the carriage return and the two tabs. -/
def controlLetters : List (Char × Char) :=
  [('a', '\x07'), ('b', '\x08'), ('f', '\x0c'), ('n', '\n'), ('r', '\r'), ('t', '\t'),
    ('v', '\x0b')]

/-- The characters that stand for themselves behind a backslash. -/
def escapableSigns : List Char :=
  ['\\', '\x27', '"', '?']

/-- Whether characters are a unit, and which character they stand for. -/
inductive IsUnit : List Char → Char → Prop where
  | plain {c : Char} (hquote : c ≠ '"') (hbackslash : c ≠ '\\') : IsUnit [c] c
  | control {letter c : Char} (h : (letter, c) ∈ controlLetters) : IsUnit ['\\', letter] c
  | sign {c : Char} (h : c ∈ escapableSigns) : IsUnit ['\\', c] c
  /-- Three octal digits of the code. -/
  | octal {d₂ d₁ d₀ c : Char} {v₂ v₁ v₀ : Nat} (h₂ : IsDigitOf 8 d₂ v₂) (h₁ : IsDigitOf 8 d₁ v₁)
      (h₀ : IsDigitOf 8 d₀ v₀) (hc : c.toNat = 64 * v₂ + 8 * v₁ + v₀) :
      IsUnit ['\\', d₂, d₁, d₀] c
  /-- Two hexadecimal digits of the code. -/
  | hexadecimal {d₁ d₀ c : Char} {v₁ v₀ : Nat} (h₁ : IsDigitOf 16 d₁ v₁)
      (h₀ : IsDigitOf 16 d₀ v₀) (hc : c.toNat = 16 * v₁ + v₀) :
      IsUnit ['\\', 'x', d₁, d₀] c

/-- Whether characters are a row of units, and what these stand for together. -/
inductive Units : List Char → List Char → Prop where
  | nil : Units [] []
  | cons {raw rest : List Char} {c : Char} {content : List Char} (h : IsUnit raw c)
      (hrest : Units rest content) : Units (raw ++ rest) (c :: content)

/-- Whether characters are a unit that lacks its end. Nothing at all is one too. -/
def IsStart (part : List Char) : Prop :=
  ∃ more c, more ≠ [] ∧ IsUnit (part ++ more) c

/-- Whether the characters `before` are fine, but `c` cannot continue the unit that it stands
in. -/
def Stuck (before : List Char) (c : Char) : Prop :=
  ∃ units content part, before = units ++ part ∧ Units units content ∧ IsStart part ∧
    ¬ ∃ more decoded, IsUnit (part ++ c :: more) decoded

/-- Whether characters behind an opening quote begin with units and a closing quote. -/
def Closed (body : List Char) : Prop :=
  ∃ inner content after, body = inner ++ '"' :: after ∧ Units inner content

/-- Whether one of the characters behind an opening quote cannot continue its unit. -/
def Spoiled (body : List Char) : Prop :=
  ∃ before c after, body = before ++ c :: after ∧ Stuck before c

/-- Whether characters are fine but end inside a literal, perhaps inside of a unit. -/
def Breaks (body : List Char) : Prop :=
  ∃ units content part, body = units ++ part ∧ Units units content ∧ IsStart part

/-! ### Units and the progress of the reader -/

/-- Whether `progress` is what the reader remembers of the start of a unit. -/
inductive Started : List Char → Progress → Prop where
  | fresh : Started [] .fresh
  | backslash : Started ['\\'] .backslash
  | octal {d : Char} {v : Nat} (h : IsDigitOf 8 d v) : Started ['\\', d] (.digits 8 1 v)
  | octals {d e : Char} {v w : Nat} (h : IsDigitOf 8 d v) (h' : IsDigitOf 8 e w) :
      Started ['\\', d, e] (.digits 8 0 (v * 8 + w))
  | mark : Started ['\\', 'x'] (.digits 16 1 0)
  | hexadecimal {d : Char} {v : Nat} (h : IsDigitOf 16 d v) :
      Started ['\\', 'x', d] (.digits 16 0 v)

/-- The characters that are expanded are the letters and signs of the grammar. -/
theorem expand?_eq_some_iff {c decoded : Char} :
    expand? c = some decoded ↔
      (c, decoded) ∈ controlLetters ∨ c = decoded ∧ decoded ∈ escapableSigns := by
  constructor
  · intro h
    unfold expand? at h
    split at h <;> cases h <;> decide
  · rintro (h | ⟨rfl, h⟩)
    · simp only [controlLetters, List.mem_cons, Prod.mk.injEq, List.not_mem_nil, or_false] at h
      rcases h with ⟨rfl, rfl⟩ | ⟨rfl, rfl⟩ | ⟨rfl, rfl⟩ | ⟨rfl, rfl⟩ | ⟨rfl, rfl⟩ | ⟨rfl, rfl⟩ |
        ⟨rfl, rfl⟩ <;> rfl
    · simp only [escapableSigns, List.mem_cons, List.not_mem_nil, or_false] at h
      rcases h with rfl | rfl | rfl | rfl <;> rfl

/-- The codes that the digits of a unit can make up are codes of characters. -/
theorem toNat_ofNat_of_lt {code : Nat} (h : code < 512) : (Char.ofNat code).toNat = code := by
  have hvalid : code.isValidChar := .inl (by omega)
  rw [Char.ofNat, dif_pos hvalid]
  rfl

/-- The letter that marks a hexadecimal code is no digit. -/
theorem not_isDigitOf_x {value : Nat} : ¬ IsDigitOf 8 'x' value := fun h =>
  (digitValue?_eq_none_iff (by omega)).1 (by decide) ⟨value, h⟩

/-- A digit of a character code is one of those that are missing, or the last one, which
completes the code. No other character can stand there. -/
theorem digitStep_cases {base : Nat} (hbase : base ≤ 16) (missing value : Nat) (c : Char) :
    (∃ digit, IsDigitOf base c digit ∧ digitStep base missing value c =
      match missing with
      | 0 => .unit (Char.ofNat (value * base + digit))
      | missing + 1 => .more (.digits base missing (value * base + digit))) ∨
    ¬ IsDigitIn base c ∧ digitStep base missing value c = .illegal := by
  cases hdigit : digitValue? base c with
  | some digit =>
    refine .inl ⟨digit, (digitValue?_eq_some_iff hbase).1 hdigit, ?_⟩
    cases missing <;> simp only [digitStep, hdigit]
  | none =>
    refine .inr ⟨(digitValue?_eq_none_iff hbase).1 hdigit, ?_⟩
    simp only [digitStep, hdigit]

/-- One more digit counts in for a unit that lacks digits, and completes it if it is the last. -/
theorem Started.digit {part : List Char} {base missing value : Nat}
    (h : Started part (.digits base missing value)) {c : Char} {v : Nat}
    (hv : IsDigitOf base c v) :
    match missing with
    | 0 => IsUnit (part ++ [c]) (Char.ofNat (value * base + v))
    | missing + 1 => Started (part ++ [c]) (.digits base missing (value * base + v)) := by
  have hlast := hv.1
  cases h with
  | octal hd => exact .octals hd hv
  | @octals d e u w hd he =>
    have hu := hd.1
    have hw := he.1
    have hcode : (Char.ofNat ((u * 8 + w) * 8 + v)).toNat = (u * 8 + w) * 8 + v :=
      toNat_ofNat_of_lt (by omega)
    exact .octal hd he hv (hcode.trans (by omega))
  | mark =>
    rw [Nat.zero_mul, Nat.zero_add]
    exact .hexadecimal hv
  | hexadecimal hd =>
    have hvalue := hd.1
    have hcode : (Char.ofNat (value * 16 + v)).toNat = value * 16 + v :=
      toNat_ofNat_of_lt (by omega)
    exact .hexadecimal hd hv (hcode.trans (by omega))

/-- A unit that lacks digits goes on with a digit. -/
theorem Started.isDigitIn {part more : List Char} {base missing value : Nat} {c decoded : Char}
    (h : Started part (.digits base missing value)) (hunit : IsUnit (part ++ c :: more) decoded) :
    IsDigitIn base c := by
  cases h with
  | octal hd =>
    cases hunit with
    | octal _ h₁ _ _ => exact ⟨_, h₁⟩
    | hexadecimal _ _ _ => exact absurd hd not_isDigitOf_x
  | octals hd _ =>
    cases hunit with
    | octal _ _ h₀ _ => exact ⟨_, h₀⟩
    | hexadecimal _ _ _ => exact absurd hd not_isDigitOf_x
  | mark =>
    cases hunit with
    | octal h₂ _ _ _ => exact absurd h₂ not_isDigitOf_x
    | hexadecimal h₁ _ _ => exact ⟨_, h₁⟩
  | hexadecimal _ =>
    cases hunit with
    | octal h₂ _ _ _ => exact absurd h₂ not_isDigitOf_x
    | hexadecimal _ h₀ _ => exact ⟨_, h₀⟩

/-- A backslash goes on with a letter or sign that is expanded, an octal digit, or the mark of a
hexadecimal code. -/
theorem expand_of_isUnit {more : List Char} {c decoded : Char}
    (hunit : IsUnit ('\\' :: c :: more) decoded) :
    (∃ expanded, expand? c = some expanded) ∨ IsDigitIn 8 c ∨ c = 'x' := by
  cases hunit with
  | control hletter => exact .inl ⟨_, expand?_eq_some_iff.2 (.inl hletter)⟩
  | sign hsign => exact .inl ⟨_, expand?_eq_some_iff.2 (.inr ⟨rfl, hsign⟩)⟩
  | octal h₂ _ _ _ => exact .inr (.inl ⟨_, h₂⟩)
  | hexadecimal _ _ _ => exact .inr (.inr rfl)

/-- One more character completes a unit that has been started, continues it, closes the
literal, or can do none of this. Only where no unit has been started is the literal closed. -/
theorem Started.next {part : List Char} {progress : Progress} (h : Started part progress)
    (c : Char) :
    (∃ decoded, step progress c = .unit decoded ∧ IsUnit (part ++ [c]) decoded) ∨
      (∃ next, step progress c = .more next ∧ Started (part ++ [c]) next) ∨
      (step progress c = .close ∧ part = [] ∧ c = '"') ∨
      step progress c = .illegal ∧ part ≠ [] ∧
        ¬ ∃ more decoded, IsUnit (part ++ c :: more) decoded := by
  cases progress with
  | fresh =>
    cases h
    by_cases hquote : c = '"'
    · subst hquote
      exact .inr (.inr (.inl ⟨rfl, rfl, rfl⟩))
    · by_cases hbackslash : c = '\\'
      · subst hbackslash
        exact .inr (.inl ⟨.backslash, rfl, .backslash⟩)
      · exact .inl ⟨c, by simp [step, hquote, hbackslash], .plain hquote hbackslash⟩
  | backslash =>
    cases h
    cases hexpand : expand? c with
    | some decoded =>
      refine .inl ⟨decoded, by simp [step, hexpand], ?_⟩
      rcases expand?_eq_some_iff.1 hexpand with hletter | ⟨rfl, hsign⟩
      · exact .control hletter
      · exact .sign hsign
    | none =>
      by_cases hx : c = 'x'
      · subst hx
        exact .inr (.inl ⟨.digits 16 1 0, rfl, .mark⟩)
      · have hstep : step .backslash c = digitStep 8 2 0 c := by simp [step, hexpand, hx]
        rw [hstep]
        rcases digitStep_cases (show 8 ≤ 16 by omega) 2 0 c with
          ⟨v, hv, hmore⟩ | ⟨hdigit, hillegal⟩
        · rw [Nat.zero_mul, Nat.zero_add] at hmore
          exact .inr (.inl ⟨_, hmore, .octal hv⟩)
        · refine .inr (.inr (.inr ⟨hillegal, List.cons_ne_nil _ _, ?_⟩))
          rintro ⟨more, decoded, hunit⟩
          rcases expand_of_isUnit hunit with ⟨expanded, hsome⟩ | hin | heq
          · simp [hsome] at hexpand
          · exact hdigit hin
          · exact hx heq
  | digits base missing value =>
    have hbase : base ≤ 16 ∧ part ≠ [] := by
      cases h <;> exact ⟨by omega, List.cons_ne_nil _ _⟩
    rcases digitStep_cases hbase.1 missing value c with ⟨v, hv, hstep⟩ | ⟨hdigit, hillegal⟩
    · have hcounted := h.digit hv
      cases missing with
      | zero => exact .inl ⟨_, hstep, hcounted⟩
      | succ missing => exact .inr (.inl ⟨_, hstep, hcounted⟩)
    · exact .inr (.inr (.inr ⟨hillegal, hbase.2, fun ⟨_, _, hunit⟩ => hdigit (h.isDigitIn hunit)⟩))

/-- What has been started can be ended. -/
theorem Started.isStart {part : List Char} {progress : Progress} (h : Started part progress) :
    IsStart part := by
  have hzero {base : Nat} (hbase : 0 < base) : IsDigitOf base '0' 0 :=
    ⟨hbase, _, List.mem_cons_self .., rfl⟩
  cases h with
  | fresh => exact ⟨['a'], 'a', List.cons_ne_nil _ _, .plain (by decide) (by decide)⟩
  | backslash => exact ⟨['n'], '\n', List.cons_ne_nil _ _, .control (by decide)⟩
  | @octal d v hd =>
    have hv := hd.1
    refine ⟨['0', '0'], Char.ofNat (64 * v), List.cons_ne_nil _ _,
      .octal hd (hzero (by omega)) (hzero (by omega)) ?_⟩
    exact toNat_ofNat_of_lt (by omega)
  | @octals d e v w hd he =>
    have hv := hd.1
    have hw := he.1
    refine ⟨['0'], Char.ofNat (64 * v + 8 * w), List.cons_ne_nil _ _,
      .octal hd he (hzero (by omega)) ?_⟩
    exact toNat_ofNat_of_lt (by omega)
  | mark =>
    refine ⟨['0', '0'], Char.ofNat 0, List.cons_ne_nil _ _,
      .hexadecimal (hzero (by omega)) (hzero (by omega)) ?_⟩
    exact toNat_ofNat_of_lt (by omega)
  | @hexadecimal d v hd =>
    have hv := hd.1
    refine ⟨['0'], Char.ofNat (16 * v), List.cons_ne_nil _ _, .hexadecimal hd (hzero (by omega)) ?_⟩
    exact toNat_ofNat_of_lt (by omega)

/-- The reader remembers something of the start of any unit. -/
theorem IsStart.started {part : List Char} (h : IsStart part) :
    ∃ progress, Started part progress := by
  obtain ⟨more, c, hmore, hunit⟩ := h
  -- A unit has at most four characters, so its start has at most three.
  rcases part with _ | ⟨a, _ | ⟨b, _ | ⟨d, _ | ⟨e, rest⟩⟩⟩⟩
  · exact ⟨_, .fresh⟩
  · cases hunit with
    | plain _ _ => exact absurd rfl hmore
    | control _ | sign _ | octal _ _ _ _ | hexadecimal _ _ _ => exact ⟨_, .backslash⟩
  · cases hunit with
    | control _ | sign _ => exact absurd rfl hmore
    | octal h₂ _ _ _ => exact ⟨_, .octal h₂⟩
    | hexadecimal _ _ _ => exact ⟨_, .mark⟩
  · cases hunit with
    | octal h₂ h₁ _ _ => exact ⟨_, .octals h₂ h₁⟩
    | hexadecimal h₁ _ _ => exact ⟨_, .hexadecimal h₁⟩
  · obtain ⟨f, tail, rfl⟩ := List.exists_cons_of_ne_nil hmore
    rcases rest with _ | ⟨g, rest⟩ <;> cases hunit

/-! ### Reading units -/

theorem readFrom_more {progress next : Progress} {c : Char} (h : step progress c = .more next)
    (rest : List Char) : readFrom progress (c :: rest) = (readFrom next rest).skip := by
  rw [readFrom, h]

theorem readFrom_unit {progress : Progress} {c decoded : Char}
    (h : step progress c = .unit decoded) (rest : List Char) :
    readFrom progress (c :: rest) = (readFrom .fresh rest).push decoded := by
  rw [readFrom, h]

/-- The reading of what follows more characters, which stand for `content`. -/
def Reading.behind (reading : Reading) (count : Nat) (content : List Char) : Reading :=
  ⟨content ++ reading.content, count + reading.used, reading.ending⟩

/-- An octal digit behind a backslash is the first of three. -/
theorem step_octal {d : Char} {v : Nat} (h : IsDigitOf 8 d v) :
    step .backslash d = .more (.digits 8 1 v) := by
  have hrows : ∀ row ∈ digitRows, ∀ v < 8,
      row[v]?.map (step .backslash) = some (.more (.digits 8 1 v)) := by decide
  obtain ⟨hlt, row, hrow, hget⟩ := h
  have hstep := hrows row hrow v hlt
  rwa [hget, Option.map_some, Option.some.injEq] at hstep

/-- A digit of a character code is counted in, and the last one completes the code. -/
theorem step_digit {base : Nat} (hbase : base ≤ 16) {d : Char} {v : Nat} (h : IsDigitOf base d v)
    (value : Nat) :
    step (.digits base 0 value) d = .unit (Char.ofNat (value * base + v)) ∧
      ∀ missing, step (.digits base (missing + 1) value) d =
        .more (.digits base missing (value * base + v)) := by
  have hdigit := (digitValue?_eq_some_iff hbase).2 h
  constructor
  · simp only [step, digitStep, hdigit]
  · intro missing
    simp only [step, digitStep, hdigit]

/-- Whether reading the characters `part` leaves the reader with `progress`. -/
def LeadsTo (part : List Char) (progress : Progress) : Prop :=
  ∀ rest, readFrom .fresh (part ++ rest) = (readFrom progress rest).behind part.length []

theorem LeadsTo.nil : LeadsTo [] .fresh := fun rest => by
  simp only [List.nil_append, Reading.behind, List.length_nil, Nat.zero_add]

/-- A character that continues a unit leads on. -/
theorem LeadsTo.more {part : List Char} {progress next : Progress} {c : Char}
    (h : LeadsTo part progress) (hstep : step progress c = .more next) :
    LeadsTo (part ++ [c]) next := by
  intro rest
  rw [List.append_assoc, List.singleton_append, h, readFrom_more hstep]
  simp [Reading.behind, Reading.skip]
  omega

/-- A character that completes a unit is followed by whatever comes next. -/
theorem LeadsTo.unit {part : List Char} {progress : Progress} {c decoded : Char}
    (h : LeadsTo part progress) (hstep : step progress c = .unit decoded) (rest : List Char) :
    readFrom .fresh (part ++ [c] ++ rest) =
      (readFrom .fresh rest).behind (part ++ [c]).length [decoded] := by
  rw [List.append_assoc, List.singleton_append, h, readFrom_unit hstep]
  simp [Reading.behind, Reading.push]
  omega

/-- The reader comes from the start of a unit to what it remembers of it. -/
theorem Started.leadsTo {part : List Char} {progress : Progress} (h : Started part progress) :
    LeadsTo part progress := by
  have hbackslash : LeadsTo ['\\'] .backslash := LeadsTo.nil.more rfl
  have hmark : LeadsTo ['\\', 'x'] (.digits 16 1 0) := hbackslash.more rfl
  cases h with
  | fresh => exact .nil
  | backslash => exact hbackslash
  | octal hd => exact hbackslash.more (step_octal hd)
  | octals hd he =>
    exact (hbackslash.more (step_octal hd)).more ((step_digit (by omega) he _).2 0)
  | mark => exact hmark
  | @hexadecimal d v hd =>
    have hstep := (step_digit (by omega) hd 0).2 0
    rw [Nat.zero_mul, Nat.zero_add v] at hstep
    exact hmark.more hstep

/-- A unit is read as the character that it stands for. -/
theorem IsUnit.read {raw : List Char} {c : Char} (h : IsUnit raw c) (rest : List Char) :
    readFrom .fresh (raw ++ rest) = (readFrom .fresh rest).behind raw.length [c] := by
  -- A character is known by its code.
  have hcode {code : Nat} (hc : c.toNat = code) : Char.ofNat code = c := by
    rw [← hc, Char.ofNat_toNat]
  cases h with
  | plain hquote hbackslash =>
    exact LeadsTo.nil.unit (by simp [step, hquote, hbackslash]) rest
  | @control letter _ hletter =>
    have hstep : step .backslash letter = .unit c := by
      simp only [step, expand?_eq_some_iff.2 (.inl hletter)]
    exact Started.backslash.leadsTo.unit hstep rest
  | sign hsign =>
    have hstep : step .backslash c = .unit c := by
      simp only [step, expand?_eq_some_iff.2 (.inr ⟨rfl, hsign⟩)]
    exact Started.backslash.leadsTo.unit hstep rest
  | @octal d₂ d₁ d₀ _ v₂ v₁ v₀ h₂ h₁ h₀ hc =>
    have hstep := (step_digit (by omega) h₀ (v₂ * 8 + v₁)).1
    rw [hcode (by omega)] at hstep
    exact (Started.octals h₂ h₁).leadsTo.unit hstep rest
  | @hexadecimal d₁ d₀ _ v₁ v₀ h₁ h₀ hc =>
    have hstep := (step_digit (by omega) h₀ v₁).1
    rw [hcode (by omega)] at hstep
    exact (Started.hexadecimal h₁).leadsTo.unit hstep rest

/-- A row of units is read as the characters that they stand for. -/
theorem Units.read {units content : List Char} (h : Units units content) (rest : List Char) :
    readFrom .fresh (units ++ rest) = (readFrom .fresh rest).behind units.length content := by
  induction h with
  | nil => exact LeadsTo.nil rest
  | @cons raw units c content hunit _ ih =>
    rw [List.append_assoc, hunit.read, ih]
    simp [Reading.behind, Nat.add_assoc]

/-! ### Readings -/

/-- Units and a closing quote are a literal. -/
theorem read_closed {inner content : List Char} (h : Units inner content) (rest : List Char) :
    Literal.read (inner ++ '"' :: rest) = ⟨content, inner.length + 1, .closed⟩ := by
  have hquote : readFrom .fresh ('"' :: rest) = ⟨[], 1, .closed⟩ := rfl
  rw [Literal.read, h.read, hquote, Reading.behind, List.append_nil]

/-- The first character that cannot continue its unit ends the reading, unless it closes the
literal. -/
theorem read_of_stuck {before : List Char} {c : Char} (h : Stuck before c) (rest : List Char)
    (hclosed : ¬ Closed (before ++ c :: rest)) :
    ∃ content, Literal.read (before ++ c :: rest) = ⟨content, before.length + 1, .illegal c⟩ := by
  obtain ⟨units, content, part, rfl, hunits, hstart, hnone⟩ := h
  obtain ⟨progress, hstarted⟩ := hstart.started
  have hstep : step progress c = .illegal := by
    rcases hstarted.next c with ⟨decoded, -, hunit⟩ | ⟨next, -, hnext⟩ | ⟨-, rfl, rfl⟩ | ⟨hstep, -⟩
    · exact absurd ⟨[], decoded, hunit⟩ hnone
    · obtain ⟨more, decoded, -, hunit⟩ := hnext.isStart
      rw [List.append_assoc] at hunit
      exact absurd ⟨more, decoded, hunit⟩ hnone
    · exact absurd ⟨units, content, rest, by simp, hunits⟩ hclosed
    · exact hstep
  have hillegal : readFrom progress (c :: rest) = ⟨[], 1, .illegal c⟩ := by
    rw [readFrom, hstep]
  refine ⟨content, ?_⟩
  rw [Literal.read, List.append_assoc, hunits.read, hstarted.leadsTo, hillegal]
  simp [Reading.behind, Nat.add_assoc]

/-- A unit in front does not change where the characters behind it get stuck. -/
theorem Stuck.behind {raw before : List Char} {c d : Char} (hunit : IsUnit raw d)
    (h : Stuck before c) : Stuck (raw ++ before) c := by
  obtain ⟨units, content, part, rfl, hunits, hstart, hnone⟩ := h
  exact ⟨raw ++ units, d :: content, part, (List.append_assoc ..).symm, .cons hunit hunits,
    hstart, hnone⟩

/-- A unit in front does not change that the characters behind it break off. -/
theorem Breaks.behind {raw body : List Char} {d : Char} (hunit : IsUnit raw d)
    (h : Breaks body) : Breaks (raw ++ body) := by
  obtain ⟨units, content, part, rfl, hunits, hstart⟩ := h
  exact ⟨raw ++ units, d :: content, part, (List.append_assoc ..).symm, .cons hunit hunits,
    hstart⟩

/-- Whatever stands behind the start of a unit is closed, is spoiled, or breaks off. -/
theorem readFrom_cases {part : List Char} {progress : Progress} (h : Started part progress)
    (rest : List Char) :
    (∃ inner content after, rest = inner ++ '"' :: after ∧ Units (part ++ inner) content) ∨
      (∃ before c after, rest = before ++ c :: after ∧ Stuck (part ++ before) c) ∨
      (∃ content, readFrom progress rest = ⟨content, rest.length, .cut⟩) ∧
        Breaks (part ++ rest) := by
  induction rest generalizing part progress with
  | nil =>
    refine .inr (.inr ⟨⟨[], rfl⟩, [], [], part, ?_, .nil, h.isStart⟩)
    rw [List.append_nil, List.nil_append]
  | cons c rest ih =>
    rcases h.next c with
      ⟨decoded, hstep, hunit⟩ | ⟨next, hstep, hnext⟩ | ⟨-, rfl, rfl⟩ | ⟨-, -, hnone⟩
    · rw [readFrom_unit hstep]
      -- The next unit starts behind this one.
      rcases ih .fresh with ⟨inner, content, after, rfl, hunits⟩ |
        ⟨before, d, after, rfl, hstuck⟩ | ⟨⟨content, hread⟩, hbreaks⟩
      · have hall := Units.cons hunit hunits
        rw [List.nil_append, List.append_assoc] at hall
        exact .inl ⟨c :: inner, decoded :: content, after, rfl, hall⟩
      · have hall := hstuck.behind hunit
        rw [List.nil_append, List.append_assoc] at hall
        exact .inr (.inl ⟨c :: before, d, after, rfl, hall⟩)
      · have hall := hbreaks.behind hunit
        rw [List.nil_append, List.append_assoc] at hall
        exact .inr (.inr ⟨⟨decoded :: content, by rw [hread]; rfl⟩, hall⟩)
    · rw [readFrom_more hstep]
      have happend (tail : List Char) : part ++ [c] ++ tail = part ++ c :: tail := by simp
      rcases ih hnext with ⟨inner, content, after, rfl, hunits⟩ |
        ⟨before, d, after, rfl, hstuck⟩ | ⟨⟨content, hread⟩, hbreaks⟩
      · exact .inl ⟨c :: inner, content, after, rfl, happend inner ▸ hunits⟩
      · exact .inr (.inl ⟨c :: before, d, after, rfl, happend before ▸ hstuck⟩)
      · exact .inr (.inr ⟨⟨content, by rw [hread]; rfl⟩, happend rest ▸ hbreaks⟩)
    · exact .inl ⟨[], [], rest, rfl, .nil⟩
    · refine .inr (.inl ⟨[], c, rest, rfl, [], [], part, ?_, .nil, h.isStart, hnone⟩)
      rw [List.append_nil, List.nil_append]

/-- What is neither closed nor spoiled breaks off, and is read to its end. -/
theorem read_of_open {body : List Char} (hclosed : ¬ Closed body) (hspoiled : ¬ Spoiled body) :
    (∃ content, Literal.read body = ⟨content, body.length, .cut⟩) ∧ Breaks body := by
  rcases readFrom_cases .fresh body with hclose | hspoil | hcut
  · exact absurd hclose hclosed
  · exact absurd hspoil hspoiled
  · exact hcut

end BracketLisp.Text.Literal
