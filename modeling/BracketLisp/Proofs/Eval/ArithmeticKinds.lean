import BracketLisp.Proofs.Eval.IntegerArithmetic

/-!
# `BracketLisp.Proofs.Eval.ArithmeticKinds`: the kinds of values that arithmetic combines

Arithmetic combines numbers with numbers, and `+` writes values behind a string.

* `Value.runningKind` is the kind of what numbers come to, and `Value.Joins` says what may stand
  behind a string.
* `Arith.Breaks` lists the ways in which a value is the first that does not go with those before
  it. `Arith.decides_of_breaks` finds that it is refused, and `Arith.reaches_total` that there is a
  total if no value is such.
* `arithmetic_keeps_kinds` puts together what calls result in. What `+` makes of a string and
  others is what `str` makes of them.
-/

set_option autoImplicit false

namespace BracketLisp

variable {H : Type}

/-! ### Kinds of values in a row -/

namespace Value

/-- The kind of what numbers come to: an integer if all of them are integers, else a float. -/
def runningKind (values : List (Value H)) : Kind :=
  if ∀ value ∈ values, value.kind = .int then .int else .float

/-- Whether a value may stand behind a string that is added to. -/
def Joins (value : Value H) : Prop :=
  value.kind = .int ∨ value.kind = .float ∨ value.kind = .bool ∨ value.kind = .string

instance (value : Value H) : Decidable value.Joins :=
  inferInstanceAs (Decidable (_ ∨ _))

theorem exists_of_kind_eq_int {value : Value H} (h : value.kind = .int) :
    ∃ word, value = .int word := by
  cases value <;> cases h
  exact ⟨_, rfl⟩

theorem exists_of_kind_eq_string {value : Value H} (h : value.kind = .string) :
    ∃ content, value = .string content := by
  cases value <;> cases h
  exact ⟨_, rfl⟩

theorem isNumeric_cases {value : Value H} (h : value.isNumeric) :
    (∃ word, value = .int word) ∨ ∃ x, value = .float x := by
  cases value with
  | int word => exact .inl ⟨word, rfl⟩
  | float x => exact .inr ⟨x, rfl⟩
  | _ => cases h

/-- Values that are all integers are a row of words. -/
theorem exists_ints {values : List (Value H)} (h : ∀ value ∈ values, value.kind = .int) :
    ∃ ints : List Int64, values = ints.map .int := by
  induction values with
  | nil => exact ⟨[], rfl⟩
  | cons value others ih =>
    obtain ⟨hvalue, hothers⟩ := List.forall_mem_cons.1 h
    obtain ⟨word, rfl⟩ := exists_of_kind_eq_int hvalue
    obtain ⟨ints, rfl⟩ := ih hothers
    exact ⟨word :: ints, rfl⟩

end Value

/-- In a row that does not fulfil a property throughout, there is a first that does not. -/
theorem exists_first_not {α : Type} {p : α → Prop} {row : List α} (h : ¬∀ a ∈ row, p a) :
    ∃ before a behind, row = before ++ a :: behind ∧ (∀ b ∈ before, p b) ∧ ¬p a := by
  induction row with
  | nil => exact absurd nofun h
  | cons a others ih =>
    by_cases ha : p a
    · obtain ⟨before, b, behind, rfl, hbefore, hb⟩ := ih fun hothers =>
        h (List.forall_mem_cons.2 ⟨ha, hothers⟩)
      exact ⟨a :: before, b, behind, rfl, List.forall_mem_cons.2 ⟨ha, hbefore⟩, hb⟩
    · exact ⟨[], a, others, rfl, nofun, ha⟩

namespace Arith

variable {op : Arith}

/-- Whether the integers that values begin with have exact totals. -/
def ExactFront (op : Arith) (values : List (Value H)) : Prop :=
  ∀ ints : List Int64, ints.map .int <+: values → op.Exact ints

/-- Whether a value is the first that does not go with those before it, and why. -/
inductive Breaks (op : Arith) : List (Value H) → Value H → EvalFault → Prop where
  /-- A first value that is no number, and no string that is added to. -/
  | first {value : Value H} (hnumber : ¬value.isNumeric)
      (hstring : ¬(op = .add ∧ value.kind = .string)) :
      Breaks op [] value (.nonArithmetic value.kind)
  /-- An integer behind integers that has no total which fits. -/
  | int {before : List Int64} {last : Int64} (hbefore : op.Exact before)
      (hlast : ¬op.Exact (before ++ [last])) :
      Breaks op (before.map .int) (.int last) (op.breach last)
  /-- A string behind numbers. -/
  | string {before : List (Value H)} {content : String} (hne : before ≠ [])
      (hnumbers : ∀ value ∈ before, value.isNumeric) (hexact : op.ExactFront before) :
      Breaks op before (.string content) (.typeMismatch [Value.runningKind before] .string)
  /-- Something else behind numbers. -/
  | other {before : List (Value H)} {value : Value H} (hne : before ≠ [])
      (hnumbers : ∀ value ∈ before, value.isNumeric) (hexact : op.ExactFront before)
      (hnumber : ¬value.isNumeric) (hstring : value.kind ≠ .string) :
      Breaks op before value (.nonArithmetic value.kind)
  /-- Something behind a string that is added to, and that cannot be written there. -/
  | join {content : String} {before : List (Value H)} {value : Value H} (hop : op = .add)
      (hbefore : ∀ value ∈ before, value.Joins) (hvalue : ¬value.Joins) :
      Breaks op (.string content :: before) value (.typeMismatch [.string] value.kind)

/-- Whether a value is what arithmetic comes to with others none of which breaks its rules: a number
of the kind that numbers lead to, or the texts of values that begin with a string. -/
inductive Totals (op : Arith) : List (Value H) → Value H → Prop where
  | numbers {values : List (Value H)} {total : Value H}
      (hnumbers : ∀ value ∈ values, value.isNumeric)
      (hkind : total.kind = Value.runningKind values) : Totals op values total
  | texts {content : String} {others : List (Value H)} (hop : op = .add)
      (hothers : ∀ value ∈ others, value.Joins) :
      Totals op (.string content :: others)
        (.string (content ++ String.join (others.map Value.text)))

/-! ### Numbers -/

/-- Two numbers that are not both integers come to a float. -/
theorem combine_numbers {total value : Value H} (htotal : total.isNumeric)
    (hvalue : value.isNumeric) (h : ¬(total.kind = .int ∧ value.kind = .int)) (op : Arith) :
    ∃ x, op.combine total value = .ok (.float x) := by
  obtain ⟨a, rfl⟩ | ⟨x, rfl⟩ := Value.isNumeric_cases htotal
  · obtain ⟨b, rfl⟩ | ⟨y, rfl⟩ := Value.isNumeric_cases hvalue
    · exact absurd ⟨rfl, rfl⟩ h
    · exact ⟨_, rfl⟩
  · obtain ⟨b, rfl⟩ | ⟨y, rfl⟩ := Value.isNumeric_cases hvalue
    · exact ⟨_, rfl⟩
    · exact ⟨_, rfl⟩

theorem accepts_of_isNumeric {value : Value H} (h : value.isNumeric) : op.accepts value = true := by
  obtain ⟨a, rfl⟩ | ⟨x, rfl⟩ := Value.isNumeric_cases h <;> rfl

theorem not_accepts {value : Value H} (hnumber : ¬value.isNumeric)
    (hstring : ¬(op = .add ∧ value.kind = .string)) : ¬op.accepts value = true := by
  cases value with
  | int _ | float _ => exact absurd rfl hnumber
  | string _ => simpa [accepts, Value.kind] using hstring
  | _ => exact Bool.false_ne_true

/-- An accepted first value is the first total. -/
theorem reaches_first {operand : Located (Value H)} (h : op.accepts operand.value = true) :
    op.fold.Reaches none [operand] (some operand.value) :=
  .next (by rw [step_fold_none, if_pos h]) (.done _)

/-- A total leads to another by one more operand. -/
theorem step_of_combine {total later : Value H} {operand : Located (Value H)}
    (h : op.combine total operand.value = .ok later) :
    op.fold.step (some total) operand = .ok (.next (some later)) := by
  rw [step_fold_some, h]
  rfl

/-- Numbers lead a call to a total of their kind, unless integers in front have none. -/
theorem reaches_numbers {operands : List (Located (Value H))} (hne : operands ≠ [])
    (hnumbers : ∀ value ∈ operands.map Located.value, value.isNumeric)
    (hexact : op.ExactFront (operands.map Located.value)) :
    ∃ total, op.fold.Reaches none operands (some total) ∧ total.isNumeric ∧
      total.kind = Value.runningKind (operands.map Located.value) := by
  induction operands using List.reverseRecOn with
  | nil => exact absurd rfl hne
  | append_singleton before last ih =>
    by_cases hints : ∀ value ∈ (before ++ [last]).map Located.value, value.kind = .int
    · obtain ⟨ints, hvalues⟩ := Value.exists_ints hints
      have hne' : ints ≠ [] := by
        rintro rfl
        simp at hvalues
      obtain ⟨word, -, hreaches⟩ := reaches_ints hvalues hne'
        (hexact ints (hvalues ▸ List.prefix_refl _))
      exact ⟨.int word, hreaches, rfl, by rw [Value.runningKind, if_pos hints]; rfl⟩
    · -- One of the values is a float, so the total is one.
      rw [Value.runningKind, if_neg hints]
      rw [List.map_append, List.map_singleton] at hnumbers hexact hints
      obtain ⟨hbefore, hlast⟩ := List.forall_mem_append.1 hnumbers
      have hlast := List.forall_mem_singleton.1 hlast
      by_cases hnil : before = []
      · subst hnil
        refine ⟨last.value, reaches_first (accepts_of_isNumeric hlast), hlast, ?_⟩
        obtain ⟨a, ha⟩ | ⟨x, hx⟩ := Value.isNumeric_cases hlast
        · simp [ha, Value.kind] at hints
        · rw [hx]
          rfl
      · obtain ⟨total, hreaches, htotal, hkind⟩ := ih hnil hbefore fun ints hprefix =>
          hexact ints (List.prefix_append_of_prefix hprefix)
        have hfloat : ¬(total.kind = .int ∧ last.value.kind = .int) := by
          rintro ⟨hint, hint'⟩
          refine hints (List.forall_mem_append.2 ⟨?_, List.forall_mem_singleton.2 hint'⟩)
          by_contra hothers
          rw [Value.runningKind, if_neg hothers, hint] at hkind
          cases hkind
        obtain ⟨x, hx⟩ := combine_numbers htotal hlast hfloat op
        exact ⟨.float x, hreaches.concat (step_of_combine hx), rfl, rfl⟩

/-! ### Strings -/

/-- A string takes the texts of values that may stand behind it. -/
theorem reaches_joined {operands : List (Located (Value H))}
    (h : ∀ value ∈ operands.map Located.value, value.Joins) (op : Arith) (text : String) :
    op.fold.Reaches (some (.string text)) operands
      (some (.string (text ++ String.join (operands.map fun operand => operand.value.text)))) := by
  induction operands generalizing text with
  | nil =>
    rw [List.map_nil, String.join_nil, String.append_empty]
    exact .done _
  | cons operand others ih =>
    obtain ⟨hjoins, hothers⟩ := List.forall_mem_cons.1 h
    have hcombine : op.combine (.string text) operand.value =
        .ok (.string (text ++ operand.value.text)) := by
      obtain ⟨value, span⟩ := operand
      cases value with
      | int _ | float _ | bool _ | string _ => rfl
      | _ => simp [Value.Joins, Value.kind] at hjoins
    rw [List.map_cons, String.join_cons, ← String.append_assoc]
    exact .next (step_of_combine hcombine) (ih hothers _)

theorem reaches_texts {operands : List (Located (Value H))} {content : String}
    {others : List (Value H)} (hop : op = .add)
    (hvalues : operands.map Located.value = .string content :: others)
    (hothers : ∀ value ∈ others, value.Joins) :
    op.fold.Reaches none operands
      (some (.string (content ++ String.join (others.map Value.text)))) := by
  obtain ⟨first, rest, rfl, hfirst, rfl⟩ := List.map_eq_cons_iff.1 hvalues
  have haccepts : op.accepts first.value = true := by
    rw [hfirst, hop]
    rfl
  have hjoined := reaches_joined hothers op content
  rw [← hfirst] at hjoined
  rw [List.map_map]
  exact .next (by rw [step_fold_none, if_pos haccepts]) hjoined

/-! ### The first value that does not go with the others -/

/-- Integers that have no exact totals throughout have a first that breaks. -/
theorem exists_first_breach {ints : List Int64} (h : ¬op.Exact ints) :
    ∃ before last behind, ints = before ++ last :: behind ∧ op.Exact before ∧
      ¬op.Exact (before ++ [last]) := by
  induction ints using List.reverseRecOn with
  | nil =>
    refine absurd (fun count hleast hcount => ?_) h
    rw [List.length_nil] at hcount
    omega
  | append_singleton front last ih =>
    by_cases hfront : op.Exact front
    · exact ⟨front, last, [], rfl, hfront, h⟩
    · obtain ⟨before, found, behind, rfl, hbefore, hfound⟩ := ih hfront
      exact ⟨before, found, behind ++ [last], by simp, hbefore, hfound⟩

theorem combine_string {total : Value H} (h : total.isNumeric) (op : Arith) (content : String) :
    op.combine total (.string content) = .error (.typeMismatch [total.kind] .string) := by
  obtain ⟨a, rfl⟩ | ⟨x, rfl⟩ := Value.isNumeric_cases h <;> rfl

theorem combine_other {total value : Value H} (h : total.isNumeric) (hnumber : ¬value.isNumeric)
    (hstring : value.kind ≠ .string) (op : Arith) :
    op.combine total value = .error (.nonArithmetic value.kind) := by
  obtain ⟨a, rfl⟩ | ⟨x, rfl⟩ := Value.isNumeric_cases h <;> cases value with
    | int _ | float _ => exact absurd rfl hnumber
    | string _ => exact absurd rfl hstring
    | _ => rfl

theorem combine_not_joins {value : Value H} (h : ¬value.Joins) (op : Arith) (text : String) :
    op.combine (.string text) value = .error (.typeMismatch [.string] value.kind) := by
  cases value with
  | int _ | float _ | bool _ | string _ => simp [Value.Joins, Value.kind] at h
  | _ => rfl

/-- A value that cannot be combined with the total of those before it is refused. -/
theorem decides_of_combine {before : List (Located (Value H))} {operand : Located (Value H)}
    {total : Value H} {fault : EvalFault} (h : op.fold.Reaches none before (some total))
    (hcombine : op.combine total operand.value = .error fault) (more : Nat) :
    op.fold.Decides none (before.length + (more + 1)) (before ++ [operand])
      (.error ⟨fault, operand.span⟩) := by
  refine h.decides (.refuse more ?_)
  rw [step_fold_some, hcombine]
  rfl

/-- The first value that does not go with those before it is refused, for the reason that there
is. -/
theorem decides_of_breaks {before : List (Located (Value H))} {operand : Located (Value H)}
    {fault : EvalFault} (h : op.Breaks (before.map Located.value) operand.value fault)
    (more : Nat) :
    op.fold.Decides none (before.length + (more + 1)) (before ++ [operand])
      (.error ⟨fault, operand.span⟩) := by
  generalize hvalues : before.map Located.value = values at h
  generalize hvalue : operand.value = value at h
  cases h with
  | first hnumber hstring =>
    obtain rfl := List.map_eq_nil_iff.1 hvalues
    rw [List.length_nil, Nat.zero_add]
    refine .refuse more ?_
    rw [step_fold_none, hvalue, if_neg (not_accepts hnumber hstring)]
  | int hbefore hlast => exact decides_breach hvalues hvalue hbefore hlast more
  | string hne hnumbers hexact =>
    have hne' : before ≠ [] := fun h => hne (by rw [← hvalues, h]; rfl)
    subst hvalues
    obtain ⟨total, hreaches, htotal, hkind⟩ := reaches_numbers hne' hnumbers hexact
    exact decides_of_combine hreaches (by rw [hvalue, combine_string htotal, hkind]) more
  | other hne hnumbers hexact hnumber hstring =>
    have hne' : before ≠ [] := fun h => hne (by rw [← hvalues, h]; rfl)
    subst hvalues
    obtain ⟨total, hreaches, htotal, -⟩ := reaches_numbers hne' hnumbers hexact
    exact decides_of_combine hreaches (by rw [hvalue, combine_other htotal hnumber hstring]) more
  | join hop hbefore hnot =>
    have hreaches := reaches_texts hop hvalues hbefore
    exact decides_of_combine hreaches (by rw [hvalue, combine_not_joins hnot]) more

/-- Whether some value is the first that does not go with those before it. -/
def Broken (op : Arith) (values : List (Value H)) : Prop :=
  ∃ before value behind fault, values = before ++ value :: behind ∧ op.Breaks before value fault

theorem Broken.append {values : List (Value H)} (h : op.Broken values) (others : List (Value H)) :
    op.Broken (values ++ others) := by
  obtain ⟨before, value, behind, fault, rfl, hbreaks⟩ := h
  exact ⟨before, value, behind ++ others, fault, by simp, hbreaks⟩

theorem broken_of_not_exactFront {values : List (Value H)} (h : ¬op.ExactFront values) :
    op.Broken values := by
  simp only [ExactFront, not_forall] at h
  obtain ⟨ints, ⟨others, rfl⟩, hints⟩ := h
  obtain ⟨before, last, behind, rfl, hbefore, hlast⟩ := exists_first_breach hints
  refine Broken.append ⟨before.map .int, .int last, behind.map .int, _, ?_, .int hbefore hlast⟩ _
  rw [List.map_append, List.map_cons]

/-- Values that are not broken are numbers, or stand behind a string that is added to. -/
theorem broken_or_combines (op : Arith) (values : List (Value H)) :
    op.Broken values ∨
      ((∀ value ∈ values, value.isNumeric) ∧ op.ExactFront values) ∨
      (op = .add ∧ ∃ content others, values = .string content :: others ∧
        ∀ value ∈ others, value.Joins) := by
  by_cases hnumbers : ∀ value ∈ values, value.isNumeric
  · by_cases hexact : op.ExactFront values
    · exact .inr (.inl ⟨hnumbers, hexact⟩)
    · exact .inl (broken_of_not_exactFront hexact)
  · obtain ⟨before, value, behind, rfl, hbefore, hnumber⟩ := exists_first_not hnumbers
    by_cases hexact : op.ExactFront before
    · by_cases hne : before = []
      · subst hne
        by_cases hstring : op = .add ∧ value.kind = .string
        · obtain ⟨hop, hkind⟩ := hstring
          obtain ⟨content, rfl⟩ := Value.exists_of_kind_eq_string hkind
          by_cases hjoins : ∀ value ∈ behind, value.Joins
          · exact .inr (.inr ⟨hop, content, behind, rfl, hjoins⟩)
          · obtain ⟨front, found, rest, rfl, hfront, hfound⟩ := exists_first_not hjoins
            exact .inl ⟨.string content :: front, found, rest, _, rfl, .join hop hfront hfound⟩
        · exact .inl ⟨[], value, behind, _, rfl, .first hnumber hstring⟩
      · by_cases hstring : value.kind = .string
        · obtain ⟨content, rfl⟩ := Value.exists_of_kind_eq_string hstring
          exact .inl ⟨before, _, behind, _, rfl, .string hne hbefore hexact⟩
        · exact .inl ⟨before, value, behind, _, rfl, .other hne hbefore hexact hnumber hstring⟩
    · exact .inl ((broken_of_not_exactFront hexact).append _)

/-- Values that are not broken have a total. -/
theorem reaches_total {operands : List (Located (Value H))} (hne : operands ≠ [])
    (h : ¬op.Broken (operands.map Located.value)) :
    ∃ total, op.fold.Reaches none operands (some total) ∧
      op.Totals (operands.map Located.value) total := by
  rcases op.broken_or_combines (operands.map Located.value) with hbroken |
    ⟨hnumbers, hexact⟩ | ⟨hop, content, others, hvalues, hothers⟩
  · exact absurd hbroken h
  · obtain ⟨total, hreaches, -, hkind⟩ := reaches_numbers hne hnumbers hexact
    exact ⟨total, hreaches, .numbers hnumbers hkind⟩
  · refine ⟨_, reaches_texts hop hvalues hothers, ?_⟩
    rw [hvalues]
    exact .texts hop hothers

/-- A total that is a string is one that was added to. -/
theorem Totals.eq_add {values : List (Value H)} {content : String}
    (h : op.Totals values (.string content)) : op = .add := by
  cases h with
  | numbers hnumbers hkind =>
    rw [Value.runningKind] at hkind
    split at hkind <;> cases hkind
  | texts hop hothers => exact hop

end Arith

/-! ### Calls -/

/-- Concatenation takes the texts of all operands. -/
theorem reaches_concat (operands : List (Located (Value H))) (text : String) :
    concatFold.Reaches text operands
      (text ++ String.join (operands.map fun operand => operand.value.text)) := by
  induction operands generalizing text with
  | nil =>
    rw [List.map_nil, String.join_nil, String.append_empty]
    exact .done _
  | cons operand others ih =>
    rw [List.map_cons, String.join_cons, ← String.append_assoc]
    exact .next rfl (ih _)

/-- `str` gives the texts of its operands as one string. -/
theorem gives_concat [Host H] {operands : List (Located (Value H))} (hne : operands ≠ []) :
    Operation.concat.Gives operands
      (.ok (.string (String.join ((operands.map Located.value).map Value.text)))) := by
  have hdecides := (reaches_concat operands "").finishes
  rw [String.empty_append] at hdecides
  rw [List.map_map]
  exact Operation.gives_of_decides (List.length_pos_iff.2 hne) hdecides

section

variable {op : Arith} {evaluate : Evaluator H} {call : Call} {scope : ScopeId}
  {env after : Environment H} {operands before behind : List (Located (Value H))}

/-- A call comes to the total that its operands lead to. -/
theorem result_of_reaches [Host H] (fuel : Nat) {total : Value H} (hcount : 2 ≤ call.args.length)
    (hgets : (Operation.arithmetic op).Gets evaluate call scope env operands after)
    (hall : operands.length = call.args.length)
    (h : op.fold.Reaches none operands (some total)) :
    (Element.step fuel evaluate call.form.element scope).apply env = (.ok total, after) := by
  have hdecides := h.finishes
  rw [hall] at hdecides
  exact hgets.result fuel hcount hdecides

/-- A call fails at the first operand that does not go with those before it, and evaluates none
behind it. -/
theorem result_of_breaks [Host H] (fuel : Nat) {operand : Located (Value H)} {fault : EvalFault}
    (hcount : 2 ≤ call.args.length)
    (hgets : (Operation.arithmetic op).Gets evaluate call scope env
      (before ++ operand :: behind) after)
    (h : op.Breaks (before.map Located.value) operand.value fault) :
    ∃ mid, (Operation.arithmetic op).Gets evaluate call scope env (before ++ [operand]) mid ∧
      (Element.step fuel evaluate call.form.element scope).apply env =
        (.error (.fault ⟨fault, operand.span⟩), mid) := by
  rw [List.append_cons] at hgets
  obtain ⟨mid, hfront⟩ := hgets.front
  have hle := hfront.length_le
  rw [List.length_append, List.length_singleton] at hle
  obtain ⟨more, hmore⟩ := Nat.exists_eq_add_of_le hle
  have hdecides := Arith.decides_of_breaks h more
  have hlength : before.length + (more + 1) = call.args.length := by omega
  rw [hlength] at hdecides
  exact ⟨mid, hfront, hfront.result fuel hcount hdecides⟩

/-- A call on values that are not broken comes to their total. -/
theorem exists_total [Host H] (fuel : Nat) (hcount : 2 ≤ call.args.length)
    (hgets : (Operation.arithmetic op).Gets evaluate call scope env operands after)
    (hall : operands.length = call.args.length) (h : ¬op.Broken (operands.map Located.value)) :
    ∃ total, op.Totals (operands.map Located.value) total ∧
      (Element.step fuel evaluate call.form.element scope).apply env = (.ok total, after) := by
  have hne : operands ≠ [] := by
    rintro rfl
    rw [List.length_nil] at hall
    omega
  obtain ⟨total, hreaches, htotal⟩ := Arith.reaches_total hne h
  exact ⟨total, htotal, result_of_reaches fuel hcount hgets hall hreaches⟩

/-- A call that has a result has the total of its operands. -/
theorem totals_of_result [Host H] (fuel : Nat) {value : Value H} {later : Environment H}
    (hcount : 2 ≤ call.args.length)
    (hgets : (Operation.arithmetic op).Gets evaluate call scope env operands after)
    (hall : operands.length = call.args.length)
    (h : (Element.step fuel evaluate call.form.element scope).apply env = (.ok value, later)) :
    later = after ∧ op.Totals (operands.map Located.value) value := by
  by_cases hbroken : op.Broken (operands.map Located.value)
  · obtain ⟨values, last, rest, fault, hsplit, hbreaks⟩ := hbroken
    obtain ⟨before, others, rfl, rfl, hothers⟩ := List.map_eq_append_iff.1 hsplit
    obtain ⟨operand, behind, rfl, rfl, -⟩ := List.map_eq_cons_iff.1 hothers
    obtain ⟨mid, -, herror⟩ := result_of_breaks fuel hcount hgets hbreaks
    cases herror.symm.trans h
  · obtain ⟨total, htotal, hresult⟩ := exists_total fuel hcount hgets hall hbroken
    cases hresult.symm.trans h
    exact ⟨rfl, htotal⟩

end

/-- A call of `+`, `-`, `*` or `/` whose arguments all have values. It has a result only if these
are all numbers, or stand behind a string that is added to, and the result is of their kind. Values
behind a string are written there, as `str` writes them. Otherwise the call fails at the first value
that does not go with those before it. If there is none, it has a result. -/
theorem arithmetic_keeps_kinds [Host H] (fuel : Nat) {op : Arith} {evaluate : Evaluator H}
    {call : Call} {scope : ScopeId} {env after : Environment H}
    {operands : List (Located (Value H))} (hcount : 2 ≤ call.args.length)
    (hgets : (Operation.arithmetic op).Gets evaluate call scope env operands after)
    (hall : operands.length = call.args.length) :
    (∀ value later, (Element.step fuel evaluate call.form.element scope).apply env =
        (.ok value, later) →
      later = after ∧ op.Totals (operands.map Located.value) value) ∧
    (∀ content later, (Element.step fuel evaluate call.form.element scope).apply env =
        (.ok (.string content), later) → op = .add) ∧
    (∀ content others, op = .add → operands.map Located.value = .string content :: others →
      (∀ value ∈ others, value.Joins) →
      (Element.step fuel evaluate call.form.element scope).apply env =
          (.ok (.string (String.join ((operands.map Located.value).map Value.text))), after) ∧
        Operation.concat.Gives operands
          (.ok (.string (String.join ((operands.map Located.value).map Value.text))))) ∧
    (∀ before operand behind fault, operands = before ++ operand :: behind →
      op.Breaks (before.map Located.value) operand.value fault →
      ∃ mid, (Operation.arithmetic op).Gets evaluate call scope env (before ++ [operand]) mid ∧
        (Element.step fuel evaluate call.form.element scope).apply env =
          (.error (.fault ⟨fault, operand.span⟩), mid)) ∧
    (¬op.Broken (operands.map Located.value) →
      ∃ value, (Element.step fuel evaluate call.form.element scope).apply env =
        (.ok value, after)) := by
  refine ⟨fun value later => totals_of_result fuel hcount hgets hall,
    fun content later h => (totals_of_result fuel hcount hgets hall h).2.eq_add, ?_, ?_, ?_⟩
  · intro content others hop hvalues hothers
    have hne : operands ≠ [] := by
      rintro rfl
      cases hvalues
    have hresult := result_of_reaches fuel hcount hgets hall
      (Arith.reaches_texts hop hvalues hothers)
    refine ⟨?_, gives_concat hne⟩
    rwa [hvalues, List.map_cons, String.join_cons]
  · rintro before operand behind fault rfl hbreaks
    exact result_of_breaks fuel hcount hgets hbreaks
  · intro h
    obtain ⟨total, -, hresult⟩ := exists_total fuel hcount hgets hall h
    exact ⟨total, hresult⟩

/-- `+` writes a number and a truth value behind a string, and fails at `nil`. -/
theorem arithmetic_keeps_kinds_texts :
    let symbol (name : String) (column : Nat) : Element :=
      .symbol (numberOf [] name) ⟨"t", 1, column⟩
    (eval 6 (.list .paren [symbol "+" 2, .string "a" ⟨"t", 1, 4⟩, .int 1 ⟨"t", 1, 8⟩,
        symbol "true" 10] ⟨"t", 1, 1⟩) .root).apply (.full 0 : Environment Empty) =
      (.ok (.string "a1true"), .full 0) ∧
    ((eval 6 (.list .paren [symbol "+" 2, .string "a" ⟨"t", 1, 4⟩, symbol "nil" 8,
        symbol "true" 12] ⟨"t", 1, 1⟩) .root).apply (.full 0 : Environment Empty)).1 =
      .error (.fault ⟨.typeMismatch [.string] .nil, ⟨"t", 1, 8⟩⟩) := by
  intro symbol
  let sum : Call := ⟨.paren, symbol "+" 2,
    [.string "a" ⟨"t", 1, 4⟩, .int 1 ⟨"t", 1, 8⟩, symbol "true" 10], ⟨"t", 1, 1⟩⟩
  let refused : Call := ⟨.paren, symbol "+" 2,
    [.string "a" ⟨"t", 1, 4⟩, symbol "nil" 8, symbol "true" 12], ⟨"t", 1, 1⟩⟩
  have htrue (column : Nat) : (eval 5 (symbol "true" column) .root).apply
      (.full 0 : Environment Empty) = (.ok (.bool true), .full 0) :=
    eval_constant 4 0 [] (.head _) _
  have hnil : (eval 5 (symbol "nil" 8) .root).apply (.full 0 : Environment Empty) =
      (.ok .nil, .full 0) :=
    eval_constant 4 0 [] (.tail _ (.tail _ (.head _))) _
  have hsum : (Operation.arithmetic .add).Gets (eval 5) sum .root (.full 0 : Environment Empty)
      [⟨.string "a", ⟨"t", 1, 4⟩⟩, ⟨.int 1, ⟨"t", 1, 8⟩⟩, ⟨.bool true, ⟨"t", 1, 10⟩⟩] (.full 0) :=
    Operation.gets_full (by decide) (.next rfl (.next rfl (.next (htrue 10) (.done _)))) rfl
  have hrefused : (Operation.arithmetic .add).Gets (eval 5) refused .root
      (.full 0 : Environment Empty)
      [⟨.string "a", ⟨"t", 1, 4⟩⟩, ⟨.nil, ⟨"t", 1, 8⟩⟩, ⟨.bool true, ⟨"t", 1, 12⟩⟩] (.full 0) :=
    Operation.gets_full (by decide) (.next rfl (.next hnil (.next (htrue 12) (.done _)))) rfl
  constructor
  · exact ((arithmetic_keeps_kinds 5 (by decide) hsum rfl).2.2.1 "a" _ rfl rfl (by decide)).1
  · obtain ⟨mid, -, herror⟩ := (arithmetic_keeps_kinds 5 (by decide) hrefused rfl).2.2.2.1 [_] _ _
      (.typeMismatch [.string] .nil) rfl (.join rfl nofun (by decide))
    exact congrArg Prod.fst herror

end BracketLisp
