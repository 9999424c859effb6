import BracketLisp.Proofs.Eval.Arguments

/-!
# `BracketLisp.Proofs.Eval.Refusal`: which operand an operation refuses

An operation of the catalog that fails blames one of its operands: the leftmost that it does
not accept. With the operands in front of it there could be a result, if the others had other
values, and with this one there is none, whatever comes behind (`ArgumentFold.Refuses`).

* A prompt operation (`ArgumentFold.Prompt`) looks at each operand when it gets it, so it
  refuses the one that it got last. This is shown once, by induction on the operands, from an
  invariant of its states.
* An operation on two operands (`RefusesLeft`) looks at the left one first.
* Operands are the values of arguments that are evaluated in a row (`Leads`). If the first of them
  settle the result, a call has this result, unless a later argument halts
  (`ArgumentFold.consume_of_settled`).
-/

set_option autoImplicit false

namespace BracketLisp

variable {H : Type}

/-! ### Errors at operands -/

/-- Whether a fault can be that of an operand of this kind: it names no other. -/
def EvalFault.IsOf (kind : Kind) : EvalFault → Prop
  | nonArithmetic found | typeMismatch _ found | notInteger found | notBoolean found =>
    found = kind
  | divisionByZero | overflow | outOfRange _ _ _ | invalidNumber _ => True
  | _ => False

/-- Whether an error stands at an operand and names no kind but that of its value. -/
def EvalError.Blames (error : EvalError) (operand : Located (Value H)) : Prop :=
  error.span = operand.span ∧ error.value.IsOf operand.value.kind

theorem Located.blames_of_blame {α : Type} {operand : Located (Value H)}
    {result : Except EvalFault α} {error : EvalError} (h : operand.blame result = .error error)
    (hresult : ∀ fault, result = .error fault → fault.IsOf operand.value.kind) :
    error.Blames operand := by
  cases result with
  | ok a => cases h
  | error fault =>
    cases h
    exact ⟨rfl, hresult fault rfl⟩

theorem blames_of_intOperand {operand : Located (Value H)} {error : EvalError}
    (h : intOperand operand = .error error) : error.Blames operand := by
  unfold intOperand at h
  split at h
  · cases h
  · cases h
    exact ⟨rfl, rfl⟩

theorem blames_of_boolOperand {operand : Located (Value H)} {error : EvalError}
    (h : boolOperand operand = .error error) : error.Blames operand := by
  unfold boolOperand at h
  split at h
  · cases h
  · cases h
    exact ⟨rfl, rfl⟩

/-- A value at each of some places. -/
def Value.placed (value : Value H) (spans : List Position) : List (Located (Value H)) :=
  spans.map fun span => ⟨value, span⟩

@[simp]
theorem Value.span_placed (value : Value H) (spans : List Position) :
    (value.placed spans).map Located.span = spans := by
  rw [placed, List.map_map]
  exact List.map_id spans

theorem eq_error_of_map {α β ε : Type} {f : α → β} {result : Except ε α} {error : ε}
    (h : result.map f = .error error) : result = .error error := by
  cases result with
  | ok a => cases h
  | error other => exact congrArg Except.error (Except.error.inj h)

/-! ### Results of known operands -/

namespace ArgumentFold

variable (fold : ArgumentFold H)

/-- What an operation in a state makes of all operands that are to come. -/
def outcome : fold.State → List (Located (Value H)) → Except EvalError (Value H)
  | state, [] => fold.finish state
  | state, operand :: others =>
    match fold.step state operand with
    | .ok (.next later) => outcome later others
    | .ok (.stop result) => .ok result
    | .error error => .error error

/-- Whether `operand` is the leftmost that an operation in a state refuses, out of `count` of
which `before` come first. -/
structure Refuses (state : fold.State) (count : Nat) (before : List (Located (Value H)))
    (operand : Located (Value H)) (error : EvalError) : Prop where
  blames : error.Blames operand
  /-- Those before it may belong to a call that has a result. -/
  accepts : ∀ spans, before.length + spans.length = count →
    ∃ others : List (Located (Value H)), others.map Located.span = spans ∧
      ∃ value, fold.outcome state (before ++ others) = .ok value
  /-- Those behind it do not count. -/
  refuses : ∀ behind, before.length + (behind.length + 1) = count →
    fold.outcome state (before ++ operand :: behind) = .error error

variable {fold} {state : fold.State} {count : Nat} {operands : List (Located (Value H))}

/-- Operands that settle a result do so whatever follows them. -/
theorem Decides.outcome_append {outcome : Except EvalError (Value H)}
    (h : fold.Decides state count operands outcome) (others : List (Located (Value H)))
    (hcount : operands.length + others.length = count) :
    fold.outcome state (operands ++ others) = outcome := by
  induction h with
  | finish state =>
    obtain rfl : others = [] := List.eq_nil_of_length_eq_zero (by simpa using hcount)
    rfl
  | refuse count h | stop count h =>
    rw [List.singleton_append, ArgumentFold.outcome, h]
  | next h _ ih =>
    rw [List.cons_append, ArgumentFold.outcome, h]
    rw [List.length_cons, Nat.add_right_comm] at hcount
    exact ih (Nat.add_right_cancel hcount)

/-! ### Prompt operations -/

variable (fold) in
/-- Whether an operation, in all states that fulfil an invariant, blames an operand for nothing but
itself, and knows a value that it would accept. -/
structure Prompt (Inv : fold.State → Prop) : Prop where
  start : Inv fold.start
  next : ∀ {state operand later}, Inv state → fold.step state operand = .ok (.next later) →
    Inv later
  blames : ∀ {state operand error}, fold.step state operand = .error error → error.Blames operand
  accepts : ∀ {state}, Inv state → ∃ value, ∀ span, ∃ verdict,
    fold.step state ⟨value, span⟩ = .ok verdict
  finish : ∀ state, ∃ value, fold.finish state = .ok value

section

variable {Inv : fold.State → Prop}

/-- A prompt operation can be given operands that it has a result for. -/
theorem Prompt.completes (h : fold.Prompt Inv) (hinv : Inv state) (spans : List Position) :
    ∃ operands : List (Located (Value H)), operands.map Located.span = spans ∧
      ∃ value, fold.outcome state operands = .ok value := by
  induction spans generalizing state with
  | nil => exact ⟨[], rfl, h.finish state⟩
  | cons span spans ih =>
    obtain ⟨value, hvalue⟩ := h.accepts hinv
    obtain ⟨verdict, hverdict⟩ := hvalue span
    cases verdict with
    | stop result =>
      exact ⟨⟨value, span⟩ :: Value.nil.placed spans, congrArg (span :: ·) (Value.span_placed ..),
        result, by rw [outcome, hverdict]⟩
    | next later =>
      obtain ⟨operands, hspans, result, hresult⟩ := ih (h.next hinv hverdict)
      refine ⟨⟨value, span⟩ :: operands, congrArg (span :: ·) hspans, result, ?_⟩
      rw [outcome, hverdict]
      exact hresult

/-- A prompt operation refuses the operand that it got last. -/
theorem Prompt.refuses (hprompt : fold.Prompt Inv) {error : EvalError}
    (h : fold.Decides state count operands (.error error)) (hinv : Inv state) :
    ∃ before operand, operands = before ++ [operand] ∧
      fold.Refuses state count before operand error := by
  generalize houtcome : Except.error error = outcome at h
  induction h with
  | finish state =>
    obtain ⟨value, hvalue⟩ := hprompt.finish state
    cases houtcome.trans hvalue
  | @refuse state operand _ count h =>
    cases houtcome
    refine ⟨[], operand, rfl, hprompt.blames h, fun spans _ => hprompt.completes hinv spans, ?_⟩
    intro behind _
    rw [List.nil_append, ArgumentFold.outcome, h]
  | stop => cases houtcome
  | @next state later first count operands _ h _ ih =>
    obtain ⟨before, operand, rfl, hrefuses⟩ := ih (hprompt.next hinv h) houtcome
    refine ⟨first :: before, operand, rfl, hrefuses.blames, fun spans hcount => ?_,
      fun behind hcount => ?_⟩
    · have hcount' : before.length + spans.length = count := by
        rw [List.length_cons] at hcount
        omega
      obtain ⟨others, hspans, value, hvalue⟩ := hrefuses.accepts spans hcount'
      refine ⟨others, hspans, value, ?_⟩
      rw [List.cons_append, ArgumentFold.outcome, h]
      exact hvalue
    · have hcount' : before.length + (behind.length + 1) = count := by
        rw [List.length_cons] at hcount
        omega
      rw [List.cons_append, ArgumentFold.outcome, h]
      exact hrefuses.refuses behind hcount'

/-- An operation that checks each operand, and cannot fail otherwise, is prompt. -/
theorem prompt_of_check {α : Type} {check : Located (Value H) → Except EvalError α}
    {verdict : fold.State → α → Verdict fold.State (Value H)}
    (hstep : ∀ state operand, fold.step state operand = (check operand).map (verdict state))
    (hblames : ∀ {operand error}, check operand = .error error → error.Blames operand)
    (haccepts : ∃ value, ∀ span, ∃ a, check ⟨value, span⟩ = .ok a)
    (hfinish : ∀ state, ∃ value, fold.finish state = .ok value) :
    fold.Prompt fun _ => True where
  start := trivial
  next _ _ := trivial
  blames {state operand error} h := by
    rw [hstep] at h
    exact hblames (eq_error_of_map h)
  accepts {state} _ := by
    obtain ⟨value, hvalue⟩ := haccepts
    refine ⟨value, fun span => ?_⟩
    obtain ⟨a, ha⟩ := hvalue span
    exact ⟨verdict state a, by rw [hstep, ha]; rfl⟩
  finish := hfinish

end

/-! ### Operations on two operands -/

/-- Whether an operation on two operands refuses the left one for itself, and the right one only
if it could have had another. -/
structure RefusesLeft (f : Located (Value H) → Located (Value H) → Except EvalError (Value H)) :
    Prop where
  refuses : ∀ {left right error}, f left right = .error error →
    (error.Blames left ∧ ∀ other, f left other = .error error) ∨
      error.Blames right ∧ ∃ value, ∀ span, ∃ result, f left ⟨value, span⟩ = .ok result
  accepts : ∃ value value', ∀ span span', ∃ result, f ⟨value, span⟩ ⟨value', span'⟩ = .ok result

/-- Either operand of an operation on two can be the one that it refuses. -/
theorem RefusesLeft.refuses_binary
    {f : Located (Value H) → Located (Value H) → Except EvalError (Value H)} (hf : RefusesLeft f)
    {error : EvalError} (h : (binary f).Decides none 2 operands (.error error)) :
    ∃ before operand behind, operands = before ++ operand :: behind ∧
      (binary f).Refuses none 2 before operand error := by
  have hresult (left right : Located (Value H)) :
      (binary f).outcome none [left, right] = f left right := by
    cases hf : f left right <;> simp [outcome, binary, hf, Except.map]
  have hlength : operands.length = 2 :=
    h.all_of_collects fun operand => ⟨some operand, rfl, trivial⟩
  obtain ⟨left, right, rfl⟩ := List.length_eq_two.1 hlength
  have hfails : f left right = .error error := (hresult left right).symm.trans
    (h.outcome_append [] rfl)
  rcases hf.refuses hfails with ⟨hblames, hother⟩ | ⟨hblames, value, hvalue⟩
  · refine ⟨[], left, [right], rfl, hblames, fun spans hcount => ?_, fun behind hcount => ?_⟩
    · obtain ⟨span, span', rfl⟩ := List.length_eq_two.1 ((Nat.zero_add _).symm.trans hcount)
      obtain ⟨value, value', hvalues⟩ := hf.accepts
      exact ⟨[⟨value, span⟩, ⟨value', span'⟩], rfl, by
        simpa only [List.nil_append, hresult] using hvalues span span'⟩
    · have hbehind : behind.length = 1 := by simpa using hcount
      obtain ⟨other, rfl⟩ := List.length_eq_one_iff.1 hbehind
      exact (hresult left other).trans (hother other)
  · refine ⟨[left], right, [], rfl, hblames, fun spans hcount => ?_, fun behind hcount => ?_⟩
    · have hspans : spans.length = 1 := Nat.add_left_cancel hcount
      obtain ⟨span, rfl⟩ := List.length_eq_one_iff.1 hspans
      exact ⟨[⟨value, span⟩], rfl, by
        simpa only [List.singleton_append, hresult] using hvalue span⟩
    · obtain rfl : behind = [] := List.eq_nil_of_length_eq_zero
        (Nat.add_right_cancel (Nat.add_left_cancel hcount))
      exact (hresult left right).trans hfails

end ArgumentFold

/-! ### Rows of arguments -/

namespace Passes

variable {evaluate : Evaluator H} {scope : ScopeId} {env after after' : Environment H}
  {elements : List Element} {values : List (Value H)}
  {passed passed' : Except Halt (List (Value H))}

/-- Evaluating elements in a row has one outcome. -/
theorem unique (h : Passes evaluate scope env elements passed after)
    (h' : Passes evaluate scope env elements passed' after') :
    passed = passed' ∧ after = after' := by
  induction h generalizing passed' with
  | done env =>
    cases h'
    exact ⟨rfl, rfl⟩
  | next h _ ih =>
    cases h' with
    | next h' hothers =>
      cases h.symm.trans h'
      obtain ⟨rfl, rfl⟩ := ih hothers
      exact ⟨rfl, rfl⟩
    | halts h' => cases h.symm.trans h'
  | halts h =>
    cases h' with
    | next h' _ => cases h.symm.trans h'
    | halts h' =>
      cases h.symm.trans h'
      exact ⟨rfl, rfl⟩

/-- A row that has values has those of its first part. -/
theorem take (h : Passes evaluate scope env elements (.ok values) after) (count : Nat) :
    ∃ mid, Passes evaluate scope env (elements.take count) (.ok (values.take count)) mid := by
  generalize hpassed : Except.ok values = passed at h
  induction h generalizing values count with
  | done env =>
    cases hpassed
    exact ⟨env, by simpa using .done env⟩
  | @next element others env mid after value result h hothers ih =>
    cases result with
    | error halt => cases hpassed
    | ok later =>
      cases hpassed
      cases count with
      | zero => exact ⟨env, .done env⟩
      | succ count =>
        obtain ⟨end', hend⟩ := ih count rfl
        exact ⟨end', .next h hend⟩
  | halts h => cases hpassed

end Passes

theorem Located.eq_of_map {α : Type} {xs ys : List (Located α)}
    (hvalues : xs.map Located.value = ys.map Located.value)
    (hspans : xs.map Located.span = ys.map Located.span) : xs = ys := by
  induction xs generalizing ys with
  | nil => exact (List.map_eq_nil_iff.1 hvalues.symm).symm
  | cons x xs ih =>
    cases ys with
    | nil => cases hvalues
    | cons y ys =>
      obtain ⟨value, span⟩ := x
      obtain ⟨hvalue, hvalues'⟩ := List.cons.inj hvalues
      obtain ⟨hspan, hspans'⟩ := List.cons.inj hspans
      obtain rfl : value = y.value := hvalue
      obtain rfl : span = y.span := hspan
      rw [ih hvalues' hspans']

/-- If operands stand where the first arguments stand, so do the first of them. -/
theorem spans_of_prefix {args : List Element} {operands first : List (Located (Value H))}
    (h : operands.map Located.span = (args.take operands.length).map Element.span)
    (hfirst : first <+: operands) :
    first.map Located.span = (args.take first.length).map Element.span := by
  obtain ⟨rest, rfl⟩ := hfirst
  have htake := congrArg (List.take first.length) h
  have hle : first.length ≤ (first ++ rest).length := by simp
  rwa [List.map_append, List.take_left' (List.length_map _), ← List.map_take, List.take_take,
    Nat.min_eq_left hle] at htake

/-- Whether arguments that stand first have these values, when they are evaluated in a row. -/
structure Leads (evaluate : Evaluator H) (scope : ScopeId) (env : Environment H)
    (args : List Element) (operands : List (Located (Value H))) : Prop where
  spans : operands.map Located.span = (args.take operands.length).map Element.span
  passes : ∃ after, Passes evaluate scope env (args.take operands.length)
    (.ok (operands.map Located.value)) after

namespace Leads

variable {evaluate : Evaluator H} {scope : ScopeId} {env : Environment H} {args : List Element}
  {operands others : List (Located (Value H))}

theorem length_le (h : Leads evaluate scope env args operands) : operands.length ≤ args.length := by
  have hlength := congrArg List.length h.spans
  rw [List.length_map, List.length_map, List.length_take] at hlength
  omega

/-- Of the values of some arguments, the first are those of fewer. -/
theorem isPrefix_of_le (h : Leads evaluate scope env args operands)
    (hothers : Leads evaluate scope env args others) (hle : others.length ≤ operands.length) :
    others <+: operands := by
  obtain ⟨_, hpasses⟩ := h.passes
  obtain ⟨_, hpasses'⟩ := hothers.passes
  obtain ⟨_, htake⟩ := hpasses.take others.length
  rw [List.take_take, Nat.min_eq_left hle] at htake
  have heq : others = operands.take others.length := by
    refine Located.eq_of_map ?_ ?_
    · rw [List.map_take]
      exact Except.ok.inj (hpasses'.unique htake).1
    · rw [List.map_take, h.spans, ← List.map_take, List.take_take, Nat.min_eq_left hle]
      exact hothers.spans
  rw [heq]
  exact List.take_prefix ..

end Leads

namespace ArgumentFold

variable {fold : ArgumentFold H} {state : fold.State} {evaluate : Evaluator H} {scope : ScopeId}
  {env : Environment H} {args : List Element}

/-- If the values of some arguments settle the result of an operation, whatever comes behind, then
those that it gets in the end lead to no other result. -/
theorem Decides.eq_of_settled {first operands : List (Located (Value H))}
    {outcome decided : Except EvalError (Value H)} (hfirst : Leads evaluate scope env args first)
    (hoperands : Leads evaluate scope env args operands)
    (hdecides : fold.Decides state args.length operands decided)
    (hsettled : ∀ others, first.length + others.length = args.length →
      fold.outcome state (first ++ others) = outcome) : decided = outcome := by
  have hfirstLength := hfirst.length_le
  have hoperandsLength := hoperands.length_le
  let fill (count : Nat) : List (Located (Value H)) := Value.nil.placed
    (List.replicate (args.length - count) ⟨"", 0, 0⟩)
  have hfill (count : Nat) : (fill count).length = args.length - count := by
    simp [fill, Value.placed]
  -- The longer of the two begins with the other, and anything may follow it.
  rcases Nat.le_total first.length operands.length with hle | hle
  · obtain ⟨rest, rfl⟩ := hoperands.isPrefix_of_le hfirst hle
    rw [← hdecides.outcome_append (fill (first ++ rest).length) (by rw [hfill]; omega),
      List.append_assoc]
    refine hsettled _ ?_
    rw [List.length_append] at hoperandsLength ⊢
    rw [hfill, List.length_append]
    omega
  · obtain ⟨rest, rfl⟩ := hfirst.isPrefix_of_le hoperands hle
    rw [← hsettled (fill (operands ++ rest).length) (by rw [hfill]; omega), List.append_assoc]
    refine (hdecides.outcome_append _ ?_).symm
    rw [List.length_append] at hfirstLength ⊢
    rw [hfill, List.length_append]
    omega

/-- If the first arguments have values that settle the result of an operation, whatever those of
the others are, then this is its result, unless one of the others halts. -/
theorem consume_of_settled {first : List (Located (Value H))}
    {outcome : Except EvalError (Value H)} (hfirst : Leads evaluate scope env args first)
    (hsettled : ∀ others, first.length + others.length = args.length →
      fold.outcome state (first ++ others) = outcome) :
    ∃ count passed after, count ≤ args.length ∧
      Passes evaluate scope env (args.take count) passed after ∧
      ((fold.consume evaluate scope state args).apply env = (outcome.mapError .fault, after) ∨
        ∃ halt, passed = .error halt ∧ first.length < count ∧
          (fold.consume evaluate scope state args).apply env = (.error halt, after)) := by
  obtain ⟨count, passed, after, hcount, hpasses, hconsume⟩ :=
    fold.consume_passes evaluate scope state args env
  refine ⟨count, passed, after, hcount, hpasses, ?_⟩
  rcases hconsume with ⟨halt, rfl, -, hhalts⟩ |
    ⟨operands, decided, rfl, rfl, hspans, hdecides, hends⟩
  · refine .inr ⟨halt, rfl, ?_, hhalts⟩
    -- None of the first arguments halts.
    by_contra hle
    obtain ⟨_, hfirstPasses⟩ := hfirst.passes
    obtain ⟨_, htake⟩ := hfirstPasses.take count
    rw [List.take_take, Nat.min_eq_left (Nat.not_lt.1 hle)] at htake
    cases (hpasses.unique htake).1
  · obtain rfl : decided = outcome :=
      hdecides.eq_of_settled hfirst ⟨hspans, after, hpasses⟩ hsettled
    exact .inl hends

end ArgumentFold

end BracketLisp
