import BracketLisp.Proofs.Eval.Refusal
import Mathlib.Data.List.Induction

/-!
# `BracketLisp.Proofs.Eval.Row`: the arguments that a call evaluates in a row

A call of an entry of the catalog evaluates some of its arguments, one after the other. The entry
and the values so far tell which of them is next.

* `Builtin.Next` has a case for each way to go on. An operation takes one argument after the other
  as long as it has to, `do` takes all, `set` the one behind its target, `if` its test and one
  branch, and `while` its test and its body in turn. `func` evaluates nothing.
* `Builtin.Visits` says that elements are such a row from its start.
* `visits_of_reaches`, `visits_of_decides` and `visits_sequence` find the rows from the left, and
  `Visits.round` is a step for the rounds of a loop.
-/

set_option autoImplicit false

namespace BracketLisp

variable {H : Type}

/-- What the test and the body of a loop have as values, if each round ends with one of these. -/
def roundValues (results : List (Value H)) : List (Value H) :=
  results.flatMap fun result => [.bool true, result]

/-- Whether an entry of the catalog that is called with `args`, and has evaluated some of them to
these values, evaluates the argument next. -/
inductive Builtin.Next (args : List Element) : Builtin → List (Value H) → Element → Prop where
  /-- An operation goes on from the left, until its result is settled. -/
  | operation {operation : Operation} {operands : List (Located (Value H))}
      {later : (operation.fold : ArgumentFold H).State} {argument : Element}
      (hadmits : operation.arity.Admits args.length)
      (hspans : operands.map Located.span = (args.take operands.length).map Element.span)
      (hreaches : operation.fold.Reaches operation.fold.start operands later)
      (hargument : args[operands.length]? = some argument) :
      Next args (.operation operation) (operands.map Located.value) argument
  /-- `do` goes on from the left, up to the end. -/
  | sequence {values : List (Value H)} {argument : Element}
      (hargument : args[values.length]? = some argument) :
      Next args (.form .sequence) values argument
  /-- The element that `set` binds a symbol to. -/
  | assign {target element : Element} (hargs : args = [target, element])
      (hsymbol : target.symbol? ≠ none) : Next args (.form .assign) [] element
  /-- The test of `if`. -/
  | test {test consequent alternative : Element} (hargs : args = [test, consequent, alternative]) :
      Next args (.form .branch) [] test
  /-- The branch that the test of `if` chooses. -/
  | chosen {test consequent alternative : Element}
      (hargs : args = [test, consequent, alternative]) (truth : Bool) :
      Next args (.form .branch) [.bool truth] (if truth then consequent else alternative)
  /-- The test of `while`, after some rounds. -/
  | again {test body : Element} (hargs : args = [test, body]) (results : List (Value H)) :
      Next args (.form .loop) (roundValues results) test
  /-- The body of `while`, once the test is true after some rounds. -/
  | round {test body : Element} (hargs : args = [test, body]) (results : List (Value H)) :
      Next args (.form .loop) (roundValues results ++ [.bool true]) body

/-- Whether elements are the arguments that an entry of the catalog evaluates first, if they get
these values. -/
inductive Builtin.Visits (entry : Builtin) (args : List Element) :
    List Element → List (Value H) → Prop where
  | start : Visits entry args [] []
  | next {elements : List Element} {values : List (Value H)} {argument : Element}
      (h : Visits entry args elements values) (hnext : entry.Next args values argument)
      (value : Value H) : Visits entry args (elements ++ [argument]) (values ++ [value])

/-! ### Rows from the left -/

namespace ArgumentFold

variable {fold : ArgumentFold H} {state later : fold.State} {count : Nat}
  {operands : List (Located (Value H))} {outcome : Except EvalError (Value H)}

/-- An operation that goes on after some operands does so after all but the last. -/
theorem Reaches.of_concat {operand : Located (Value H)}
    (h : fold.Reaches state (operands ++ [operand]) later) :
    ∃ mid, fold.Reaches state operands mid := by
  induction operands generalizing state with
  | nil => exact ⟨state, .done state⟩
  | cons first operands ih =>
    cases h with
    | next h hothers =>
      obtain ⟨mid, hmid⟩ := ih hothers
      exact ⟨mid, .next h hmid⟩

/-- An operation goes on after all operands but the one that settles its result. -/
theorem Decides.exists_reaches (h : fold.Decides state count operands outcome) :
    operands = [] ∨ ∃ front operand mid, operands = front ++ [operand] ∧
      fold.Reaches state front mid := by
  induction h with
  | finish => exact .inl rfl
  | @refuse state operand | @stop state operand =>
    exact .inr ⟨[], operand, state, rfl, .done state⟩
  | @next state later operand count operands outcome h _ ih =>
    refine .inr ?_
    rcases ih with rfl | ⟨front, last, mid, rfl, hreaches⟩
    · exact ⟨[], operand, state, rfl, .done state⟩
    · exact ⟨operand :: front, last, mid, rfl, .next h hreaches⟩

end ArgumentFold

namespace Builtin

variable {args : List Element} {operation : Operation} {operands : List (Located (Value H))}

/-- An operation that goes on after some operands evaluates one argument more. -/
theorem Visits.concat_operand {operand : Located (Value H)}
    {later : (operation.fold : ArgumentFold H).State}
    (hadmits : operation.arity.Admits args.length)
    (hspans : (operands ++ [operand]).map Located.span =
      (args.take (operands ++ [operand]).length).map Element.span)
    (hreaches : operation.fold.Reaches operation.fold.start operands later)
    (h : (Builtin.operation operation).Visits args (args.take operands.length)
      (operands.map Located.value)) :
    (Builtin.operation operation).Visits args (args.take (operands ++ [operand]).length)
      ((operands ++ [operand]).map Located.value) := by
  have hlt : operands.length < args.length := by
    have hlength := congrArg List.length hspans
    simp only [List.length_map, List.length_append, List.length_singleton,
      List.length_take] at hlength
    omega
  have hargument : args[operands.length]? = some args[operands.length] :=
    List.getElem?_eq_getElem hlt
  have hfront := spans_of_prefix hspans (List.prefix_append operands [operand])
  rw [List.length_append, List.length_singleton, List.take_add_one, hargument, List.map_append]
  exact h.next (.operation hadmits hfront hreaches hargument) operand.value

/-- The arguments that an operation goes on after are in its row. -/
theorem visits_of_reaches {later : (operation.fold : ArgumentFold H).State}
    (hadmits : operation.arity.Admits args.length)
    (hspans : operands.map Located.span = (args.take operands.length).map Element.span)
    (h : operation.fold.Reaches operation.fold.start operands later) :
    (Builtin.operation operation).Visits args (args.take operands.length)
      (operands.map Located.value) := by
  -- A row grows at its end, and so the induction takes the last operand away.
  induction operands using List.reverseRecOn generalizing later with
  | nil => exact .start
  | append_singleton operands operand ih =>
    obtain ⟨mid, hreaches⟩ := h.of_concat
    have hfront := spans_of_prefix hspans (List.prefix_append operands [operand])
    exact (ih hfront hreaches).concat_operand hadmits hspans hreaches

/-- The arguments that settle the result of an operation are in its row. -/
theorem visits_of_decides {outcome : Except EvalError (Value H)}
    (hadmits : operation.arity.Admits args.length)
    (hspans : operands.map Located.span = (args.take operands.length).map Element.span)
    (h : operation.fold.Decides operation.fold.start args.length operands outcome) :
    (Builtin.operation operation).Visits args (args.take operands.length)
      (operands.map Located.value) := by
  -- The operand that settles the result is evaluated, but the operation does not go on after it.
  rcases h.exists_reaches with rfl | ⟨front, operand, mid, rfl, hreaches⟩
  · exact .start
  · have hfront := spans_of_prefix hspans (List.prefix_append front [operand])
    exact (visits_of_reaches hadmits hfront hreaches).concat_operand hadmits hspans hreaches

/-- All arguments are in the row of `do`. -/
theorem visits_sequence {values : List (Value H)} (h : values.length ≤ args.length) :
    (Builtin.form .sequence).Visits args (args.take values.length) values := by
  induction values using List.reverseRecOn with
  | nil => exact .start
  | append_singleton values value ih =>
    rw [List.length_append, List.length_singleton] at h ⊢
    have hargument : args[values.length]? = some args[values.length] := List.getElem?_eq_getElem h
    rw [List.take_add_one, hargument]
    exact (ih (Nat.le_of_succ_le h)).next (.sequence hargument) value

/-! ### Rounds of a loop -/

/-- A round may stand in front of what a loop evaluates. -/
theorem Next.round_front {test body argument : Element} {values : List (Value H)}
    (h : (Builtin.form .loop).Next [test, body] values argument) (result : Value H) :
    (Builtin.form .loop).Next [test, body] (.bool true :: result :: values) argument := by
  cases h with
  | again hargs results => exact .again hargs (result :: results)
  | round hargs results => exact .round hargs (result :: results)

theorem Visits.round_front {test body : Element} {elements : List Element}
    {values : List (Value H)}
    (h : (Builtin.form .loop).Visits [test, body] elements values) (result : Value H) :
    (Builtin.form .loop).Visits [test, body] (test :: body :: elements)
      (.bool true :: result :: values) := by
  induction h with
  -- The round by itself: its test is true, and its body has the result.
  | start => exact .next (.next .start (.again rfl []) (.bool true)) (.round rfl []) result
  | next _ hnext value ih => exact ih.next (hnext.round_front result) value

end Builtin

end BracketLisp
