import BracketLisp.Proofs.Eval.Operands
import Mathlib.Data.List.Induction

/-!
# `BracketLisp.Proofs.Eval.IntegerArithmetic`: arithmetic on integers

A sum, difference, product or quotient of integers is what it is without bound, or an error at
the first operand for which that is not an integer of 64 bits.

* `Arith.total?` combines integers without bound. `Arith.Exact` says that this leaves the 64 bits
  nowhere on the way, and `Arith.breach` names the fault where it does.
* `Arith.reaches_ints` carries the running total through a call, by induction on the operands
  from the front, and `integer_arithmetic_exact` concludes what the call results in.
* `quotient_and_remainder` is about calls of two operations: they fail for the same integers, and
  otherwise quotient and remainder belong together.
-/

set_option autoImplicit false

namespace BracketLisp

variable {H : Type}

namespace Arith

variable {op : Arith}

/-! ### Totals without bound -/

/-- The operation on two integers without bound, if there is a result: there is no quotient by
zero. -/
def result? (op : Arith) (a b : Int) : Option Int :=
  if op = div ∧ b = 0 then none else some (op.exact a b)

/-- What integers come to without bound, combined from the left. -/
def total? (op : Arith) : List Int64 → Option Int
  | [] => none
  | first :: others =>
    others.foldlM (fun total next => op.result? total next.toInt) first.toInt

/-- Whether all totals on the way through integers exist and fit into 64 bits. -/
def Exact (op : Arith) (ints : List Int64) : Prop :=
  ∀ count, 2 ≤ count → count ≤ ints.length →
    ∃ total, op.total? (ints.take count) = some total ∧ Integer.Fits total

instance (op : Arith) (ints : List Int64) : Decidable (op.Exact ints) :=
  decidable_of_iff
    (∀ count < ints.length + 1, 2 ≤ count →
      (op.total? (ints.take count)).any (fun total => decide (Integer.Fits total)) = true) (by
    simp only [Exact, Option.any_eq_true, decide_eq_true_eq, Nat.lt_succ_iff]
    exact ⟨fun h count hleast hcount => h count hcount hleast,
      fun h count hcount hleast => h count hleast hcount⟩)

/-- The fault of an integer for which there is no total that fits. -/
def breach (op : Arith) (int : Int64) : EvalFault :=
  if op = div ∧ int = 0 then .divisionByZero else .overflow

/-- One more integer is combined with the total of those before it. -/
theorem total?_concat {before : List Int64} (h : before ≠ []) (op : Arith) (last : Int64) :
    op.total? (before ++ [last]) =
      (op.total? before).bind fun total => op.result? total last.toInt := by
  cases before with
  | nil => exact absurd rfl h
  | cons first others =>
    rw [List.cons_append, total?, total?, List.foldlM_append]
    simp only [List.foldlM_cons, List.foldlM_nil, bind_pure]
    rfl

/-- A single integer is its own total, and one more needs a total that fits. -/
theorem exact_concat_iff {before : List Int64} (h : before ≠ []) {last : Int64} :
    op.Exact (before ++ [last]) ↔
      op.Exact before ∧
        ∃ total, op.total? (before ++ [last]) = some total ∧ Integer.Fits total := by
  have hpos := List.length_pos_iff.2 h
  constructor
  · intro hexact
    refine ⟨fun count hleast hcount => ?_, ?_⟩
    · have htotal := hexact count hleast (by rw [List.length_append]; omega)
      rwa [List.take_append_of_le_length hcount] at htotal
    · have htotal := hexact (before ++ [last]).length (by simp; omega) (Nat.le_refl _)
      rwa [List.take_length] at htotal
  · rintro ⟨hbefore, htotal⟩ count hleast hcount
    rw [List.length_append, List.length_singleton] at hcount
    rcases Nat.lt_or_ge before.length count with hlt | hle
    · rw [List.take_of_length_le (by simp; omega)]
      exact htotal
    · rw [List.take_append_of_le_length hle]
      exact hbefore count hleast hle

/-! ### Steps on words -/

/-- The words of a call are those of its integers. -/
theorem result?_toInt (op : Arith) (a b : Int64) :
    op.result? a.toInt b.toInt =
      if op = div ∧ b = 0 then none else some (op.exact a.toInt b.toInt) := by
  have hzero : b.toInt = 0 ↔ b = 0 := ⟨fun h => Int64.toInt_inj.1 h, fun h => h ▸ rfl⟩
  simp only [result?, hzero]

/-- A result that fits is that of the words. -/
theorem onInts_of_result? {a b : Int64} {n : Int} (h : op.result? a.toInt b.toInt = some n)
    (hfits : Integer.Fits n) : ∃ word, word.toInt = n ∧ op.onInts a b = .ok word := by
  rw [result?_toInt] at h
  split at h
  next => cases h
  next hdivisor =>
    obtain rfl := Option.some.inj h
    cases hword : Integer.ofInt? (op.exact a.toInt b.toInt) with
    | none => exact absurd hfits (Integer.ofInt?_eq_none_iff.1 hword)
    | some word =>
      refine ⟨word, Integer.ofInt?_eq_some_iff.1 hword, ?_⟩
      rw [onInts, if_neg hdivisor, hword]

/-- Words without a result that fits have a fault. -/
theorem onInts_eq_breach {a b : Int64}
    (h : ¬∃ n, op.result? a.toInt b.toInt = some n ∧ Integer.Fits n) :
    op.onInts a b = .error (op.breach b) := by
  rw [onInts, breach]
  split
  next => rfl
  next hdivisor =>
    have hresult : op.result? a.toInt b.toInt = some (op.exact a.toInt b.toInt) := by
      rw [result?_toInt, if_neg hdivisor]
    have hfits : ¬Integer.Fits (op.exact a.toInt b.toInt) := fun hfits => h ⟨_, hresult, hfits⟩
    rw [Integer.ofInt?_eq_none_iff.2 hfits]

/-! ### Runs through operands -/

/-- The step of the operation for an integer behind others. -/
theorem step_fold_int {operand : Located (Value H)} {next : Int64}
    (h : operand.value = .int next) (op : Arith) (total : Int64) :
    op.fold.step (some (.int total)) operand =
      match op.onInts total next with
      | .ok word => .ok (.next (some (.int word)))
      | .error fault => .error ⟨fault, operand.span⟩ := by
  rw [step_fold_some, h, combine]
  cases op.onInts total next <;> rfl

/-- Integers with exact totals lead a call to their total. -/
theorem reaches_ints {ints : List Int64} {operands : List (Located (Value H))}
    (hvalues : operands.map Located.value = ints.map .int) (hne : ints ≠ [])
    (hexact : op.Exact ints) :
    ∃ word, op.total? ints = some word.toInt ∧
      op.fold.Reaches none operands (some (.int word)) := by
  -- Induction from the end, because a total is made of the one before it.
  induction ints using List.reverseRecOn generalizing operands with
  | nil => exact absurd rfl hne
  | append_singleton before last ih =>
    rw [List.map_append] at hvalues
    obtain ⟨front, operand, rfl, hfront, hoperand⟩ := Located.concat_of_map hvalues
    by_cases hbefore : before = []
    · subst hbefore
      obtain rfl := List.map_eq_nil_iff.1 hfront
      refine ⟨last, rfl, .next ?_ (.done _)⟩
      rw [step_fold_none, hoperand]
      rfl
    · obtain ⟨hexact, total, htotal, hfits⟩ := (exact_concat_iff hbefore).1 hexact
      obtain ⟨word, hword, hreaches⟩ := ih hfront hbefore hexact
      rw [total?_concat hbefore, hword, Option.bind_some] at htotal
      obtain ⟨later, rfl, hlater⟩ := onInts_of_result? htotal hfits
      refine ⟨later, ?_, hreaches.concat ?_⟩
      · rw [total?_concat hbefore, hword, Option.bind_some, htotal]
      · rw [step_fold_int hoperand, hlater]

/-- At the first integer without a total that fits, a call is refused. -/
theorem decides_breach {before : List Int64} {last : Int64} {front : List (Located (Value H))}
    {operand : Located (Value H)} (hfront : front.map Located.value = before.map .int)
    (hoperand : operand.value = .int last) (hbefore : op.Exact before)
    (hlast : ¬op.Exact (before ++ [last])) (more : Nat) :
    op.fold.Decides none (front.length + (more + 1)) (front ++ [operand])
      (.error ⟨op.breach last, operand.span⟩) := by
  have hne : before ≠ [] := by
    rintro rfl
    refine hlast fun count hleast hcount => ?_
    rw [List.nil_append, List.length_singleton] at hcount
    omega
  obtain ⟨word, hword, hreaches⟩ := reaches_ints hfront hne hbefore
  have hresult : ¬∃ n, op.result? word.toInt last.toInt = some n ∧ Integer.Fits n := by
    intro hresult
    refine hlast ((exact_concat_iff hne).2 ⟨hbefore, ?_⟩)
    rwa [total?_concat hne, hword]
  refine hreaches.decides (.refuse more ?_)
  rw [step_fold_int hoperand, onInts_eq_breach hresult]

end Arith

/-- A call of `+`, `-`, `*` or `/` whose arguments, as far as they are evaluated, are integers. If
every total on the way, taken without bound, exists and fits into 64 bits, the last of them is the
result. Otherwise the call fails at the first argument for which there is none, and the arguments
behind that are not evaluated. With `eval fuel` for `evaluate`, the step is `eval (fuel + 1)`. -/
theorem integer_arithmetic_exact [Host H] (fuel : Nat) {op : Arith} {evaluate : Evaluator H}
    {call : Call} {scope : ScopeId} {env after : Environment H}
    {operands : List (Located (Value H))} {ints : List Int64} (hcount : 2 ≤ call.args.length)
    (hgets : (Operation.arithmetic op).Gets evaluate call scope env operands after)
    (hints : operands.map Located.value = ints.map .int) :
    (operands.length = call.args.length → op.Exact ints →
      ∃ result : Int64, op.total? ints = some result.toInt ∧
        (Element.step fuel evaluate call.form.element scope).apply env =
          (.ok (.int result), after)) ∧
    ∀ before last operand, ints = before ++ [last] → operands.getLast? = some operand →
      op.Exact before → ¬op.Exact ints →
      (Element.step fuel evaluate call.form.element scope).apply env =
        (.error (.fault ⟨op.breach last, operand.span⟩), after) := by
  constructor
  · intro hall hexact
    have hne : ints ≠ [] := by
      rintro rfl
      rw [List.map_eq_nil_iff.1 hints, List.length_nil] at hall
      omega
    obtain ⟨result, htotal, hreaches⟩ := Arith.reaches_ints hints hne hexact
    have hdecides := hreaches.finishes
    rw [hall] at hdecides
    exact ⟨result, htotal, hgets.result fuel hcount hdecides⟩
  · rintro before last operand rfl hlast hbefore hbreaks
    rw [List.map_append] at hints
    obtain ⟨front, found, rfl, hfront, hfound⟩ := Located.concat_of_map hints
    obtain rfl : found = operand := by simpa using hlast
    have hle := hgets.length_le
    rw [List.length_append, List.length_singleton] at hle
    obtain ⟨more, hmore⟩ := Nat.exists_eq_add_of_le hle
    have hdecides := Arith.decides_breach hfront hfound hbefore hbreaks more
    have hlength : front.length + (more + 1) = call.args.length := by omega
    rw [hlength] at hdecides
    exact hgets.result fuel hcount hdecides

/-- The product of the first two integers would come back into 64 bits if it wrapped, and with the
third the total would be zero. The first quotient is cut off toward zero. -/
theorem integer_arithmetic_exact_product :
    (eval 6 (.list .paren [.symbol (numberOf [] "*") ⟨"t", 1, 2⟩, .int 4294967296 ⟨"t", 1, 4⟩,
        .int 4294967296 ⟨"t", 1, 15⟩, .int 0 ⟨"t", 1, 26⟩] ⟨"t", 1, 1⟩) .root).apply
        (.full 0 : Environment Empty) =
      (.error (.fault ⟨.overflow, ⟨"t", 1, 15⟩⟩), .full 0) ∧
    (eval 6 (.list .paren [.symbol (numberOf [] "/") ⟨"t", 1, 2⟩, .int (-7) ⟨"t", 1, 4⟩,
        .int 2 ⟨"t", 1, 7⟩, .int (-1) ⟨"t", 1, 9⟩] ⟨"t", 1, 1⟩) .root).apply
        (.full 0 : Environment Empty) =
      (.ok (.int 3), .full 0) := by
  let product : Call := ⟨.paren, .symbol (numberOf [] "*") ⟨"t", 1, 2⟩,
    [.int 4294967296 ⟨"t", 1, 4⟩, .int 4294967296 ⟨"t", 1, 15⟩, .int 0 ⟨"t", 1, 26⟩], ⟨"t", 1, 1⟩⟩
  let quotient : Call := ⟨.paren, .symbol (numberOf [] "/") ⟨"t", 1, 2⟩,
    [.int (-7) ⟨"t", 1, 4⟩, .int 2 ⟨"t", 1, 7⟩, .int (-1) ⟨"t", 1, 9⟩], ⟨"t", 1, 1⟩⟩
  have hproduct : (Operation.arithmetic .mul).Gets (eval 5) product .root
      (.full 0 : Environment Empty)
      [⟨.int 4294967296, ⟨"t", 1, 4⟩⟩, ⟨.int 4294967296, ⟨"t", 1, 15⟩⟩] (.full 0) :=
    Operation.gets_full (by decide) (.next rfl (.next rfl (.done _))) rfl
  let operands : List (Located (Value Empty)) :=
    [⟨.int (-7), ⟨"t", 1, 4⟩⟩, ⟨.int 2, ⟨"t", 1, 7⟩⟩, ⟨.int (-1), ⟨"t", 1, 9⟩⟩]
  have hquotient : (Operation.arithmetic .div).Gets (eval 5) quotient .root (.full 0) operands
      (.full 0) :=
    Operation.gets_full (by decide) (.next rfl (.next rfl (.next rfl (.done _)))) rfl
  have hints : operands.map Located.value = [-7, 2, -1].map .int := rfl
  constructor
  · exact (integer_arithmetic_exact 5 (by decide) hproduct rfl).2 [4294967296] 4294967296 _ rfl rfl
      (by decide) (by decide)
  · obtain ⟨result, htotal, hresult⟩ :=
      (integer_arithmetic_exact 5 (by decide) hquotient hints).1 rfl (by decide)
    have hthree : Arith.div.total? [-7, 2, -1] = some (3 : Int64).toInt := by decide
    obtain rfl : result = 3 := Int64.toInt_inj.1 (Option.some.inj (htotal.symm.trans hthree))
    exact hresult

/-! ### Quotients and remainders -/

/-- The quotient of two words fits, unless it is the opposite of the least one. -/
theorem fits_tdiv {l r : Int64} (hzero : r ≠ 0) (hleast : ¬(l = Int64.minValue ∧ r = -1)) :
    Integer.Fits (l.toInt.tdiv r.toInt) := by
  have hmin : Int64.minValue.toInt = -9223372036854775808 := by decide
  have hmax : Int64.maxValue.toInt = 9223372036854775807 := by decide
  obtain ⟨hlower, hupper⟩ := Integer.fits_toInt l
  have hne : r.toInt ≠ 0 := fun h => hzero (Int64.toInt_inj.1 h)
  by_cases hone : r.toInt.natAbs = 1
  · obtain hr | hr : r.toInt = 1 ∨ r.toInt = -1 := by omega
    · rw [hr, Int.tdiv_one]
      exact Integer.fits_toInt l
    · have hl : l.toInt ≠ -9223372036854775808 := fun hl =>
        hleast ⟨Int64.toInt_inj.1 (hl.trans hmin.symm), Int64.toInt_inj.1 hr⟩
      rw [hr, Int.tdiv_neg, Int.tdiv_one]
      exact ⟨by omega, by omega⟩
  · -- A greater divisor leaves at most half of the dividend.
    have habs : (l.toInt.tdiv r.toInt).natAbs = l.toInt.natAbs / r.toInt.natAbs :=
      Int.natAbs_tdiv ..
    have hhalf : (l.toInt.tdiv r.toInt).natAbs ≤ l.toInt.natAbs / 2 :=
      habs ▸ Nat.div_le_div_left (by omega) (by decide)
    exact ⟨by omega, by omega⟩

/-- Two operands are combined, if the first may stand there. -/
theorem Arith.decides_pair {op : Arith} {left : Located (Value H)}
    (h : op.accepts left.value = true) (right : Located (Value H)) :
    op.fold.Decides none 2 [left, right] (right.blame (op.combine left.value right.value)) := by
  have hleft : op.fold.Reaches none [left] (some left.value) :=
    .next (by rw [step_fold_none, if_pos h]) (.done _)
  have hstep := step_fold_some op left.value right
  cases hcombine : op.combine left.value right.value with
  | error fault =>
    rw [hcombine] at hstep
    exact hleft.decides (.refuse 0 hstep)
  | ok result =>
    rw [hcombine] at hstep
    exact (hleft.concat hstep).finishes

/-- `/` gives the quotient of two integers, or what keeps it from existing. -/
theorem gives_quotient [Host H] (l r : Int64) (place place' : Position) :
    (Operation.arithmetic .div).Gives (H := H) [⟨.int l, place⟩, ⟨.int r, place'⟩]
      (Located.blame ⟨Value.int (H := H) r, place'⟩ ((Arith.div.onInts l r).map .int)) :=
  Operation.gives_of_decides (Nat.le_refl 2) (Arith.decides_pair rfl _)

/-- `%` gives the remainder of two integers, or what keeps it from existing. -/
theorem gives_remainder [Host H] (l r : Int64) (place place' : Position) :
    Operation.remainder.Gives (H := H) [⟨.int l, place⟩, ⟨.int r, place'⟩]
      (Located.blame ⟨Value.int (H := H) r, place'⟩ ((remainder l r).map .int)) :=
  Operation.gives_of_decides rfl (ArgumentFold.binary_decides remainderOf _ _)

/-- Calls of `/` and of `%` on the same two integers. Both fail at the divisor if it is zero, and
both if the quotient does not fit, which is so for the least integer and -1 alone. Otherwise both
have a result, and the remainder is what the quotient leaves of the dividend: it is smaller than the
divisor, and zero or of the sign of the dividend. -/
theorem quotient_and_remainder [Host H] (l r : Int64)
    (dividend divisor dividend' divisor' : Position) :
    (r = 0 →
      (Operation.arithmetic .div).Gives (H := H) [⟨.int l, dividend⟩, ⟨.int r, divisor⟩]
        (.error ⟨.divisionByZero, divisor⟩) ∧
      Operation.remainder.Gives (H := H) [⟨.int l, dividend'⟩, ⟨.int r, divisor'⟩]
        (.error ⟨.divisionByZero, divisor'⟩)) ∧
    (l = Int64.minValue ∧ r = -1 →
      (Operation.arithmetic .div).Gives (H := H) [⟨.int l, dividend⟩, ⟨.int r, divisor⟩]
        (.error ⟨.overflow, divisor⟩) ∧
      Operation.remainder.Gives (H := H) [⟨.int l, dividend'⟩, ⟨.int r, divisor'⟩]
        (.error ⟨.overflow, divisor'⟩)) ∧
    (r ≠ 0 → ¬(l = Int64.minValue ∧ r = -1) →
      ∃ quotient rest : Int64,
        (Operation.arithmetic .div).Gives (H := H) [⟨.int l, dividend⟩, ⟨.int r, divisor⟩]
          (.ok (.int quotient)) ∧
        Operation.remainder.Gives (H := H) [⟨.int l, dividend'⟩, ⟨.int r, divisor'⟩]
          (.ok (.int rest)) ∧
        l.toInt = quotient.toInt * r.toInt + rest.toInt ∧
        rest.toInt.natAbs < r.toInt.natAbs ∧
        (rest.toInt = 0 ∨ rest.toInt.sign = l.toInt.sign)) := by
  have hquotient := gives_quotient (H := H) l r dividend divisor
  have hrest := gives_remainder (H := H) l r dividend' divisor'
  refine ⟨?_, ?_, ?_⟩
  · rintro rfl
    exact ⟨hquotient, hrest⟩
  · rintro ⟨rfl, rfl⟩
    have hoverflow : Arith.div.onInts Int64.minValue (-1) = .error .overflow := by decide
    rw [hoverflow] at hquotient
    exact ⟨hquotient, hrest⟩
  · intro hzero hleast
    have hresult : Arith.div.result? l.toInt r.toInt = some (l.toInt.tdiv r.toInt) := by
      rw [Arith.result?_toInt, if_neg fun h => hzero h.2]
      rfl
    obtain ⟨quotient, hvalue, hword⟩ := Arith.onInts_of_result? hresult (fits_tdiv hzero hleast)
    rw [hword] at hquotient
    rw [remainder, if_neg hzero, if_neg hleast] at hrest
    refine ⟨quotient, _, hquotient, hrest, ?_⟩
    rw [hvalue, Int64.toInt_mod]
    refine ⟨?_, ?_, ?_⟩
    · rw [Int.mul_comm, Int.mul_tdiv_add_tmod]
    · rw [Int.natAbs_tmod]
      exact Nat.mod_lt _ (Int.natAbs_pos.2 fun h => hzero (Int64.toInt_inj.1 h))
    · rw [← Int.sign_eq_zero_iff_zero, Int.sign_tmod]
      split
      · exact .inl rfl
      · exact .inr rfl

/-- The least integer has neither a quotient nor a remainder by -1. -/
theorem quotient_and_remainder_least :
    (eval 6 (.list .paren [.symbol (numberOf [] "/") ⟨"t", 1, 2⟩,
        .int (-9223372036854775808) ⟨"t", 1, 4⟩, .int (-1) ⟨"t", 1, 25⟩] ⟨"t", 1, 1⟩) .root).apply
        (.full 0 : Environment Empty) =
      (.error (.fault ⟨.overflow, ⟨"t", 1, 25⟩⟩), .full 0) ∧
    (eval 6 (.list .paren [.symbol (numberOf [] "%") ⟨"t", 2, 2⟩,
        .int (-9223372036854775808) ⟨"t", 2, 4⟩, .int (-1) ⟨"t", 2, 25⟩] ⟨"t", 2, 1⟩) .root).apply
        (.full 0 : Environment Empty) =
      (.error (.fault ⟨.overflow, ⟨"t", 2, 25⟩⟩), .full 0) := by
  obtain ⟨hquotient, hrest⟩ := (quotient_and_remainder (H := Empty) (-9223372036854775808) (-1)
    ⟨"t", 1, 4⟩ ⟨"t", 1, 25⟩ ⟨"t", 2, 4⟩ ⟨"t", 2, 25⟩).2.1 (by decide)
  let quotient : Call := ⟨.paren, .symbol (numberOf [] "/") ⟨"t", 1, 2⟩,
    [.int (-9223372036854775808) ⟨"t", 1, 4⟩, .int (-1) ⟨"t", 1, 25⟩], ⟨"t", 1, 1⟩⟩
  let rest : Call := ⟨.paren, .symbol (numberOf [] "%") ⟨"t", 2, 2⟩,
    [.int (-9223372036854775808) ⟨"t", 2, 4⟩, .int (-1) ⟨"t", 2, 25⟩], ⟨"t", 2, 1⟩⟩
  constructor
  · exact hquotient 5 (eval 5) quotient .root (.full 0) (.full 0)
      (Operation.gets_full (by decide) (.next rfl (.next rfl (.done _))) rfl) rfl
  · exact hrest 5 (eval 5) rest .root (.full 0) (.full 0)
      (Operation.gets_full (by decide) (.next rfl (.next rfl (.done _))) rfl) rfl

end BracketLisp
