import BracketLisp.Proofs.Eval.Refusal

/-!
# `BracketLisp.Proofs.Eval.CatalogRefusal`: what the operations of the catalog refuse

* Arithmetic, logic, bits and conversions look at each operand when they get it. For arithmetic
  the invariant is that the total so far may stand first again.
* Remainders, comparisons and shifts look at their left operand first.
* Equality compares neighbours from the left, when it has all operands. It refuses the right
  one of the first two neighbours that do not go together.

`Operation.refuses_of_decides` goes through the catalog.
-/

set_option autoImplicit false

namespace BracketLisp

variable {H : Type}

open ArgumentFold (Prompt RefusesLeft prompt_of_check)

/-! ### Arithmetic -/

namespace Arith

variable {op : Arith}

/-- An integer that changes no number that it is combined with. -/
def neutral : Arith → Int64
  | add | sub => 0
  | mul | div => 1

theorem onInts_neutral (op : Arith) (a : Int64) : op.onInts a op.neutral = .ok a := by
  have hexact : op.exact a.toInt op.neutral.toInt = a.toInt := by
    cases op <;> simp [exact, neutral]
  have hzero : ¬ (op = div ∧ op.neutral = 0) := by
    rintro ⟨rfl, hzero⟩
    cases hzero
  rw [onInts, if_neg hzero, hexact, Integer.ofInt?_toInt]

theorem isOf_of_onInts {a b : Int64} {fault : EvalFault} (h : op.onInts a b = .error fault)
    (kind : Kind) : fault.IsOf kind := by
  rcases fault_of_onInts h with rfl | rfl <;> trivial

/-- A value that does not go with those before it is the one that is refused. -/
theorem isOf_of_combine {total value : Value H} {fault : EvalFault}
    (h : op.combine total value = .error fault) : fault.IsOf value.kind := by
  cases total with
  | int a =>
    cases value with
    | int b => exact isOf_of_onInts (eq_error_of_map h) _
    | float _ => cases h
    | _ => cases h; rfl
  | float a =>
    cases value with
    | int _ | float _ => cases h
    | _ => cases h; rfl
  | string a =>
    cases value with
    | bool _ | int _ | float _ | string _ => cases h
    | _ => cases h; rfl
  | _ => cases value <;> (cases h; rfl)

/-- What has come so far may always stand first again. -/
theorem accepts_of_combine {total value later : Value H} (htotal : op.accepts total = true)
    (h : op.combine total value = .ok later) : op.accepts later = true := by
  cases total with
  | int a =>
    cases value with
    | int b =>
      cases hresult : op.onInts a b <;> simp [combine, hresult, Except.map] at h
      exact h ▸ rfl
    | float b => exact Except.ok.inj h ▸ rfl
    | _ => cases h
  | float a =>
    cases value with
    | int _ | float _ => exact Except.ok.inj h ▸ rfl
    | _ => cases h
  | string a =>
    cases value with
    | bool _ | int _ | float _ | string _ => exact Except.ok.inj h ▸ htotal
    | _ => cases h
  | _ => cases htotal

/-- No number and no text is at fault by itself. -/
theorem combine_neutral {total : Value H} (htotal : op.accepts total = true) :
    ∃ later, op.combine total (.int op.neutral) = .ok later := by
  cases total with
  | int a => exact ⟨.int a, by rw [combine, onInts_neutral]; rfl⟩
  | float a => exact ⟨_, rfl⟩
  | string a => exact ⟨_, rfl⟩
  | _ => cases htotal

theorem step_fold_none (op : Arith) (operand : Located (Value H)) :
    op.fold.step none operand =
      if op.accepts operand.value then .ok (.next (some operand.value))
      else .error ⟨.nonArithmetic operand.value.kind, operand.span⟩ :=
  rfl

theorem step_fold_some (op : Arith) (total : Value H) (operand : Located (Value H)) :
    op.fold.step (some total) operand =
      (operand.blame (op.combine total operand.value)).map fun total => .next (some total) :=
  rfl

/-- Arithmetic keeps to totals that may stand first again. -/
theorem prompt_fold (op : Arith) :
    (op.fold (H := H)).Prompt fun total? =>
      ∀ total, total? = some total → op.accepts total = true where
  start _ h := by cases h
  next {total? operand later} hinv h := by
    cases total? with
    | none =>
      rw [step_fold_none] at h
      split at h
      next haccepts =>
        cases h
        rintro _ ⟨⟩
        exact haccepts
      next => cases h
    | some total =>
      rw [step_fold_some] at h
      cases hcombine : op.combine total operand.value with
      | error fault =>
        rw [hcombine] at h
        cases h
      | ok result =>
        rw [hcombine] at h
        cases h
        rintro _ ⟨⟩
        exact accepts_of_combine (hinv total rfl) hcombine
  blames {total? operand error} h := by
    cases total? with
    | none =>
      rw [step_fold_none] at h
      split at h
      · cases h
      · cases h
        exact ⟨rfl, rfl⟩
    | some total =>
      rw [step_fold_some] at h
      exact Located.blames_of_blame (eq_error_of_map h) fun fault => isOf_of_combine
  accepts {total?} hinv := by
    refine ⟨.int op.neutral, fun span => ?_⟩
    cases total? with
    | none => exact ⟨_, rfl⟩
    | some total =>
      obtain ⟨later, hlater⟩ := combine_neutral (hinv total rfl)
      exact ⟨.next (some later), by rw [step_fold_some, hlater]; rfl⟩
  finish _ := ⟨_, rfl⟩

end Arith

/-! ### Remainders and shifts -/

/-- An operation that asks for an integer on the left before it looks to the right. -/
theorem refusesLeft_of_int {g : Int64 → Located (Value H) → Except EvalError (Value H)}
    (hblames : ∀ {a right error}, g a right = .error error → error.Blames right)
    (haccepts : ∀ a, ∃ value, ∀ span, ∃ result, g a ⟨value, span⟩ = .ok result) :
    RefusesLeft fun left right => intOperand left >>= fun a => g a right where
  refuses {left right error} h := by
    cases hleft : intOperand left with
    | error other =>
      rw [hleft] at h
      cases h
      exact .inl ⟨blames_of_intOperand hleft, fun _ => rfl⟩
    | ok a =>
      rw [hleft] at h
      exact .inr ⟨hblames h, haccepts a⟩
  accepts := by
    obtain ⟨value, hvalue⟩ := haccepts 0
    exact ⟨.int 0, value, fun _ span => hvalue span⟩

theorem refusesLeft_remainder : RefusesLeft (remainderOf (H := H)) := by
  refine refusesLeft_of_int (fun {a right error} h => ?_) fun a => ⟨.int 1, fun span => ?_⟩
  · cases hright : intOperand right with
    | error other =>
      rw [hright] at h
      cases h
      exact blames_of_intOperand hright
    | ok b =>
      rw [hright] at h
      refine Located.blames_of_blame h fun fault hfault => ?_
      rcases fault_of_remainder (eq_error_of_map hfault) with rfl | rfl <;> trivial
  · have hremainder : remainder a 1 = .ok (a % 1) := by
      rw [remainder, if_neg (by decide), if_neg (fun h => absurd h.2 (by decide))]
    refine ⟨.int (a % 1), ?_⟩
    show Located.blame _ ((remainder a 1).map _) = _
    rw [hremainder]
    rfl

theorem blames_of_shiftOperand {operand : Located (Value H)} {error : EvalError}
    (h : shiftOperand operand = .error error) : error.Blames operand := by
  rw [shiftOperand_eq] at h
  cases hoperand : intOperand operand with
  | error other =>
    rw [hoperand] at h
    cases h
    exact blames_of_intOperand hoperand
  | ok count =>
    rw [hoperand] at h
    change (if 0 ≤ count.toInt ∧ count.toInt ≤ greatestShift then Except.ok count.toInt.toNat
      else .error ⟨.outOfRange count.toInt 0 greatestShift, operand.span⟩) = .error error at h
    split at h
    · cases h
    · cases h
      exact ⟨rfl, trivial⟩

theorem refusesLeft_shift (shift : Int64 → Nat → Int64) :
    RefusesLeft (shiftOf (H := H) shift) := by
  refine refusesLeft_of_int (fun {a right error} h => ?_) fun a => ⟨.int 0, fun span => ⟨_, rfl⟩⟩
  cases hright : shiftOperand right with
  | error other =>
    rw [hright] at h
    cases h
    exact blames_of_shiftOperand hright
  | ok count =>
    rw [hright] at h
    cases h

/-! ### Order -/

/-- A value that is neither a number nor a string has no order with any. -/
theorem order_of_unordered {left : Located (Value H)}
    (h : ¬(left.value.isNumeric = true ∨ left.value.kind = .string))
    (right : Located (Value H)) :
    order left right = .error ⟨.nonArithmetic left.value.kind, left.span⟩ := by
  obtain ⟨left, leftSpan⟩ := left
  obtain ⟨right, rightSpan⟩ := right
  cases left with
  | int _ | float _ => exact absurd (.inl rfl) h
  | string _ => exact absurd (.inr rfl) h
  | _ => cases right <;> rfl

/-- A number or a string has an order with itself, so another value is at fault. -/
theorem blames_of_order {left right : Located (Value H)} {error : EvalError}
    (hleft : left.value.isNumeric = true ∨ left.value.kind = .string)
    (h : order left right = .error error) :
    error.Blames right ∧ ∀ span, ∃ result, order left ⟨left.value, span⟩ = .ok result := by
  obtain ⟨left, leftSpan⟩ := left
  obtain ⟨right, rightSpan⟩ := right
  cases left with
  | int _ | float _ | string _ =>
    refine ⟨?_, fun _ => ⟨_, rfl⟩⟩
    cases right <;> cases h <;> exact ⟨rfl, rfl⟩
  | _ => simp [Value.isNumeric, Value.kind] at hleft

theorem refusesLeft_compare (comparison : Comparison) :
    RefusesLeft (comparison.of (H := H)) where
  refuses {left right error} h := by
    have horder : order left right = .error error := by
      cases horder : order left right with
      | error other =>
        rw [Comparison.of, horder] at h
        exact congrArg Except.error (Except.error.inj h)
      | ok ordering? =>
        rw [Comparison.of, horder] at h
        cases h
    by_cases hleft : left.value.isNumeric = true ∨ left.value.kind = .string
    · obtain ⟨hblames, hsame⟩ := blames_of_order hleft horder
      refine .inr ⟨hblames, left.value, fun span => ?_⟩
      obtain ⟨ordering?, hordering⟩ := hsame span
      exact ⟨_, by rw [Comparison.of, hordering]; rfl⟩
    · have hother := order_of_unordered hleft
      cases horder.symm.trans (hother right)
      exact .inl ⟨⟨rfl, rfl⟩, fun other => by rw [Comparison.of, hother]; rfl⟩
  accepts := ⟨.int 0, .int 0, fun _ _ => ⟨_, rfl⟩⟩

/-! ### Equality -/

theorem equalPair_self (value : Value H) (span span' : Position) :
    ∃ same, equalPair ⟨value, span⟩ ⟨value, span'⟩ = .ok same := by
  cases value <;> exact ⟨_, rfl⟩

theorem blames_of_equalPair {left right : Located (Value H)} {error : EvalError}
    (h : equalPair left right = .error error) : error.Blames right := by
  obtain ⟨left, leftSpan⟩ := left
  obtain ⟨right, rightSpan⟩ := right
  cases left <;> cases right <;> cases h <;> exact ⟨rfl, rfl⟩

theorem equalNeighbours_cons (left right : Located (Value H)) (others : List (Located (Value H))) :
    equalNeighbours (left :: right :: others) =
      (equalPair left right).bind fun first =>
        (equalNeighbours (right :: others)).map (first && ·) :=
  rfl

/-- Neighbours are compared behind others that go together. -/
theorem equalNeighbours_append {before : List (Located (Value H))} {left : Located (Value H)}
    {same : Bool} (h : equalNeighbours (before ++ [left]) = .ok same)
    (others : List (Located (Value H))) :
    equalNeighbours (before ++ left :: others) =
      (equalNeighbours (left :: others)).map (same && ·) := by
  induction before generalizing same with
  | nil =>
    cases h
    rw [List.nil_append]
    cases equalNeighbours (left :: others) <;> rfl
  | cons first before ih =>
    -- The second of the operands is `left`, or comes before it.
    cases before with
    | nil =>
      rw [List.singleton_append, equalNeighbours_cons] at h ⊢
      cases hpair : equalPair first left with
      | error error =>
        rw [hpair] at h
        cases h
      | ok pair =>
        rw [hpair] at h
        cases h
        simp only [Bool.and_true]
        rfl
    | cons second before =>
      rw [List.cons_append, List.cons_append, equalNeighbours_cons] at h ⊢
      cases hpair : equalPair first second with
      | error error =>
        rw [hpair] at h
        cases h
      | ok pair =>
        cases hrest : equalNeighbours (second :: (before ++ [left])) with
        | error error =>
          rw [hpair, hrest] at h
          cases h
        | ok rest =>
          rw [hpair, hrest] at h
          cases h
          show Except.map (pair && ·) (equalNeighbours (second :: before ++ left :: others)) = _
          rw [ih hrest]
          cases equalNeighbours (left :: others) with
          | error error => rfl
          | ok same => exact congrArg Except.ok (Bool.and_assoc ..).symm

/-- The first two neighbours that do not go together are at fault. -/
theorem neighbours_of_error {operands : List (Located (Value H))} {error : EvalError}
    (h : equalNeighbours operands = .error error) :
    ∃ before left right behind same, operands = before ++ left :: right :: behind ∧
      equalNeighbours (before ++ [left]) = .ok same ∧ equalPair left right = .error error := by
  induction operands with
  | nil => cases h
  | cons first others ih =>
    cases others with
    | nil => cases h
    | cons second others =>
      rw [equalNeighbours_cons] at h
      cases hpair : equalPair first second with
      | error other =>
        rw [hpair] at h
        cases h
        exact ⟨[], first, second, others, true, rfl, rfl, hpair⟩
      | ok same =>
        rw [hpair] at h
        obtain ⟨before, left, right, behind, same', hoperands, hbefore, hfails⟩ :=
          ih (eq_error_of_map h)
        refine ⟨first :: before, left, right, behind, same && same', ?_, ?_, hfails⟩
        · rw [hoperands, List.cons_append]
        · cases before with
          | nil =>
            obtain ⟨rfl, -⟩ := List.cons.inj hoperands
            cases hbefore
            rw [List.singleton_append, equalNeighbours_cons, hpair]
            rfl
          | cons next before =>
            obtain ⟨rfl, -⟩ := List.cons.inj hoperands
            rw [List.cons_append, List.cons_append, equalNeighbours_cons, hpair]
            exact congrArg (Except.map (same && ·)) hbefore

theorem equalNeighbours_placed (value : Value H) (span : Position) (spans : List Position) :
    ∃ same, equalNeighbours (⟨value, span⟩ :: value.placed spans) = .ok same := by
  induction spans generalizing span with
  | nil => exact ⟨true, rfl⟩
  | cons next spans ih =>
    obtain ⟨same, hsame⟩ := ih next
    obtain ⟨first, hfirst⟩ := equalPair_self value span next
    refine ⟨first && same, ?_⟩
    show equalNeighbours (_ :: _ :: value.placed spans) = _
    rw [equalNeighbours_cons, hfirst, hsame]
    rfl

theorem outcome_equal (latest operands : List (Located (Value H))) :
    equalFold.outcome latest operands =
      (equalNeighbours (latest.reverse ++ operands)).map .bool := by
  induction operands generalizing latest with
  | nil =>
    rw [List.append_nil]
    rfl
  | cons operand others ih =>
    show equalFold.outcome (operand :: latest) others = _
    rw [ih, List.reverse_cons, List.append_assoc, List.singleton_append]

theorem refuses_equal {count : Nat} {operands : List (Located (Value H))} {error : EvalError}
    (h : equalFold.Decides [] count operands (.error error)) :
    ∃ before operand behind, operands = before ++ operand :: behind ∧
      equalFold.Refuses [] count before operand error := by
  have hcollects : (equalFold (H := H)).Collects [] count :=
    ArgumentFold.collects_of_next (fun _ _ => ⟨_, rfl⟩) _ count
  have hcount : operands.length = count := h.all_of_collects hcollects
  have hfails : equalNeighbours operands = .error error := by
    have houtcome := h.outcome_append [] hcount
    rw [outcome_equal, List.append_nil] at houtcome
    exact eq_error_of_map houtcome
  obtain ⟨before, left, right, behind, same, rfl, hbefore, hpair⟩ := neighbours_of_error hfails
  refine ⟨before ++ [left], right, behind, ?_, blames_of_equalPair hpair, fun spans _ => ?_,
    fun others _ => ?_⟩
  · rw [List.append_assoc, List.singleton_append]
  · -- The value of `left` goes with itself.
    obtain ⟨rest, hrest⟩ := equalNeighbours_placed left.value left.span spans
    refine ⟨left.value.placed spans, Value.span_placed .., .bool (same && rest), ?_⟩
    rw [outcome_equal, List.reverse_nil, List.nil_append, List.append_assoc, List.singleton_append,
      equalNeighbours_append hbefore, hrest]
    rfl
  · rw [outcome_equal, List.reverse_nil, List.nil_append, List.append_assoc, List.singleton_append,
      equalNeighbours_append hbefore, equalNeighbours_cons, hpair]
    rfl

/-! ### Conversions -/

theorem isOf_of_integerOf {value : Value H} {fault : EvalFault}
    (h : integerOf value = .error fault) : fault.IsOf value.kind := by
  unfold integerOf at h
  split at h
  · cases h
  · split at h
    · cases h
    · cases h
      trivial
  · split at h
    · cases h
    · cases h
      trivial
  · cases h
    rfl

theorem isOf_of_floatOf {value : Value H} {fault : EvalFault}
    (h : floatOf value = .error fault) : fault.IsOf value.kind := by
  unfold floatOf at h
  split at h
  · cases h
  · cases h
  · dsimp only at h
    split at h
    · cases h
    · split at h
      · cases h
      · cases h
        trivial
  · cases h
    rfl

/-! ### The catalog -/

/-- An operation of the catalog that fails refuses one of the operands that it got, and none to
the left of it. -/
theorem Operation.refuses_of_decides {operation : Operation} {count : Nat}
    {operands : List (Located (Value H))} {error : EvalError}
    (hadmits : operation.arity.Admits count)
    (h : operation.fold.Decides operation.fold.start count operands (.error error)) :
    ∃ before operand behind, operands = before ++ operand :: behind ∧
      operation.fold.Refuses operation.fold.start count before operand error := by
  have hprompt {Inv} (hinv : (operation.fold (H := H)).Prompt Inv) :
      ∃ before operand behind, operands = before ++ operand :: behind ∧
        operation.fold.Refuses operation.fold.start count before operand error := by
    obtain ⟨before, operand, rfl, hrefuses⟩ := hinv.refuses h hinv.start
    exact ⟨before, operand, [], rfl, hrefuses⟩
  cases operation with
  | arithmetic op => exact hprompt op.prompt_fold
  | all | any =>
    exact hprompt (prompt_of_check (fun _ _ => rfl) blames_of_boolOperand
      ⟨.bool true, fun _ => ⟨_, rfl⟩⟩ fun _ => ⟨_, rfl⟩)
  | bitAnd | bitOr | bitXor =>
    exact hprompt (prompt_of_check (fun _ _ => rfl) blames_of_intOperand
      ⟨.int 0, fun _ => ⟨_, rfl⟩⟩ fun _ => ⟨_, rfl⟩)
  | not =>
    exact hprompt (prompt_of_check (fun _ _ => rfl)
      (fun h => blames_of_boolOperand (eq_error_of_map h))
      ⟨.bool true, fun _ => ⟨_, rfl⟩⟩ fun _ => ⟨_, rfl⟩)
  | toInt =>
    exact hprompt (prompt_of_check (fun _ _ => rfl)
      (fun h => Located.blames_of_blame h fun _ hfault =>
        isOf_of_integerOf (eq_error_of_map hfault))
      ⟨.int 0, fun _ => ⟨_, rfl⟩⟩ fun _ => ⟨_, rfl⟩)
  | toFloat =>
    exact hprompt (prompt_of_check (fun _ _ => rfl)
      (fun h => Located.blames_of_blame h fun _ hfault =>
        isOf_of_floatOf (eq_error_of_map hfault))
      ⟨.int 0, fun _ => ⟨_, rfl⟩⟩ fun _ => ⟨_, rfl⟩)
  | concat =>
    exact hprompt (prompt_of_check (fun _ _ => rfl) (by rintro _ _ ⟨⟩)
      ⟨.nil, fun _ => ⟨_, rfl⟩⟩ fun _ => ⟨_, rfl⟩)
  | remainder =>
    obtain rfl : count = 2 := hadmits
    exact refusesLeft_remainder.refuses_binary h
  | compare comparison =>
    obtain rfl : count = 2 := hadmits
    exact (refusesLeft_compare comparison).refuses_binary h
  | shiftLeft | shiftRight =>
    obtain rfl : count = 2 := hadmits
    exact (refusesLeft_shift _).refuses_binary h
  | equal => exact refuses_equal h

end BracketLisp
