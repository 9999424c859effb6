import BracketLisp.Proofs.Simulation.Basic

/-!
# `BracketLisp.Proofs.Simulation.Operation`: operations on like values

No operation of the catalog looks at more of a value than its kind, its plain content,
its text, and whether it is the same as another one. So an operation does the same with
like values: it goes on, stops or fails in both runs alike.

`ArgumentFold.Respects` says this of one operation, with a relation between what it
remembers in the two runs, and `Operation.respects` of every entry of the catalog.
-/

set_option autoImplicit false

namespace BracketLisp

variable {H : Type} {like : Likeness}

/-! ### Operands -/

theorem intOperand_like {v w : Located (Value H)} (h : v.Like like w) :
    like.Checks Eq (intOperand v) (intOperand w) := by
  obtain ⟨value, span⟩ := v
  obtain ⟨value', span'⟩ := w
  obtain ⟨hvalue, hspan⟩ := h
  cases hvalue with
  | int a => exact .ok rfl
  | _ => exact .error (like.blame trivial hspan)

theorem boolOperand_like {v w : Located (Value H)} (h : v.Like like w) :
    like.Checks Eq (boolOperand v) (boolOperand w) := by
  obtain ⟨value, span⟩ := v
  obtain ⟨value', span'⟩ := w
  obtain ⟨hvalue, hspan⟩ := h
  cases hvalue with
  | bool a => exact .ok rfl
  | _ => exact .error (like.blame trivial hspan)

/-! ### Operations on two values -/

/-- Two integers have no result only for these causes. -/
theorem Arith.fault_of_onInts {op : Arith} {a b : Int64} {fault : EvalFault}
    (h : op.onInts a b = .error fault) : fault = .divisionByZero ∨ fault = .overflow := by
  unfold onInts at h
  split at h
  · exact .inl (Except.error.inj h).symm
  · split at h
    · cases h
    · exact .inr (Except.error.inj h).symm

theorem Arith.isOfCall_of_onInts {op : Arith} {a b : Int64} {fault : EvalFault}
    (h : op.onInts a b = .error fault) : fault.IsOfCall := by
  rcases fault_of_onInts h with rfl | rfl <;> trivial

theorem Arith.combine_like (op : Arith) {a a' b b' : Value H} (ha : a.Like like a')
    (hb : b.Like like b') :
    Agree EvalFault.Like (Value.Like like) (op.combine a b) (op.combine a' b') := by
  -- The kind of the left value decides which kinds may stand on the right.
  cases ha with
  | int a =>
    cases hb with
    | int b =>
      -- Only two integers can give a fault of their own, the same one in both runs.
      refine (Agree.of_isOfCall fun _ => isOfCall_of_onInts).map fun result _ h => ?_
      subst h
      exact .int result
    | float _ => exact .ok (.float _)
    | _ => exact .error ⟨rfl, trivial⟩
  | float a =>
    cases hb with
    | int _ | float _ => exact .ok (.float _)
    | _ => exact .error ⟨rfl, trivial⟩
  | string a =>
    cases hb with
    | bool _ | int _ | float _ | string _ => exact .ok (.string _)
    | _ => exact .error ⟨rfl, trivial⟩
  | _ => cases hb <;> exact .error ⟨rfl, trivial⟩

theorem order_like {left left' right right' : Located (Value H)} (hl : left.Like like left')
    (hr : right.Like like right') :
    like.Checks Eq (order left right) (order left' right') := by
  obtain ⟨left, leftSpan⟩ := left
  obtain ⟨left', leftSpan'⟩ := left'
  obtain ⟨right, rightSpan⟩ := right
  obtain ⟨right', rightSpan'⟩ := right'
  obtain ⟨hleft, hleftSpan⟩ := hl
  obtain ⟨hright, hrightSpan⟩ := hr
  cases hleft with
  | int a | float a =>
    cases hright with
    | int _ | float _ => exact .ok rfl
    | _ => exact .error (like.blame trivial hrightSpan)
  | string a =>
    cases hright with
    | string _ => exact .ok rfl
    | _ => exact .error (like.blame trivial hrightSpan)
  | _ => cases hright <;> exact .error (like.blame trivial hleftSpan)

theorem equalPair_like {left left' right right' : Located (Value H)}
    (hl : left.Like like left') (hr : right.Like like right') :
    like.Checks Eq (equalPair left right) (equalPair left' right') := by
  obtain ⟨left, leftSpan⟩ := left
  obtain ⟨left', leftSpan'⟩ := left'
  obtain ⟨right, rightSpan⟩ := right
  obtain ⟨right', rightSpan'⟩ := right'
  obtain ⟨hleft, -⟩ := hl
  obtain ⟨hright, hrightSpan⟩ := hr
  -- Things to call compare by identity, which may differ between the runs.
  have hsame := hleft.same_eq hright
  cases hleft with
  | int a | float a =>
    cases hright with
    | int _ | float _ => exact .ok rfl
    | _ => exact .error (like.blame trivial hrightSpan)
  | nil =>
    cases hright with
    | nil => exact .ok rfl
    | _ => exact .error (like.blame trivial hrightSpan)
  | bool a =>
    cases hright with
    | bool _ => exact .ok rfl
    | _ => exact .error (like.blame trivial hrightSpan)
  | string a =>
    cases hright with
    | string _ => exact .ok rfl
    | _ => exact .error (like.blame trivial hrightSpan)
  | function _ _ _ =>
    cases hright with
    | function _ _ _ => exact .ok hsame
    | _ => exact .error (like.blame trivial hrightSpan)
  | native _ _ _ _ _ =>
    cases hright with
    | native _ _ _ _ _ => exact .ok hsame
    | _ => exact .error (like.blame trivial hrightSpan)

theorem equalNeighbours_like {values values' : List (Located (Value H))}
    (h : List.Forall₂ (Located.Like like) values values') :
    like.Checks Eq (equalNeighbours values) (equalNeighbours values') := by
  induction h with
  | nil => exact .ok rfl
  | cons hfirst hrest ih =>
    cases hrest with
    | nil => exact .ok rfl
    | cons hsecond hothers =>
      -- All pairs are compared, also after one that differs.
      refine (equalPair_like hfirst hsecond).bind fun _ _ hpair => ?_
      refine ih.bind fun _ _ hall => .ok ?_
      rw [hpair, hall]

/-! ### Operations as folds -/

/-- What an operation does after like values: it goes on with related memories, or
stops with like results. -/
inductive Verdict.Like (like : Likeness) {σ : Type} (R : σ → σ → Prop) :
    Verdict σ (Value H) → Verdict σ (Value H) → Prop where
  | next {s s' : σ} (h : R s s') : Like like R (.next s) (.next s')
  | stop {v w : Value H} (h : v.Like like w) : Like like R (.stop v) (.stop w)

/-- Whether a fold does the same with like values, where `R` relates what it remembers
in the two runs. -/
structure ArgumentFold.Respects (fold : ArgumentFold H) (like : Likeness)
    (R : fold.State → fold.State → Prop) : Prop where
  start : R fold.start fold.start
  step : ∀ {s s' : fold.State} {v w : Located (Value H)}, R s s' → v.Like like w →
    like.Checks (Verdict.Like like R) (fold.step s v) (fold.step s' w)
  finish : ∀ {s s' : fold.State}, R s s' →
    like.Checks (Value.Like like) (fold.finish s) (fold.finish s')

namespace ArgumentFold

theorem respects_unary {f : Located (Value H) → Except EvalError (Value H)}
    (hf : ∀ v w, v.Like like w → like.Checks (Value.Like like) (f v) (f w)) :
    (unary f).Respects like fun _ _ => True where
  start := trivial
  step _ h := (hf _ _ h).map fun _ _ hresult => .stop hresult
  finish _ := .ok .nil

theorem respects_binary {f : Located (Value H) → Located (Value H) → Except EvalError (Value H)}
    (hf : ∀ v v' w w', v.Like like v' → w.Like like w' →
      like.Checks (Value.Like like) (f v w) (f v' w')) :
    (binary f).Respects like (Option.Rel (Located.Like like)) where
  start := .none
  step hleft hright := by
    cases hleft with
    | none => exact .ok (.next (.some hright))
    | some hleft => exact (hf _ _ _ _ hleft hright).map fun _ _ hresult => .stop hresult
  finish _ := .ok .nil

theorem respects_arith (op : Arith) :
    (op.fold : ArgumentFold H).Respects like (Option.Rel (Value.Like like)) where
  start := .none
  step {s s' v w} hs h := by
    cases hs with
    | none =>
      obtain ⟨value, span⟩ := v
      obtain ⟨value', span'⟩ := w
      obtain ⟨hvalue, hspan⟩ := h
      -- The first operand stays as it is, but it has to be of a kind that the operation knows.
      have haccepts : op.accepts value = op.accepts value' := by cases hvalue <;> rfl
      simp only [Arith.fold, ← haccepts]
      split
      · exact .ok (.next (.some hvalue))
      · rw [hvalue.kind_eq]
        exact .error (like.blame trivial hspan)
    | some htotal =>
      exact (Located.blame_like h (op.combine_like htotal h.1)).map fun _ _ hresult =>
        .next (.some hresult)
  finish hs := by
    cases hs with
    | none => exact .ok .nil
    | some h => exact .ok h

theorem respects_equal : (equalFold : ArgumentFold H).Respects like
    (List.Forall₂ (Located.Like like)) where
  start := .nil
  step hs h := .ok (.next (.cons h hs))
  finish hs := by
    -- The values are remembered with the latest first, and compared from the first on.
    refine (equalNeighbours_like (List.forall₂_reverse_iff.2 hs)).map fun result _ h => ?_
    subst h
    exact .bool result

theorem respects_logic (decisive : Bool) :
    (logicFold decisive : ArgumentFold H).Respects like fun _ _ => True where
  start := trivial
  step _ h := by
    refine (boolOperand_like h).map fun value _ hvalue => ?_
    subst hvalue
    split
    · exact .stop (.bool _)
    · exact .next trivial
  finish _ := .ok (.bool _)

theorem respects_bit (op : Int64 → Int64 → Int64) :
    (bitFold op : ArgumentFold H).Respects like Eq where
  start := rfl
  step hs h := by
    subst hs
    refine (intOperand_like h).map fun value _ hvalue => ?_
    subst hvalue
    exact .next rfl
  finish {s s'} hs := by
    subst hs
    cases s with
    | none => exact .ok .nil
    | some total => exact .ok (.int total)

theorem respects_bitXor : (bitXorFold : ArgumentFold H).Respects like Eq where
  start := rfl
  step hs h := by
    subst hs
    refine (intOperand_like h).map fun value _ hvalue => ?_
    subst hvalue
    exact .next rfl
  finish hs := by
    subst hs
    exact .ok (.int _)

theorem respects_concat : (concatFold : ArgumentFold H).Respects like Eq where
  start := rfl
  step hs h := by
    subst hs
    exact .ok (.next (congrArg _ h.1.text_eq))
  finish hs := by
    subst hs
    exact .ok (.string _)

end ArgumentFold

/-! ### The catalog -/

theorem fault_of_remainder {a b : Int64} {fault : EvalFault} (h : remainder a b = .error fault) :
    fault = .divisionByZero ∨ fault = .overflow := by
  unfold remainder at h
  split at h
  · exact .inl (Except.error.inj h).symm
  · split at h
    · exact .inr (Except.error.inj h).symm
    · cases h

theorem remainderOf_like {v v' w w' : Located (Value H)} (hv : v.Like like v')
    (hw : w.Like like w') :
    like.Checks (Value.Like like) (remainderOf v w) (remainderOf v' w') := by
  refine (intOperand_like hv).bind fun a _ ha => (intOperand_like hw).bind fun b _ hb => ?_
  subst ha hb
  have hremainder : Agree EvalFault.Like Eq (remainder a b) (remainder a b) :=
    Agree.of_isOfCall fun _ h => by rcases fault_of_remainder h with rfl | rfl <;> trivial
  refine Located.blame_like hw (hremainder.map fun result _ h => ?_)
  subst h
  exact .int result

theorem Comparison.of_like (comparison : Comparison) {v v' w w' : Located (Value H)}
    (hv : v.Like like v') (hw : w.Like like w') :
    like.Checks (Value.Like like) (comparison.of v w) (comparison.of v' w') := by
  refine (order_like hv hw).bind fun ordering? _ h => ?_
  subst h
  exact .ok (.bool _)

theorem negation_like {v w : Located (Value H)} (h : v.Like like w) :
    like.Checks (Value.Like like) (negation v) (negation w) := by
  refine (boolOperand_like h).map fun value _ hvalue => ?_
  subst hvalue
  exact .bool _

theorem shiftOperand_like {v w : Located (Value H)} (h : v.Like like w) :
    like.Checks Eq (shiftOperand v) (shiftOperand w) := by
  rw [shiftOperand_eq, shiftOperand_eq]
  refine (intOperand_like h).bind fun count _ hcount => ?_
  subst hcount
  split
  · exact .ok rfl
  · exact .error (like.blame trivial h.2)

theorem shiftOf_like (shift : Int64 → Nat → Int64) {v v' w w' : Located (Value H)}
    (hv : v.Like like v') (hw : w.Like like w') :
    like.Checks (Value.Like like) (shiftOf shift v w) (shiftOf shift v' w') := by
  refine (intOperand_like hv).bind fun a _ ha => (shiftOperand_like hw).bind fun b _ hb => ?_
  subst ha hb
  exact .ok (.int _)

theorem integerOf_like {v w : Value H} (h : v.Like like w) :
    Agree EvalFault.Like Eq (integerOf v) (integerOf w) := by
  have heq : integerOf v = integerOf w := by cases h <;> rfl
  rw [← heq]
  refine Agree.of_isOfCall fun fault hfault => ?_
  unfold integerOf at hfault
  split at hfault
  · cases hfault
  · split at hfault
    · cases hfault
    · exact Except.error.inj hfault ▸ trivial
  · split at hfault
    · cases hfault
    · exact Except.error.inj hfault ▸ trivial
  · exact Except.error.inj hfault ▸ trivial

theorem floatOf_like {v w : Value H} (h : v.Like like w) :
    Agree EvalFault.Like Eq (floatOf v) (floatOf w) := by
  have heq : floatOf v = floatOf w := by cases h <;> rfl
  rw [← heq]
  refine Agree.of_isOfCall fun fault hfault => ?_
  unfold floatOf at hfault
  split at hfault
  · cases hfault
  · cases hfault
  · simp only at hfault
    split at hfault
    · cases hfault
    · split at hfault
      · cases hfault
      · exact Except.error.inj hfault ▸ trivial
  · exact Except.error.inj hfault ▸ trivial

theorem toIntOf_like {v w : Located (Value H)} (h : v.Like like w) :
    like.Checks (Value.Like like) (toIntOf v) (toIntOf w) := by
  refine Located.blame_like h ((integerOf_like h.1).map fun result _ hresult => ?_)
  subst hresult
  exact .int result

theorem toFloatOf_like {v w : Located (Value H)} (h : v.Like like w) :
    like.Checks (Value.Like like) (toFloatOf v) (toFloatOf w) := by
  refine Located.blame_like h ((floatOf_like h.1).map fun result _ hresult => ?_)
  subst hresult
  exact .float result

/-- Every operation of the catalog does the same with like values. -/
theorem Operation.respects (op : Operation) (like : Likeness) :
    ∃ R, (op.fold : ArgumentFold H).Respects like R := by
  cases op with
  | arithmetic op => exact ⟨_, ArgumentFold.respects_arith op⟩
  | remainder => exact ⟨_, ArgumentFold.respects_binary fun _ _ _ _ => remainderOf_like⟩
  | compare comparison =>
    exact ⟨_, ArgumentFold.respects_binary fun _ _ _ _ => comparison.of_like⟩
  | equal => exact ⟨_, ArgumentFold.respects_equal⟩
  | not => exact ⟨_, ArgumentFold.respects_unary fun _ _ => negation_like⟩
  | all => exact ⟨_, ArgumentFold.respects_logic false⟩
  | any => exact ⟨_, ArgumentFold.respects_logic true⟩
  | bitAnd => exact ⟨_, ArgumentFold.respects_bit (· &&& ·)⟩
  | bitOr => exact ⟨_, ArgumentFold.respects_bit (· ||| ·)⟩
  | bitXor => exact ⟨_, ArgumentFold.respects_bitXor⟩
  | shiftLeft =>
    exact ⟨_, ArgumentFold.respects_binary fun _ _ _ _ => shiftOf_like BracketLisp.shiftLeft⟩
  | shiftRight =>
    exact ⟨_, ArgumentFold.respects_binary fun _ _ _ _ => shiftOf_like BracketLisp.shiftRight⟩
  | concat => exact ⟨_, ArgumentFold.respects_concat⟩
  | toInt => exact ⟨_, ArgumentFold.respects_unary fun _ _ => toIntOf_like⟩
  | toFloat => exact ⟨_, ArgumentFold.respects_unary fun _ _ => toFloatOf_like⟩

end BracketLisp
