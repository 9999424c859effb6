import BracketLisp.Proofs.Eval.Order

/-!
# `BracketLisp.Proofs.Eval.Equality`: equality of many operands

`eq` compares neighbours only, and compares all of them. What it says of a row of operands is a fact
about all pairs of them nevertheless.

* `Value.genus` sorts values. Two neighbours compare if and only if they are of one genus
  (`equalPair_of_genus_eq`, `equalPair_of_genus_ne`), so a row compares if and only if all of it is
  (`exists_equalNeighbours_iff`). The first operand of another genus is at fault.
* Without floats, a value is the same as itself (`Value.same_refl`), and two that are the same are
  so with the same others (`same_congr`). So a row of neighbours that are the same is one of
  operands that are all the same as the first (`equalNeighbours_eq_all`).
* `equality_over_all` concludes. Neither fact depends on the order of the operands.
-/

set_option autoImplicit false

namespace BracketLisp

variable {H : Type}

/-! ### Genera -/

/-- The sorts of values that equality tells apart before it looks at the values. -/
inductive Genus where
  | number
  | string
  | bool
  | nil
  | function
  | builtin
deriving DecidableEq, Repr

/-- The sort of a value. Integers and floats are of one. -/
def Value.genus : Value H → Genus
  | int _ | float _ => .number
  | string _ => .string
  | bool _ => .bool
  | nil => .nil
  | function _ => .function
  | native _ => .builtin

/-- Whether operands are all of one sort. -/
def OneGenus (operands : List (Located (Value H))) : Prop :=
  ∀ operand ∈ operands, ∀ other ∈ operands, operand.value.genus = other.value.genus

/-- Whether `right`, which stands directly behind `left`, is the first operand of another sort than
those before it. -/
def Turns (operands : List (Located (Value H))) (left right : Located (Value H)) : Prop :=
  ∃ before behind, operands = before ++ left :: right :: behind ∧ OneGenus (before ++ [left]) ∧
    ∀ operand ∈ before ++ [left], operand.value.genus ≠ right.value.genus

theorem oneGenus_cons_iff {first : Located (Value H)} {others : List (Located (Value H))} :
    OneGenus (first :: others) ↔
      ∀ operand ∈ others, operand.value.genus = first.value.genus := by
  constructor
  · intro h operand hmem
    exact h operand (List.mem_cons_of_mem _ hmem) first (List.mem_cons_self ..)
  · intro h
    have hfirst : ∀ operand ∈ first :: others, operand.value.genus = first.value.genus :=
      List.forall_mem_cons.2 ⟨rfl, h⟩
    exact fun operand hmem other hother => (hfirst operand hmem).trans (hfirst other hother).symm

/-- It does not matter how often operands stand in a row, and in which order. -/
theorem OneGenus.of_values {operands others : List (Located (Value H))} (h : OneGenus operands)
    (hvalues : ∀ value ∈ others.map Located.value, value ∈ operands.map Located.value) :
    OneGenus others := by
  intro operand hmem other hother
  obtain ⟨found, hfound, hvalue⟩ := List.mem_map.1 (hvalues _ (List.mem_map_of_mem hmem))
  obtain ⟨found', hfound', hvalue'⟩ := List.mem_map.1 (hvalues _ (List.mem_map_of_mem hother))
  rw [← hvalue, ← hvalue']
  exact h found hfound found' hfound'

/-! ### Neighbours -/

section

variable {left right : Located (Value H)}

/-- Operands of one sort compare. -/
theorem equalPair_of_genus_eq (h : left.value.genus = right.value.genus) :
    ∃ same, equalPair left right = .ok same := by
  obtain ⟨left, _⟩ := left
  obtain ⟨right, _⟩ := right
  cases left <;> cases right <;> first | exact ⟨_, rfl⟩ | cases h

/-- Operands of different sorts do not compare, and the right one is at fault. -/
theorem equalPair_of_genus_ne (h : left.value.genus ≠ right.value.genus) :
    equalPair left right =
      .error ⟨.typeMismatch [left.value.kind] right.value.kind, right.span⟩ := by
  obtain ⟨left, _⟩ := left
  obtain ⟨right, _⟩ := right
  cases left <;> cases right <;> first | rfl | exact absurd rfl h

theorem genus_eq_of_equalPair {same : Bool} (h : equalPair left right = .ok same) :
    left.value.genus = right.value.genus := by
  by_contra hne
  cases (equalPair_of_genus_ne hne).symm.trans h

end

/-- A row compares as far as it is of one sort. -/
theorem exists_equalNeighbours_iff {operands : List (Located (Value H))} :
    (∃ same, equalNeighbours operands = .ok same) ↔ OneGenus operands := by
  induction operands with
  | nil => exact ⟨fun _ _ h => absurd h List.not_mem_nil, fun _ => ⟨true, rfl⟩⟩
  | cons first others ih =>
    cases others with
    | nil =>
      refine ⟨fun _ => oneGenus_cons_iff.2 fun _ h => absurd h List.not_mem_nil, fun _ => ?_⟩
      exact ⟨true, rfl⟩
    | cons second others =>
      rw [equalNeighbours_cons]
      constructor
      · rintro ⟨same, hsame⟩
        cases hpair : equalPair first second with
        | error error =>
          rw [hpair] at hsame
          cases hsame
        | ok pair =>
          rw [hpair] at hsame
          cases hrest : equalNeighbours (second :: others) with
          | error error =>
            rw [hrest] at hsame
            cases hsame
          | ok rest =>
            -- The others are of the sort of the second, and so is the first.
            have hothers := oneGenus_cons_iff.1 (ih.1 ⟨rest, hrest⟩)
            have hsecond := genus_eq_of_equalPair hpair
            refine oneGenus_cons_iff.2 (List.forall_mem_cons.2 ⟨hsecond.symm, ?_⟩)
            exact fun operand hmem => (hothers operand hmem).trans hsecond.symm
      · intro h
        obtain ⟨pair, hpair⟩ := equalPair_of_genus_eq
          (h first (List.mem_cons_self ..) second (by simp))
        obtain ⟨rest, hrest⟩ := ih.2 fun operand hmem other hother =>
          h operand (List.mem_cons_of_mem _ hmem) other (List.mem_cons_of_mem _ hother)
        exact ⟨pair && rest, by rw [hpair, hrest]; rfl⟩

/-- A row that does not compare has a first operand of another sort, which is at fault. -/
theorem turns_of_error {operands : List (Located (Value H))} {error : EvalError}
    (h : equalNeighbours operands = .error error) :
    ∃ left right, Turns operands left right ∧
      error = ⟨.typeMismatch [left.value.kind] right.value.kind, right.span⟩ := by
  obtain ⟨before, left, right, behind, same, hoperands, hbefore, hpair⟩ := neighbours_of_error h
  have hone : OneGenus (before ++ [left]) := exists_equalNeighbours_iff.1 ⟨same, hbefore⟩
  have hne : left.value.genus ≠ right.value.genus := by
    intro heq
    obtain ⟨same, hsame⟩ := equalPair_of_genus_eq heq
    cases hpair.symm.trans hsame
  refine ⟨left, right, ⟨before, behind, hoperands, hone, fun operand hmem heq => hne ?_⟩, ?_⟩
  · exact (hone left (by simp) operand hmem).trans heq
  · exact Except.error.inj (hpair.symm.trans (equalPair_of_genus_ne hne))

/-- The first operand of another sort is at fault, whatever the values before it and behind it. -/
theorem Turns.equalNeighbours {operands : List (Located (Value H))} {left right : Located (Value H)}
    (h : Turns operands left right) :
    equalNeighbours operands =
      .error ⟨.typeMismatch [left.value.kind] right.value.kind, right.span⟩ := by
  obtain ⟨before, behind, rfl, hone, hne⟩ := h
  obtain ⟨same, hsame⟩ := exists_equalNeighbours_iff.2 hone
  rw [equalNeighbours_append hsame, equalNeighbours_cons,
    equalPair_of_genus_ne (hne left (by simp))]
  rfl

/-! ### Equal values -/

namespace Value

variable {u v : Value H}

theorem same_refl (h : v.kind ≠ .float) : v.same v = true := by
  cases v with
  | float _ => exact absurd rfl h
  | nil => rfl
  | _ => exact beq_self_eq_true _

/-- Of two values that are the same, any other is the same as both or as neither. -/
theorem same_congr (hu : u.kind ≠ .float) (h : u.same v = true) (w : Value H) :
    u.same w = v.same w := by
  cases u with
  | float _ => exact absurd rfl hu
  | nil =>
    cases v with
    | nil => rfl
    | _ => cases h
  | bool a =>
    cases v with
    | bool b =>
      obtain rfl : a = b := beq_iff_eq.1 h
      rfl
    | _ => cases h
  | int a =>
    cases v with
    | int b =>
      obtain rfl : a = b := beq_iff_eq.1 h
      rfl
    | _ => cases h
  | string a =>
    cases v with
    | string b =>
      obtain rfl : a = b := beq_iff_eq.1 h
      rfl
    | _ => cases h
  | function f =>
    cases v with
    | function g =>
      have hidentity : f.identity = g.identity := beq_iff_eq.1 h
      cases w with
      | function k => exact congrArg (· == k.identity) hidentity
      | _ => rfl
    | _ => cases h
  | native m =>
    cases v with
    | native n =>
      have hidentity : m.identity = n.identity := beq_iff_eq.1 h
      cases w with
      | native k => exact congrArg (· == k.identity) hidentity
      | _ => rfl
    | _ => cases h

end Value

/-- Equality of operands of one sort that are no floats is that of values. -/
theorem equalPair_eq_same {left right : Located (Value H)}
    (h : left.value.genus = right.value.genus) (hleft : left.value.kind ≠ .float)
    (hright : right.value.kind ≠ .float) :
    equalPair left right = .ok (left.value.same right.value) := by
  obtain ⟨left, _⟩ := left
  obtain ⟨right, _⟩ := right
  cases left <;> cases right <;>
    first | rfl | exact absurd rfl hleft | exact absurd rfl hright | cases h

/-- Whether no operand is a float. -/
def FloatFree (operands : List (Located (Value H))) : Prop :=
  ∀ operand ∈ operands, operand.value.kind ≠ .float

/-- Neighbours are all the same if and only if the operands are all the same as the first. -/
theorem equalNeighbours_eq_all {first : Located (Value H)} {others : List (Located (Value H))}
    (hone : OneGenus (first :: others)) (hfloat : FloatFree (first :: others)) :
    equalNeighbours (first :: others) =
      .ok (others.all fun other => first.value.same other.value) := by
  induction others generalizing first with
  | nil => rfl
  | cons second others ih =>
    obtain ⟨hfirst, hrest⟩ := List.forall_mem_cons.1 hfloat
    have hpair := equalPair_eq_same (hone first (List.mem_cons_self ..) second (by simp)) hfirst
      (hrest second (List.mem_cons_self ..))
    have hneighbours := ih (fun operand hmem other hother =>
      hone operand (List.mem_cons_of_mem _ hmem) other (List.mem_cons_of_mem _ hother)) hrest
    rw [equalNeighbours_cons, hpair, hneighbours, List.all_cons]
    -- What is the same as the second operand is the same as the first, if these two are.
    refine congrArg Except.ok ?_
    cases hsame : first.value.same second.value with
    | false => rfl
    | true =>
      rw [Bool.true_and]
      simp only [Value.same_congr hfirst hsame, Bool.true_and]

/-- The verdict on a row is that on all of its pairs. -/
theorem equalNeighbours_eq_true_iff {operands : List (Located (Value H))}
    (hone : OneGenus operands) (hfloat : FloatFree operands) :
    ∃ same, equalNeighbours operands = .ok same ∧ (same = true ↔
      ∀ operand ∈ operands, ∀ other ∈ operands, operand.value.same other.value = true) := by
  cases operands with
  | nil => exact ⟨true, rfl, fun _ _ h => absurd h List.not_mem_nil, fun _ => rfl⟩
  | cons first others =>
    refine ⟨_, equalNeighbours_eq_all hone hfloat, fun hall operand hmem other hother => ?_,
      fun hpairs => List.all_eq_true.2 fun other hother =>
        hpairs first (List.mem_cons_self ..) other (List.mem_cons_of_mem _ hother)⟩
    have hfirst := hfloat first (List.mem_cons_self ..)
    have hsame : ∀ operand ∈ first :: others, first.value.same operand.value = true :=
      List.forall_mem_cons.2 ⟨Value.same_refl hfirst, List.all_eq_true.1 hall⟩
    rw [← Value.same_congr hfirst (hsame operand hmem)]
    exact hsame other hother

/-- The verdict on operands without floats depends on which values there are, and neither on their
order nor on how often they stand there. -/
theorem equalNeighbours_of_values {operands others : List (Located (Value H))}
    (hfloat : FloatFree operands)
    (hvalues : ∀ value, value ∈ others.map Located.value ↔ value ∈ operands.map Located.value)
    {verdict : Bool} (h : equalNeighbours operands = .ok verdict) :
    equalNeighbours others = .ok verdict := by
  have hone := exists_equalNeighbours_iff.1 ⟨verdict, h⟩
  have hothers : OneGenus others := hone.of_values fun value => (hvalues value).1
  have hfloatOthers : FloatFree others := by
    intro other hother
    obtain ⟨operand, hmem, hvalue⟩ :=
      List.mem_map.1 ((hvalues _).1 (List.mem_map_of_mem hother))
    rw [← hvalue]
    exact hfloat operand hmem
  obtain ⟨same, hsame, hiff⟩ := equalNeighbours_eq_true_iff hone hfloat
  obtain ⟨same', hsame', hiff'⟩ := equalNeighbours_eq_true_iff hothers hfloatOthers
  obtain rfl := Except.ok.inj (h.symm.trans hsame)
  -- Both verdicts speak of all pairs of the same values.
  have hpairs (row : List (Located (Value H))) :
      (∀ operand ∈ row, ∀ other ∈ row, operand.value.same other.value = true) ↔
        ∀ value ∈ row.map Located.value, ∀ value' ∈ row.map Located.value,
          value.same value' = true := by
    simp only [List.forall_mem_map]
  have heq : same' = verdict := by
    rw [Bool.eq_iff_iff, hiff, hiff', hpairs, hpairs]
    simp only [hvalues]
  rw [hsame', heq]

/-! ### Calls -/

/-- Equality keeps its operands until it has them all. -/
theorem reaches_equal (latest operands : List (Located (Value H))) :
    equalFold.Reaches latest operands (operands.reverse ++ latest) := by
  induction operands generalizing latest with
  | nil => exact .done _
  | cons operand others ih =>
    rw [List.reverse_cons, List.append_assoc, List.singleton_append]
    exact .next rfl (ih (operand :: latest))

section

variable [Host H] {operands : List (Located (Value H))} (hcount : 2 ≤ operands.length)
include hcount

/-- A call of `eq` gives what comparing its neighbours gives. -/
theorem gives_equal_row :
    Operation.equal.Gives operands ((equalNeighbours operands).map .bool) := by
  have hdecides := (reaches_equal [] operands).finishes
  have hfinish : equalFold.finish (operands.reverse ++ []) =
      (equalNeighbours operands).map .bool := by
    show (equalNeighbours (operands.reverse ++ []).reverse).map Value.bool = _
    rw [List.append_nil, List.reverse_reverse]
  exact Operation.gives_of_decides hcount (hfinish ▸ hdecides)

theorem gives_verdict_iff {verdict : Bool} :
    Operation.equal.Gives operands (.ok (.bool verdict)) ↔
      equalNeighbours operands = .ok verdict := by
  constructor
  · intro h
    have hmap := (gives_equal_row hcount).unique h
    cases hrow : equalNeighbours operands with
    | error error =>
      rw [hrow] at hmap
      cases hmap
    | ok same =>
      rw [hrow] at hmap
      cases hmap
      rfl
  · intro h
    have hgives := gives_equal_row hcount
    rwa [h] at hgives

theorem gives_error_iff {error : EvalError} :
    Operation.equal.Gives operands (.error error) ↔ equalNeighbours operands = .error error := by
  constructor
  · intro h
    exact eq_error_of_map ((gives_equal_row hcount).unique h)
  · intro h
    have hgives := gives_equal_row hcount
    rwa [h] at hgives

end

/-- Calls of `eq` on two or more operands, whatever their values. They fail if and only if the
operands are not all of one sort, and the error is at the first operand whose sort is not that of
those before it: it expects the kind of the operand directly before. Otherwise there is a verdict,
for the same values in any order and number. If none of them is a float, the verdict is that every
two of them are the same, and it does not depend on their order and number either. -/
theorem equality_over_all [Host H] {operands : List (Located (Value H))}
    (hcount : 2 ≤ operands.length) :
    ((∃ verdict, Operation.equal.Gives operands (.ok (.bool verdict))) ↔ OneGenus operands) ∧
    ((∃ error, Operation.equal.Gives operands (.error error)) ↔ ¬OneGenus operands) ∧
    (∀ error, Operation.equal.Gives operands (.error error) ↔
      ∃ left right, Turns operands left right ∧
        error = ⟨.typeMismatch [left.value.kind] right.value.kind, right.span⟩) ∧
    (FloatFree operands → ∀ verdict, Operation.equal.Gives operands (.ok (.bool verdict)) →
      (verdict = true ↔
        ∀ operand ∈ operands, ∀ other ∈ operands, operand.value.same other.value = true)) ∧
    ∀ others : List (Located (Value H)), 2 ≤ others.length →
      (∀ value, value ∈ others.map Located.value ↔ value ∈ operands.map Located.value) →
      ((∃ verdict, Operation.equal.Gives operands (.ok (.bool verdict))) →
        ∃ verdict, Operation.equal.Gives others (.ok (.bool verdict))) ∧
      (FloatFree operands → ∀ verdict, Operation.equal.Gives operands (.ok (.bool verdict)) →
        Operation.equal.Gives others (.ok (.bool verdict))) := by
  have hsuccess {row : List (Located (Value H))} (hrow : 2 ≤ row.length) :
      (∃ verdict, Operation.equal.Gives row (.ok (.bool verdict))) ↔ OneGenus row := by
    simp only [gives_verdict_iff hrow, exists_equalNeighbours_iff]
  refine ⟨hsuccess hcount, ?_, fun error => ?_, fun hfloat verdict h => ?_,
    fun others hothers hvalues => ⟨fun h => ?_, fun hfloat verdict h => ?_⟩⟩
  · simp only [gives_error_iff hcount, ← exists_equalNeighbours_iff]
    cases equalNeighbours operands <;> simp
  · rw [gives_error_iff hcount]
    constructor
    · exact turns_of_error
    · rintro ⟨left, right, hturns, rfl⟩
      exact hturns.equalNeighbours
  · rw [gives_verdict_iff hcount] at h
    obtain ⟨same, hsame, hiff⟩ :=
      equalNeighbours_eq_true_iff (exists_equalNeighbours_iff.1 ⟨verdict, h⟩) hfloat
    obtain rfl := Except.ok.inj (h.symm.trans hsame)
    exact hiff
  · rw [hsuccess hcount] at h
    exact (hsuccess hothers).2 (h.of_values fun value => (hvalues value).1)
  · rw [gives_verdict_iff hcount] at h
    rw [gives_verdict_iff hothers]
    exact equalNeighbours_of_values hfloat hvalues h

/-- The first two operands differ, but it is the third that `eq` blames: it is `nil`, where the
operand before it is a float. -/
theorem equality_over_all_nil :
    (eval 6 (.list .paren [.symbol (numberOf [] "eq") ⟨"t", 1, 2⟩, .int 1 ⟨"t", 1, 5⟩,
        .float 2.5 ⟨"t", 1, 7⟩, .symbol (numberOf [] "nil") ⟨"t", 1, 11⟩,
        .string "a" ⟨"t", 1, 15⟩] ⟨"t", 1, 1⟩) .root).apply (.full 0 : Environment Empty) =
      (.error (.fault ⟨.typeMismatch [.float] .nil, ⟨"t", 1, 11⟩⟩), .full 0) := by
  let null : Element := .symbol (numberOf [] "nil") ⟨"t", 1, 11⟩
  let call : Call := ⟨.paren, .symbol (numberOf [] "eq") ⟨"t", 1, 2⟩,
    [.int 1 ⟨"t", 1, 5⟩, .float 2.5 ⟨"t", 1, 7⟩, null, .string "a" ⟨"t", 1, 15⟩], ⟨"t", 1, 1⟩⟩
  let left : Located (Value Empty) := ⟨.float 2.5, ⟨"t", 1, 7⟩⟩
  let right : Located (Value Empty) := ⟨.nil, ⟨"t", 1, 11⟩⟩
  let operands : List (Located (Value Empty)) :=
    [⟨.int 1, ⟨"t", 1, 5⟩⟩, left, right, ⟨.string "a", ⟨"t", 1, 15⟩⟩]
  have hnil : (eval 5 null .root).apply (.full 0 : Environment Empty) = (.ok .nil, .full 0) :=
    eval_constant 4 0 [] (.tail _ (.tail _ (.head _))) _
  have hgets : Operation.equal.Gets (eval 5) call .root (.full 0 : Environment Empty) operands
      (.full 0) :=
    Operation.gets_full (by decide)
      (.next rfl (.next rfl (.next hnil (.next rfl (.done _))))) rfl
  have hturns : Turns operands left right := by
    refine ⟨[⟨.int 1, ⟨"t", 1, 5⟩⟩], [⟨.string "a", ⟨"t", 1, 15⟩⟩], rfl, ?_, ?_⟩
    · exact oneGenus_cons_iff.2 (List.forall_mem_singleton.2 rfl)
    · exact List.forall_mem_cons.2 ⟨nofun, List.forall_mem_singleton.2 nofun⟩
  exact ((equality_over_all (by decide)).2.2.1 _).2 ⟨left, right, hturns, rfl⟩ 5 (eval 5) call .root
    _ _ hgets rfl

end BracketLisp
