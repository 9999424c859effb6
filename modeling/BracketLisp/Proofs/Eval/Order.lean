import BracketLisp.Proofs.Eval.Operands
import BracketLisp.Proofs.Text.Encoding

/-!
# `BracketLisp.Proofs.Eval.Order`: one order behind all comparisons

`<`, `<=`, `>`, `>=` and `eq` are operations of their own. On two integers and on two strings they
speak of one linear order all the same.

* `Value.Comparable` says which values a comparison takes: these are the ones with an order
  (`order_of_comparable`, `order_of_not_comparable`), and comparisons ask for nothing else
  (`gives_compare`).
* `OrderedBy` states the laws of an order for calls. `orderedBy_of_compare` derives them from a
  function of comparison that is lawful, so that nothing but this function is left to integers and
  strings.
* `comparisons_consistent` concludes. Strings are ordered by the codes of their characters, which
  is the order of their encodings as well.
-/

set_option autoImplicit false

namespace BracketLisp

variable {H : Type}

/-! ### Which values compare -/

/-- Whether two values have an order, or could have one but for `NaN`: both are numbers or both are
strings. -/
def Value.Comparable (left right : Value H) : Prop :=
  left.isNumeric = true ∧ right.isNumeric = true ∨ left.kind = .string ∧ right.kind = .string

section

variable {left right : Value H}

theorem order_of_comparable (h : left.Comparable right) :
    ∃ ordering?, ∀ place place', order ⟨left, place⟩ ⟨right, place'⟩ = .ok ordering? := by
  rcases h with ⟨hleft, hright⟩ | ⟨hleft, hright⟩
  · cases left <;> cases hleft <;> cases right <;> cases hright <;> exact ⟨_, fun _ _ => rfl⟩
  · cases left <;> cases hleft
    cases right <;> cases hright
    exact ⟨_, fun _ _ => rfl⟩

/-- Other values are at fault in the same way wherever they stand. -/
theorem order_of_not_comparable (h : ¬left.Comparable right) :
    ∃ fault : EvalFault,
      (∀ place place', order ⟨left, place⟩ ⟨right, place'⟩ = .error ⟨fault, place⟩) ∨
      ∀ place place', order ⟨left, place⟩ ⟨right, place'⟩ = .error ⟨fault, place'⟩ := by
  by_cases hleft : left.isNumeric = true ∨ left.kind = .string
  · refine ⟨.typeMismatch [left.kind] right.kind, .inr fun place place' => ?_⟩
    cases left <;> cases right <;>
      first
      | rfl
      | simp [Value.Comparable, Value.isNumeric, Value.kind] at h hleft
  · exact ⟨.nonArithmetic left.kind, .inl fun place place' => order_of_unordered hleft _⟩

/-- Values with an order are equal or not. -/
theorem equalPair_of_comparable (h : left.Comparable right) :
    ∃ same, ∀ place place', equalPair ⟨left, place⟩ ⟨right, place'⟩ = .ok same := by
  rcases h with ⟨hleft, hright⟩ | ⟨hleft, hright⟩
  · cases left <;> cases hleft <;> cases right <;> cases hright <;> exact ⟨_, fun _ _ => rfl⟩
  · cases left <;> cases hleft
    cases right <;> cases hright
    exact ⟨_, fun _ _ => rfl⟩

end

/-! ### Calls on two operands -/

/-- A comparison looks at the order of its operands, if they have one. -/
theorem gives_compare [Host H] {left right : Located (Value H)}
    {found : Except EvalError (Option Ordering)} (h : order left right = found)
    (comparison : Comparison) :
    (Operation.compare comparison).Gives [left, right]
      (found.map fun ordering? => .bool (ordering?.any comparison.holds)) := by
  have hof : comparison.of left right =
      found.map fun ordering? => .bool (ordering?.any comparison.holds) := by
    rw [Comparison.of, h]
    cases found <;> rfl
  exact Operation.gives_of_decides rfl (hof ▸ ArgumentFold.binary_decides comparison.of left right)

theorem gives_equal [Host H] {left right : Located (Value H)} {found : Except EvalError Bool}
    (h : equalPair left right = found) : Operation.equal.Gives [left, right] (found.map .bool) := by
  have hreaches : equalFold.Reaches [] [left, right] [right, left] :=
    .next rfl (.next rfl (.done _))
  have hfinish : equalFold.finish [right, left] = found.map .bool := by
    show (equalNeighbours [left, right]).map Value.bool = _
    rw [equalNeighbours_cons, h]
    cases found with
    | error error => rfl
    | ok same => exact congrArg (fun same => Except.ok (Value.bool same)) (Bool.and_true same)
  exact Operation.gives_of_decides (Nat.le_refl 2) (hfinish ▸ hreaches.finishes)

/-! ### The laws of an order -/

/-- Whether calls of the comparisons and of `eq` on values of one sort have verdicts, and these are
the verdicts of one linear order. -/
structure OrderedBy [Host H] {α : Type} (value : α → Value H) (precedes : α → α → Prop)
    (verdict : Comparison → α → α → Bool) (same : α → α → Bool) : Prop where
  /-- Calls of a comparison have its verdict, wherever the operands stand. -/
  compares : ∀ (comparison : Comparison) (a b : α) (place place' : Position),
    (Operation.compare comparison).Gives [⟨value a, place⟩, ⟨value b, place'⟩]
      (.ok (.bool (verdict comparison a b)))
  /-- And so have calls of `eq`. -/
  equates : ∀ (a b : α) (place place' : Position),
    Operation.equal.Gives [⟨value a, place⟩, ⟨value b, place'⟩] (.ok (.bool (same a b)))
  /-- `<` is `>` the other way round. -/
  lt_eq_gt : ∀ a b, verdict .lt a b = verdict .gt b a
  /-- `<=` is `>=` the other way round. -/
  le_eq_ge : ∀ a b, verdict .le a b = verdict .ge b a
  /-- Exactly one of `<`, `eq` and `>` holds. -/
  one_of_three : ∀ a b,
    (verdict .lt a b).toNat + (same a b).toNat + (verdict .gt a b).toNat = 1
  /-- `<=` is `<` or `eq`. -/
  le_eq : ∀ a b, verdict .le a b = (verdict .lt a b || same a b)
  /-- `>=` is the negation of `<`. -/
  ge_eq : ∀ a b, verdict .ge a b = !verdict .lt a b
  /-- `<` is transitive. -/
  transitive : ∀ a b c,
    verdict .lt a b = true → verdict .lt b c = true → verdict .lt a c = true
  /-- `<` is the order in question. -/
  lt_iff : ∀ a b, verdict .lt a b = true ↔ precedes a b

/-- Values that are compared by a lawful function obey the laws. -/
theorem orderedBy_of_compare [Host H] {α : Type} {value : α → Value H} {precedes : α → α → Prop}
    (cmp : α → α → Ordering) [Std.TransCmp cmp]
    (horder : ∀ a b place place',
      order ⟨value a, place⟩ ⟨value b, place'⟩ = .ok (some (cmp a b)))
    (hequal : ∀ a b place place',
      equalPair ⟨value a, place⟩ ⟨value b, place'⟩ = .ok (cmp a b == .eq))
    (hprecedes : ∀ a b, cmp a b = .lt ↔ precedes a b) :
    OrderedBy value precedes (fun comparison a b => comparison.holds (cmp a b))
      (fun a b => cmp a b == .eq) where
  compares comparison a b place place' := gives_compare (horder a b place place') comparison
  equates a b place place' := gives_equal (hequal a b place place')
  lt_eq_gt a b := by
    have hswap : cmp a b = (cmp b a).swap := Std.OrientedCmp.eq_swap
    rw [hswap]
    cases cmp b a <;> rfl
  le_eq_ge a b := by
    have hswap : cmp a b = (cmp b a).swap := Std.OrientedCmp.eq_swap
    rw [hswap]
    cases cmp b a <;> rfl
  one_of_three a b := by cases cmp a b <;> rfl
  le_eq a b := by cases cmp a b <;> rfl
  ge_eq a b := by cases cmp a b <;> rfl
  transitive a b c hab hbc :=
    beq_iff_eq.2 (Std.TransCmp.lt_trans (beq_iff_eq.1 hab) (beq_iff_eq.1 hbc))
  lt_iff a b := beq_iff_eq.trans (hprecedes a b)

/-- Integers are compared as such. -/
theorem orderedBy_ints [Host H] :
    OrderedBy (H := H) .int (fun a b => a.toInt < b.toInt)
      (fun comparison a b => comparison.holds (compareOn Int64.toInt a b))
      (fun a b => compareOn Int64.toInt a b == .eq) := by
  refine orderedBy_of_compare _ (fun _ _ _ _ => rfl) (fun a b _ _ => congrArg Except.ok ?_)
    fun a b => Int.compare_eq_lt
  show (a == b) = (compare a.toInt b.toInt == .eq)
  rw [Bool.eq_iff_iff, beq_iff_eq, beq_iff_eq, Std.compare_eq_iff_eq, Int64.toInt_inj]

/-- Strings are compared by the codes of their characters. -/
theorem orderedBy_strings [Host H] :
    OrderedBy (H := H) .string
      (fun a b => a.toList.map Char.toNat < b.toList.map Char.toNat)
      (fun comparison a b => comparison.holds (stringOrder a b))
      (fun a b => stringOrder a b == .eq) := by
  refine orderedBy_of_compare (@compare String _) (fun _ _ _ _ => rfl)
    (fun a b _ _ => congrArg Except.ok ?_) fun a b => ?_
  · show (a == b) = (compare a b == .eq)
    rw [Bool.eq_iff_iff, beq_iff_eq, beq_iff_eq, Std.compare_eq_iff_eq]
  · rw [Text.map_toNat_lt_iff, ← String.lt_iff]
    exact compareOfLessAndEq_eq_lt

/-- Calls of the four comparisons and of `eq` on the same two values. The comparisons have a result
for two numbers and for two strings, and then so has `eq`. For other values all of them fail, with
one fault of one of the operands. Of two integers and of two strings they tell the place in one
order: that of the integers, and that of the codes of the characters. The latter is the order of the
bytes too. -/
theorem comparisons_consistent [Host H] :
    (∀ left right : Value H,
      (left.Comparable right →
        (∀ comparison, ∃ verdict, ∀ place place',
          (Operation.compare comparison).Gives [⟨left, place⟩, ⟨right, place'⟩]
            (.ok (.bool verdict))) ∧
        ∃ same, ∀ place place',
          Operation.equal.Gives [⟨left, place⟩, ⟨right, place'⟩] (.ok (.bool same))) ∧
      (¬left.Comparable right → ∃ fault : EvalFault,
        (∀ comparison place place',
          (Operation.compare comparison).Gives [⟨left, place⟩, ⟨right, place'⟩]
            (.error ⟨fault, place⟩)) ∨
        ∀ comparison place place',
          (Operation.compare comparison).Gives [⟨left, place⟩, ⟨right, place'⟩]
            (.error ⟨fault, place'⟩))) ∧
    (∃ verdict same,
      OrderedBy (H := H) .int (fun a b => a.toInt < b.toInt) verdict same) ∧
    (∃ verdict same,
      OrderedBy (H := H) .string (fun a b => a.toList.map Char.toNat < b.toList.map Char.toNat)
        verdict same) ∧
    ∀ a b : String, a.toUTF8.data.toList < b.toUTF8.data.toList ↔
      a.toList.map Char.toNat < b.toList.map Char.toNat := by
  refine ⟨fun left right => ⟨fun h => ⟨fun comparison => ?_, ?_⟩, fun h => ?_⟩,
    ⟨_, _, orderedBy_ints⟩, ⟨_, _, orderedBy_strings⟩, fun a b => ?_⟩
  · obtain ⟨ordering?, hordering⟩ := order_of_comparable h
    exact ⟨_, fun place place' => gives_compare (hordering place place') comparison⟩
  · obtain ⟨same, hsame⟩ := equalPair_of_comparable h
    exact ⟨same, fun place place' => gives_equal (hsame place place')⟩
  · obtain ⟨fault, hleft | hright⟩ := order_of_not_comparable h
    · exact ⟨fault, .inl fun comparison place place' =>
        gives_compare (hleft place place') comparison⟩
    · exact ⟨fault, .inr fun comparison place place' =>
        gives_compare (hright place place') comparison⟩
  · rw [Text.toUTF8_lt_iff, Text.map_toNat_lt_iff, String.lt_iff]

/-- The code of the second character is the greater one, though its first unit of 16 bits is the
lesser. -/
theorem comparisons_consistent_units :
    (eval 6 (.list .paren [.symbol (numberOf [] "<") ⟨"t", 1, 2⟩, .string "\uffff" ⟨"t", 1, 4⟩,
        .string "😀" ⟨"t", 1, 8⟩] ⟨"t", 1, 1⟩) .root).apply (.full 0 : Environment Empty) =
      (.ok (.bool true), .full 0) := by
  obtain ⟨verdict, same, h⟩ := (comparisons_consistent (H := Empty)).2.2.1
  let call : Call := ⟨.paren, .symbol (numberOf [] "<") ⟨"t", 1, 2⟩, [.string "\uffff" ⟨"t", 1, 4⟩,
    .string "😀" ⟨"t", 1, 8⟩], ⟨"t", 1, 1⟩⟩
  have hgets : (Operation.compare .lt).Gets (eval 5) call .root (.full 0 : Environment Empty)
      [⟨.string "\uffff", ⟨"t", 1, 4⟩⟩, ⟨.string "😀", ⟨"t", 1, 8⟩⟩] (.full 0) :=
    Operation.gets_full (by decide) (.next rfl (.next rfl (.done _))) rfl
  have hverdict : verdict .lt "\uffff" "😀" = true := (h.lt_iff _ _).2 (by decide)
  have hresult := h.compares .lt _ _ _ _ 5 (eval 5) call .root _ _ hgets rfl
  rwa [hverdict] at hresult

end BracketLisp
