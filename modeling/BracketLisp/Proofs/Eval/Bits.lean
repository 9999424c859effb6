import BracketLisp.Proofs.Eval.Operands
import Mathlib.Data.Int.ModEq
import Mathlib.Data.List.Fold
import Mathlib.Data.List.Perm.Basic
import Mathlib.Tactic.Positivity
import Mathlib.Tactic.Ring

/-!
# `BracketLisp.Proofs.Eval.Bits`: operations on bits

A word stands for an integer, and the bits of its two's complement are known from that integer alone
(`Integer.bit`). So the operations on bits can be described without words.

* `Operation.CombinesBits` says that each bit of a result is made of the bits of all operands at the
  same place. `combinesBits_of_gives` derives it from what the operation does to two words, because
  it is associative and commutative and has a neutral word.
* `toInt_shiftLeft` and `toInt_shiftRight` are the shifts as arithmetic: a product that is cut to
  64 bits, and a quotient that is rounded down. `shiftRight_shiftLeft_eq_iff` concludes which words
  come back.
* `bit_operations` puts both together for calls.
-/

set_option autoImplicit false

namespace BracketLisp

variable {H : Type}

/-! ### Bits of integers -/

/-- The bit of an integer at a place, counted from the lowest, in two's complement. -/
def Integer.bit (word : Int64) (place : Nat) : Bool :=
  decide (word.toInt / 2 ^ place % 2 = 1)

/-- The bits of an integer are those of its word. -/
theorem Integer.bit_eq_getLsbD (word : Int64) {place : Nat} (h : place < 64) :
    bit word place = word.toBitVec.getLsbD place := by
  obtain ⟨rest, hrest⟩ : ∃ rest : Nat, 64 = place + (rest + 1) := ⟨63 - place, by omega⟩
  -- The integer is the number of the word, less a multiple of a power of two that is greater.
  have hword : word.toInt = word.toBitVec.toNat +
      2 ^ place * (2 * -(2 ^ rest * Int.bdiv word.toBitVec.toNat (2 ^ 64))) := by
    rw [← Int64.toInt_toBitVec, BitVec.toInt_eq_toNat_bmod, Int.bmod_eq_self_sub_mul_bdiv]
    have hpow : ((2 ^ 64 : Nat) : Int) = 2 ^ place * (2 * 2 ^ rest) := by
      rw [hrest, Nat.pow_add, Nat.pow_succ]
      push_cast
      ring
    rw [hpow]
    ring
  rw [bit, hword, Int.add_mul_ediv_left _ _ (by positivity), Int.add_mul_emod_self_left,
    BitVec.getLsbD, Nat.testBit_eq_decide_div_mod_eq]
  congr 1
  rw [eq_iff_iff]
  norm_cast

theorem toBitVec_smod_ofNat :
    ∀ count < 64, (Int64.ofNat count).toBitVec.smod 64 = BitVec.ofNat 64 count := by
  decide

theorem toInt_shiftLeft (word : Int64) {count : Nat} (h : count < 64) :
    (shiftLeft word count).toInt = (word.toInt * 2 ^ count).bmod (2 ^ 64) := by
  rw [shiftLeft, ← Int64.toInt_toBitVec, Int64.toBitVec_shiftLeft, toBitVec_smod_ofNat count h,
    BitVec.shiftLeft_eq', BitVec.toNat_ofNat, Nat.mod_eq_of_lt (by omega), BitVec.toInt_shiftLeft,
    ← Int64.toInt_toBitVec, BitVec.toInt_eq_toNat_bmod, Int.bmod_mul_bmod, Nat.shiftLeft_eq]
  push_cast
  rfl

theorem toInt_shiftRight (word : Int64) {count : Nat} (h : count < 64) :
    (shiftRight word count).toInt = word.toInt / 2 ^ count := by
  rw [shiftRight, ← Int64.toInt_toBitVec, Int64.toBitVec_shiftRight, toBitVec_smod_ofNat count h,
    BitVec.sshiftRight_eq', BitVec.toNat_ofNat, Nat.mod_eq_of_lt (by omega),
    BitVec.toInt_sshiftRight, Int64.toInt_toBitVec, Int.shiftRight_eq_div_pow]
  push_cast
  rfl

/-- A number shifted to the left comes back to itself if and only if it fits with all its bits. -/
theorem shiftRight_shiftLeft_eq_iff (word : Int64) {count : Nat} (h : count < 64) :
    shiftRight (shiftLeft word count) count = word ↔
      -2 ^ (63 - count) ≤ word.toInt ∧ word.toInt < 2 ^ (63 - count) := by
  rw [← Int64.toInt_inj, toInt_shiftRight _ h, toInt_shiftLeft _ h]
  generalize word.toInt = number
  have hpos : (0 : Int) < 2 ^ count := by positivity
  have hword : ((2 ^ 64 : Nat) : Int) = 2 * (2 ^ (63 - count) * 2 ^ count) := by
    rw [← Int.pow_add, Nat.sub_add_cancel (by omega)]
    rfl
  have hdvd : (2 : Int) ^ count ∣ (number * 2 ^ count).bmod (2 ^ 64) := by
    rw [Int.bmod_eq_self_sub_mul_bdiv, hword]
    exact ⟨number - 2 * 2 ^ (63 - count) * Int.bdiv (number * 2 ^ count) (2 ^ 64), by ring⟩
  rw [Int.ediv_eq_iff_eq_mul_left (ne_of_gt hpos) hdvd]
  -- Now it is about a product that is not cut off.
  have hlower : -((2 ^ 64 : Nat) / 2 : Int) = -2 ^ (63 - count) * 2 ^ count := by
    rw [hword, Int.mul_ediv_cancel_left _ (by decide), Int.neg_mul]
  have hupper : (((2 ^ 64 : Nat) : Int) + 1) / 2 = 2 ^ (63 - count) * 2 ^ count := by
    rw [hword]
    omega
  constructor
  · intro hwhole
    have hle := Int.le_bmod (x := number * 2 ^ count) (m := 2 ^ 64) (by decide)
    have hlt := Int.bmod_lt (x := number * 2 ^ count) (m := 2 ^ 64) (by decide)
    rw [hwhole, hlower] at hle
    rw [hwhole, hupper] at hlt
    exact ⟨Int.le_of_mul_le_mul_right hle hpos, Int.lt_of_mul_lt_mul_right hlt (Int.le_of_lt hpos)⟩
  · rintro ⟨hle, hlt⟩
    refine Int.bmod_eq_of_le ?_ ?_
    · rw [hlower]
      exact Int.mul_le_mul_of_nonneg_right hle (Int.le_of_lt hpos)
    · rw [hupper]
      exact Int.mul_lt_mul_of_pos_right hlt hpos

theorem toInt_complement (word : Int64) : (~~~word).toInt = -word.toInt - 1 := by
  obtain ⟨hlower, hupper⟩ := Integer.fits_toInt word
  have hmin : Int64.minValue.toInt = -9223372036854775808 := by decide
  have hmax : Int64.maxValue.toInt = 9223372036854775807 := by decide
  rw [Int64.toInt_not, Int.bmod_eq_of_le (by omega) (by omega)]

/-! ### Bits of many integers -/

/-- Whether calls of an operation on two or more integers give the integer whose bit at a place is
`law` of the bits of all operands there, from `neutral` on. The operands may stand in any order. -/
def Operation.CombinesBits (H : Type) [Host H] (operation : Operation) (law : Bool → Bool → Bool)
    (neutral : Bool) : Prop :=
  ∀ ints : List Int64, 2 ≤ ints.length → ∃ result : Int64,
    (∀ place < 64, Integer.bit result place =
      (ints.map fun int => Integer.bit int place).foldr law neutral) ∧
    ∀ (ints' : List Int64) (operands : List (Located (Value H))), ints'.Perm ints →
      operands.map Located.value = ints'.map .int → operation.Gives operands (.ok (.int result))

section

variable {op : Int64 → Int64 → Int64} {unit : Int64} {operands : List (Located (Value H))}
  {ints : List Int64}

/-- What holds of the bits of two words holds of those of many. -/
theorem Integer.bit_foldr {law : Bool → Bool → Bool} {neutral : Bool} {place : Nat}
    (hbit : ∀ a b, bit (op a b) place = law (bit a place) (bit b place))
    (hunit : bit unit place = neutral) (ints : List Int64) :
    bit (ints.foldr op unit) place =
      (ints.map fun int => bit int place).foldr law neutral := by
  induction ints with
  | nil => exact hunit
  | cons first others ih => rw [List.foldr_cons, hbit, ih, List.map_cons, List.foldr_cons]

/-- Integers lead a call from a total to that with all of them. -/
theorem reaches_bits (op : Int64 → Int64 → Int64) (total : Int64)
    (hvalues : operands.map Located.value = ints.map .int) :
    (bitFold op).Reaches (some total) operands (some (ints.foldl op total)) := by
  induction ints generalizing operands total with
  | nil =>
    obtain rfl := List.map_eq_nil_iff.1 hvalues
    exact .done _
  | cons first others ih =>
    obtain ⟨operand, behind, rfl, hoperand, hbehind⟩ := List.map_eq_cons_iff.1 hvalues
    refine .next ?_ (ih (op total first) hbehind)
    show (intOperand operand).map _ = _
    rw [intOperand, hoperand]
    rfl

theorem reaches_bitXor (latest : List Int64)
    (hvalues : operands.map Located.value = ints.map .int) :
    bitXorFold.Reaches latest operands (ints.reverse ++ latest) := by
  induction ints generalizing operands latest with
  | nil =>
    obtain rfl := List.map_eq_nil_iff.1 hvalues
    exact .done _
  | cons first others ih =>
    obtain ⟨operand, behind, rfl, hoperand, hbehind⟩ := List.map_eq_cons_iff.1 hvalues
    rw [List.reverse_cons, List.append_assoc, List.singleton_append]
    refine .next ?_ (ih (first :: latest) hbehind)
    show (intOperand operand).map _ = _
    rw [intOperand, hoperand]
    rfl

variable [Host H]

/-- A fold that begins with its first integer may as well begin with a neutral one. -/
theorem gives_bits [Std.Associative op] [Std.Commutative op] {operation : Operation}
    (hfold : operation.fold = bitFold (H := H) op) (harity : operation.arity = .atLeast 2)
    (hunit : ∀ a, op unit a = a) (hcount : 2 ≤ ints.length)
    (hvalues : operands.map Located.value = ints.map .int) :
    operation.Gives operands (.ok (.int (ints.foldr op unit))) := by
  have hlength : operands.length = ints.length := by simpa using congrArg List.length hvalues
  refine Operation.gives_of_decides (by rw [harity, hlength]; exact hcount) ?_
  rw [hfold]
  cases ints with
  | nil => cases hcount
  | cons first others =>
    obtain ⟨operand, behind, rfl, hoperand, hbehind⟩ := List.map_eq_cons_iff.1 hvalues
    have hfirst : (bitFold op).step none operand = .ok (.next (some first)) := by
      show (intOperand operand).map _ = _
      rw [intOperand, hoperand]
      rfl
    have htotal : (first :: others).foldr op unit = others.foldl op first := by
      rw [← List.foldl_eq_foldr, List.foldl_cons, hunit]
    rw [htotal]
    exact (ArgumentFold.Reaches.next hfirst (reaches_bits op first hbehind)).finishes

/-- Two or more integers are not complemented. -/
theorem exclusiveOr_eq_foldr (h : 2 ≤ ints.length) : exclusiveOr ints = ints.foldr (· ^^^ ·) 0 := by
  rcases ints with - | ⟨first, - | ⟨second, others⟩⟩
  · rfl
  · exact absurd h (Nat.not_succ_le_self 1)
  · rfl

theorem gives_bitXor (hcount : 2 ≤ ints.length)
    (hvalues : operands.map Located.value = ints.map .int) :
    Operation.bitXor.Gives operands (.ok (.int (ints.foldr (· ^^^ ·) 0))) := by
  have hlength : operands.length = ints.length := by simpa using congrArg List.length hvalues
  refine Operation.gives_of_decides (Nat.le_trans (by decide) (hlength ▸ hcount)) ?_
  have htotal : exclusiveOr (ints.reverse ++ []) = ints.foldr (· ^^^ ·) 0 := by
    rw [List.append_nil, exclusiveOr_eq_foldr (by rwa [List.length_reverse])]
    exact (List.reverse_perm ints).foldr_eq 0
  rw [← htotal]
  exact (reaches_bitXor [] hvalues).finishes

/-- The complement of a single integer. -/
theorem gives_complement (int : Int64) (span : Position) :
    Operation.bitXor.Gives (H := H) [⟨.int int, span⟩] (.ok (.int (~~~int))) := by
  have hvalues : [(⟨.int int, span⟩ : Located (Value H))].map Located.value = [int].map .int := rfl
  exact Operation.gives_of_decides (Nat.le_refl 1) (reaches_bitXor [] hvalues).finishes

/-- What an operation does to the bits of two words, it does to those of many. -/
theorem combinesBits_of_gives [Std.Associative op] [Std.Commutative op] {operation : Operation}
    {law : Bool → Bool → Bool} {neutral : Bool}
    (hbit : ∀ a b, ∀ place < 64,
      Integer.bit (op a b) place = law (Integer.bit a place) (Integer.bit b place))
    (hunit : ∀ place < 64, Integer.bit unit place = neutral)
    (hgives : ∀ (ints : List Int64) (operands : List (Located (Value H))), 2 ≤ ints.length →
      operands.map Located.value = ints.map .int →
      operation.Gives operands (.ok (.int (ints.foldr op unit)))) :
    operation.CombinesBits H law neutral := by
  intro ints hcount
  refine ⟨ints.foldr op unit, fun place hplace =>
    Integer.bit_foldr (fun a b => hbit a b place hplace) (hunit place hplace) ints, ?_⟩
  intro ints' operands hperm hvalues
  have htotal : ints'.foldr op unit = ints.foldr op unit := hperm.foldr_eq unit
  rw [← htotal]
  exact hgives ints' operands (hperm.length_eq ▸ hcount) hvalues

end

/-- `band` gives the bits that all operands have, `bor` those that one or more have, `bxor` those
that an odd number of operands have. -/
theorem combinesBits_catalog [Host H] :
    Operation.bitAnd.CombinesBits H (· && ·) true ∧ Operation.bitOr.CombinesBits H (· || ·) false ∧
      Operation.bitXor.CombinesBits H (· ^^ ·) false := by
  have hzero : ∀ place < 64, Integer.bit 0 place = false := by decide
  have hones : ∀ place < 64, Integer.bit (-1) place = true := by decide
  refine ⟨combinesBits_of_gives (fun a b place hplace => ?_) hones fun ints operands =>
      gives_bits rfl rfl fun a => Int64.neg_one_and,
    combinesBits_of_gives (fun a b place hplace => ?_) hzero fun ints operands =>
      gives_bits rfl rfl fun a => Int64.zero_or,
    combinesBits_of_gives (fun a b place hplace => ?_) hzero fun ints operands => gives_bitXor⟩
  · rw [Integer.bit_eq_getLsbD _ hplace, Int64.toBitVec_and, BitVec.getLsbD_and,
      Integer.bit_eq_getLsbD _ hplace, Integer.bit_eq_getLsbD _ hplace]
  · rw [Integer.bit_eq_getLsbD _ hplace, Int64.toBitVec_or, BitVec.getLsbD_or,
      Integer.bit_eq_getLsbD _ hplace, Integer.bit_eq_getLsbD _ hplace]
  · rw [Integer.bit_eq_getLsbD _ hplace, Int64.toBitVec_xor, BitVec.getLsbD_xor,
      Integer.bit_eq_getLsbD _ hplace, Integer.bit_eq_getLsbD _ hplace]

/-! ### Shifts -/

/-- Whether an integer is a number of places to shift by. -/
def IsShift (count : Int64) : Prop :=
  0 ≤ count.toInt ∧ count.toInt ≤ 63

section

variable (shift : Int64 → Nat → Int64) (word : Int64) {count : Int64} (span span' : Position)

theorem shiftOf_int (right : Located (Value H)) :
    shiftOf shift ⟨.int word, span⟩ right =
      (shiftOperand right).map fun places => .int (shift word places) := by
  rw [shiftOf, intOperand]
  cases shiftOperand right <;> rfl

theorem shiftOf_of_isShift (h : IsShift count) :
    shiftOf (H := H) shift ⟨.int word, span⟩ ⟨.int count, span'⟩ =
      .ok (.int (shift word count.toInt.toNat)) := by
  have hoperand : shiftOperand (H := H) ⟨.int count, span'⟩ = .ok count.toInt.toNat :=
    (shiftOperand_eq _).trans (if_pos h)
  rw [shiftOf_int, hoperand]
  rfl

theorem shiftOf_of_not_isShift (h : ¬IsShift count) :
    shiftOf (H := H) shift ⟨.int word, span⟩ ⟨.int count, span'⟩ =
      .error ⟨.outOfRange count.toInt 0 63, span'⟩ := by
  have hoperand : shiftOperand (H := H) ⟨.int count, span'⟩ =
      .error ⟨.outOfRange count.toInt 0 63, span'⟩ := (shiftOperand_eq _).trans (if_neg h)
  rw [shiftOf_int, hoperand]
  rfl

end

/-- Whether a shift, called on two integers, has a result that is `shift` of them, or fails at the
second because that is no number of places. -/
def Operation.Shifts (H : Type) [Host H] (operation : Operation) (shift : Int64 → Nat → Int64) :
    Prop :=
  ∀ (word count : Int64) (span span' : Position),
    (¬IsShift count → operation.Gives (H := H) [⟨.int word, span⟩, ⟨.int count, span'⟩]
      (.error ⟨.outOfRange count.toInt 0 63, span'⟩)) ∧
    (IsShift count → operation.Gives (H := H) [⟨.int word, span⟩, ⟨.int count, span'⟩]
      (.ok (.int (shift word count.toInt.toNat))))

theorem shifts_of_fold [Host H] {operation : Operation} {shift : Int64 → Nat → Int64}
    (hfold : operation.fold = .binary (shiftOf (H := H) shift))
    (harity : operation.arity = .exactly 2) : operation.Shifts H shift := by
  intro word count span span'
  have hgives {outcome : Except EvalError (Value H)}
      (houtcome : shiftOf shift ⟨.int word, span⟩ ⟨.int count, span'⟩ = outcome) :
      operation.Gives [⟨.int word, span⟩, ⟨.int count, span'⟩] outcome := by
    refine Operation.gives_of_decides (by rw [harity]; rfl) ?_
    rw [hfold, ← houtcome]
    exact ArgumentFold.binary_decides _ _ _
  exact ⟨fun h => hgives (shiftOf_of_not_isShift shift word span span' h),
    fun h => hgives (shiftOf_of_isShift shift word span span' h)⟩

/-- Calls of the operations on bits with integers for operands.

Those on many combine the bits at each place, in whatever order the operands stand. `bxor` of a
single integer is its complement, which is undone by another. The shifts fail if and only if their
second operand is not from 0 to 63. Otherwise the left one is a product modulo `2 ^ 64`, the right
one a quotient that is rounded down, and the one undoes the other if and only if no bit is lost. -/
theorem bit_operations [Host H] :
    (Operation.bitAnd.CombinesBits H (· && ·) true ∧
      Operation.bitOr.CombinesBits H (· || ·) false ∧
      Operation.bitXor.CombinesBits H (· ^^ ·) false) ∧
    (∀ word : Int64, ∃ opposite : Int64, opposite.toInt = -word.toInt - 1 ∧
      (∀ span, Operation.bitXor.Gives (H := H) [⟨.int word, span⟩] (.ok (.int opposite))) ∧
      ∀ span, Operation.bitXor.Gives (H := H) [⟨.int opposite, span⟩] (.ok (.int word))) ∧
    (Operation.shiftLeft.Shifts H shiftLeft ∧ Operation.shiftRight.Shifts H shiftRight) ∧
    ∀ (word : Int64) (count : Nat), count ≤ 63 →
      (shiftLeft word count).toInt ≡ word.toInt * 2 ^ count [ZMOD 2 ^ 64] ∧
      (shiftRight word count).toInt = word.toInt / 2 ^ count ∧
      (shiftRight (shiftLeft word count) count = word ↔
        -2 ^ (63 - count) ≤ word.toInt ∧ word.toInt < 2 ^ (63 - count)) := by
  refine ⟨combinesBits_catalog, fun word => ?_, ⟨shifts_of_fold rfl rfl, shifts_of_fold rfl rfl⟩,
    fun word count hcount => ⟨?_, ?_, ?_⟩⟩
  · refine ⟨~~~word, toInt_complement word, gives_complement word, fun span => ?_⟩
    have hback := gives_complement (H := H) (~~~word) span
    rwa [Int64.not_not] at hback
  · rw [toInt_shiftLeft word (Nat.lt_succ_of_le hcount)]
    exact Int.bmod_emod
  · exact toInt_shiftRight word (Nat.lt_succ_of_le hcount)
  · exact shiftRight_shiftLeft_eq_iff word (Nat.lt_succ_of_le hcount)

/-- A count of `2 ^ 32` is none to shift by, though its lower 32 bits are. Half of -7 is rounded
down. -/
theorem bit_operations_shifts :
    (eval 6 (.list .paren [.symbol (numberOf [] "lshift") ⟨"t", 1, 2⟩, .int 1 ⟨"t", 1, 9⟩,
        .int 4294967296 ⟨"t", 1, 11⟩] ⟨"t", 1, 1⟩) .root).apply (.full 0 : Environment Empty) =
      (.error (.fault ⟨.outOfRange 4294967296 0 63, ⟨"t", 1, 11⟩⟩), .full 0) ∧
    (eval 6 (.list .paren [.symbol (numberOf [] "rshift") ⟨"t", 1, 2⟩, .int (-7) ⟨"t", 1, 9⟩,
        .int 1 ⟨"t", 1, 12⟩] ⟨"t", 1, 1⟩) .root).apply (.full 0 : Environment Empty) =
      (.ok (.int (-4)), .full 0) := by
  obtain ⟨-, -, ⟨hleft, hright⟩, hlaws⟩ := bit_operations (H := Empty)
  let left : Call := ⟨.paren, .symbol (numberOf [] "lshift") ⟨"t", 1, 2⟩,
    [.int 1 ⟨"t", 1, 9⟩, .int 4294967296 ⟨"t", 1, 11⟩], ⟨"t", 1, 1⟩⟩
  let right : Call := ⟨.paren, .symbol (numberOf [] "rshift") ⟨"t", 1, 2⟩,
    [.int (-7) ⟨"t", 1, 9⟩, .int 1 ⟨"t", 1, 12⟩], ⟨"t", 1, 1⟩⟩
  constructor
  · exact (hleft 1 4294967296 ⟨"t", 1, 9⟩ ⟨"t", 1, 11⟩).1 (fun h => absurd h.2 (by decide)) 5
      (eval 5) left .root (.full 0) (.full 0)
      (Operation.gets_full (by decide) (.next rfl (.next rfl (.done _))) rfl) rfl
  · have hresult := (hright (-7) 1 ⟨"t", 1, 9⟩ ⟨"t", 1, 12⟩).2 ⟨by decide, by decide⟩ 5
      (eval 5) right .root (.full 0) (.full 0)
      (Operation.gets_full (by decide) (.next rfl (.next rfl (.done _))) rfl) rfl
    have hhalf : shiftRight (-7) (1 : Int64).toInt.toNat = -4 :=
      Int64.toInt_inj.1 ((hlaws (-7) 1 (by decide)).2.1.trans (by decide))
    rwa [hhalf] at hresult

end BracketLisp
