import TieredVm.Proofs.Double.Worth
import TieredVm.Proofs.Operator.HandOff
import TieredVm.Proofs.Value.Number
import TieredVm.Reference.Entries

/-!
# Integer arithmetic

Two integers are added, subtracted, multiplied and divided with remainder inline. What comes out is
decided by the exact integer result: an integer of 32 bits is stored as one, any other is a double, and
a zero that should carry a sign is the negative zero. No machine word on the way overflows
(`ExactSteps`), and the machine is left as it was.

* `Value.Promoted`, `Value.Product`, `Value.Remainder`, `Value.Negation`: what the answers are.
* `promoted_checked`: the one step that decides between an integer and a double.
* `integer_arithmetic`: all operators, for every interpreter and machine.
-/

namespace TieredVm

open Double (Extended)

/-! ## What the answers are -/

namespace Value

/-- An exact integer: stored as an integer if it has 32 bits, and otherwise the double worth it. -/
structure Promoted (v : Value) (e : Int) : Prop where
  stored : ∀ n : Int32, n.toInt = e → v = .ofInt n
  promoted : (∀ n : Int32, n.toInt ≠ e) →
    ∃ d : Double, d.worth? = some (.ofRat e) ∧ v = .ofDouble d

/-- A product: the negative zero where a factor is negative, stored as an integer if it has 32 bits,
and otherwise the double nearest to it. -/
structure Product (v : Value) (a b : Int) : Prop where
  zero : a * b = 0 → a < 0 ∨ b < 0 → v = .ofDouble (Double.zero true)
  stored : ¬ (a * b = 0 ∧ (a < 0 ∨ b < 0)) → ∀ n : Int32, n.toInt = a * b → v = .ofInt n
  rounded : (∀ n : Int32, n.toInt ≠ a * b) →
    ∃ d : Double, d.IsNearest (a * b : Int) ∧ v = .ofDouble d

/-- A remainder: what truncating division leaves of the dividend, with the dividend's sign. Dividing by
zero is the error sentinel. -/
structure Remainder (v : Value) (a b : Int) : Prop where
  byZero : b = 0 → v = .exception
  zero : b ≠ 0 → a - b * a.tdiv b = 0 → a < 0 → v = .ofDouble (Double.zero true)
  stored : b ≠ 0 → ¬ (a - b * a.tdiv b = 0 ∧ a < 0) →
    ∃ n : Int32, n.toInt = a - b * a.tdiv b ∧ v = .ofInt n
  number : b ≠ 0 → ∃ d : Double, v.IsNumber d ∧
    d.worth? = some (.ofRat ((a - b * a.tdiv b : Int) : ℚ)) ∧ d.negative = decide (a < 0)

/-- A negation: zero and the least integer have none of 32 bits. -/
structure Negation (v : Value) (a : Int32) : Prop where
  zero : a = 0 → v = .ofDouble (Double.zero true)
  least : a = Int32.minValue →
    ∃ d : Double, d.worth? = some (.ofRat (2 ^ 31)) ∧ v = .ofDouble d
  stored : a ≠ 0 → a ≠ Int32.minValue → v = .ofInt (-a) ∧ (-a).toInt = -a.toInt

end Value

/-- The word operations that two integers are combined with before a result is in range do not
overflow: the product in 64 bits, the remainder, and the negation of all but the least integer. -/
structure ExactSteps (a b : Int32) : Prop where
  product : (a.toInt64 * b.toInt64).toInt = a.toInt * b.toInt
  remainder : b ≠ 0 → (a % b).toInt = a.toInt - b.toInt * a.toInt.tdiv b.toInt
  negation : a ≠ Int32.minValue → (-a).toInt = -a.toInt

/-- Integer arithmetic on two patterns that hold integers: each call answers, leaves the machine as it
was, and the answer is the exact result, stored or promoted. -/
structure IntArithmetic {R : Type} (I : Interpreter R) (m : Machine R) (x y : Value)
    (a b : Int32) : Prop where
  steps : ExactSteps a b
  add : ∃ v, I.binary .add x y m = .ok v m ∧ v.Promoted (a.toInt + b.toInt)
  sub : ∃ v, I.binary (.arith .sub) x y m = .ok v m ∧ v.Promoted (a.toInt - b.toInt)
  mul : ∃ v, I.binary (.arith .mul) x y m = .ok v m ∧ v.Product a.toInt b.toInt
  mod : ∃ v, I.binary (.arith .mod) x y m = .ok v m ∧ v.Remainder a.toInt b.toInt
  neg : ∃ v, I.unaryOp .neg x m = .ok v m ∧ v.Negation a
  inc : ∃ v, I.unaryOp .inc x m = .ok v m ∧ v.Promoted (a.toInt + 1)
  dec : ∃ v, I.unaryOp .dec x m = .ok v m ∧ v.Promoted (a.toInt - 1)

/-! ## Words -/

theorem toInt_neg_of_ne_minValue {a : Int32} (h : a ≠ Int32.minValue) : (-a).toInt = -a.toInt := by
  have hlow := a.le_toInt
  have hhigh := a.toInt_lt
  have hne : a.toInt ≠ -2 ^ 31 := fun h0 => h (Int32.toInt_inj.mp (h0.trans Int32.toInt_minValue.symm))
  rw [Int32.toInt_neg, Int.bmod_eq_of_le (by omega) (by omega)]

theorem natAbs_toInt_le (a : Int32) : a.toInt.natAbs ≤ 2 ^ 31 := by
  have hlow := a.le_toInt
  have hhigh := a.toInt_lt
  omega

theorem natAbs_product_le (a b : Int32) : (a.toInt * b.toInt).natAbs ≤ 2 ^ 62 := by
  calc (a.toInt * b.toInt).natAbs = a.toInt.natAbs * b.toInt.natAbs := Int.natAbs_mul _ _
    _ ≤ 2 ^ 31 * 2 ^ 31 := Nat.mul_le_mul (natAbs_toInt_le a) (natAbs_toInt_le b)
    _ = 2 ^ 62 := by norm_num

theorem exactSteps (a b : Int32) : ExactSteps a b where
  product := by
    have hp := natAbs_product_le a b
    rw [Int64.toInt_mul, Int32.toInt_toInt64, Int32.toInt_toInt64,
      Int.bmod_eq_of_le (by omega) (by omega)]
  remainder _ := by rw [Int32.toInt_mod, Int.tmod_def]
  negation := toInt_neg_of_ne_minValue

/-! ## Integers of 32 bits -/

section

variable {z : Int} {d : Double}

theorem toInt_of_checked {r : Int32} (h : checkedInt32 z = some r) : r.toInt = z := by
  unfold checkedInt32 at h
  rw [Option.ite_none_right_eq_some, Option.some.injEq] at h
  rw [← h.2, Value.toInt_of_fits h.1]

theorem toInt_ne_of_unchecked (h : checkedInt32 z = none) (n : Int32) : n.toInt ≠ z := by
  rintro rfl
  have hlow := n.le_toInt
  have hhigh := n.toInt_lt
  have hfits : Value.fitsInt32 n.toInt = true := by
    unfold Value.fitsInt32
    rw [Bool.and_eq_true, decide_eq_true_eq, decide_eq_true_eq]
    omega
  rw [checkedInt32, if_pos hfits] at h
  exact absurd h nofun

theorem checkedInt32_toInt (n : Int32) : checkedInt32 n.toInt = some n := by
  cases h : checkedInt32 n.toInt with
  | some r => rw [Int32.toInt_inj.mp (toInt_of_checked h)]
  | none => exact absurd rfl (toInt_ne_of_unchecked h n)

/-- An integer in range is stored, and another one is what it is worth as a double. -/
theorem promoted_checked (hz : z.natAbs < 2 ^ 53) (hd : d = Double.ofInt z) :
    (match checkedInt32 z with
      | some r => Value.ofInt r
      | none => .ofDouble d).Promoted z := by
  cases hc : checkedInt32 z with
  | some r =>
    have hr := toInt_of_checked hc
    exact ⟨fun n hn => by rw [Int32.toInt_inj.mp (hn.trans hr.symm)], fun hne => absurd hr (hne r)⟩
  | none =>
    exact ⟨fun n hn => absurd hn (toInt_ne_of_unchecked hc n),
      fun _ => ⟨d, hd ▸ Double.worth?_ofInt hz, rfl⟩⟩

end

/-! ## The answers -/

/-- Integers of 62 bits are below the largest double. -/
theorem natAbs_le_largest {z : Int} (h : z.natAbs ≤ 2 ^ 62) : (z.natAbs : ℚ) ≤ Double.largest := by
  calc (z.natAbs : ℚ) ≤ 2 ^ (62 : Int) := by exact_mod_cast h
    _ ≤ 1 * 2 ^ (971 : Int) := by
        rw [one_mul]
        exact zpow_le_zpow_right₀ one_le_two (by norm_num)
    _ ≤ Double.largest := mul_le_mul_of_nonneg_right (by norm_num [Double.hiddenBit])
        (zpow_nonneg zero_le_two _)

/-- A remainder of truncating division is zero or has the sign of the dividend. -/
theorem tmod_neg_iff {a b : Int} (h : ¬ (a.tmod b = 0 ∧ a < 0)) : a.tmod b < 0 ↔ a < 0 := by
  constructor
  · intro hr
    by_contra ha
    have hnonneg := Int.tmod_nonneg b (not_lt.mp ha)
    omega
  · intro ha
    have hnonneg := Int.tmod_nonneg b (show 0 ≤ -a by omega)
    rw [Int.neg_tmod] at hnonneg
    exact lt_of_le_of_ne (by omega) fun h0 => h ⟨h0, ha⟩

theorem Double.negative_ofInt {z : Int} (h : z.natAbs < 2 ^ 53) :
    (Double.ofInt z).negative = decide (z < 0) :=
  (Double.datum_eq_finite (Double.datum_ofInt h)).2.1

section

variable (a b : Int32)

theorem BinaryOp.promoted_addInt : (addInt a b).Promoted (a.toInt + b.toInt) := by
  have ha := natAbs_toInt_le a
  have hb := natAbs_toInt_le b
  exact promoted_checked (by omega) (add_ofInt32 a b)

theorem ArithOp.promoted_subInt {v : Value} (h : ofInts? a b .sub = some v) :
    v.Promoted (a.toInt - b.toInt) := by
  have ha := natAbs_toInt_le a
  have hb := natAbs_toInt_le b
  rw [← Option.some.inj h]
  exact promoted_checked (by omega) (sub_ofInt32 a b)

theorem ArithOp.product_mulInt : (mulInt a b).Product a.toInt b.toInt := by
  unfold mulInt
  simp only [Int32.lt_iff_toInt_lt, Int32.toInt_zero]
  split
  case isTrue h =>
    exact ⟨fun _ _ => rfl, fun hnot => absurd h hnot, fun hne => absurd h.1.symm (hne 0)⟩
  case isFalse h =>
    refine ⟨fun h0 hneg => absurd ⟨h0, hneg⟩ h, fun _ n hn => ?_, fun hne => ?_⟩
    · cases hc : checkedInt32 (a.toInt * b.toInt) with
      | some r => rw [Int32.toInt_inj.mp (hn.trans (toInt_of_checked hc).symm)]
      | none => exact absurd hn (toInt_ne_of_unchecked hc n)
    · cases hc : checkedInt32 (a.toInt * b.toInt) with
      | some r => exact absurd (toInt_of_checked hc) (hne r)
      | none =>
        exact ⟨_, Double.ofInt_isNearest (natAbs_le_largest (natAbs_product_le a b)), rfl⟩

theorem ArithOp.remainder_modInt : (modInt a b).Remainder a.toInt b.toInt := by
  by_cases hb : b = 0
  · subst hb
    exact ⟨fun _ => rfl, fun h => absurd rfl h, fun h => absurd rfl h, fun h => absurd rfl h⟩
  · have hb' : b.toInt ≠ 0 := fun h0 => hb (Int32.toInt_inj.mp h0)
    have hlt : (a.toInt.tmod b.toInt).natAbs < 2 ^ 31 := by
      rw [Int.natAbs_tmod]
      exact lt_of_lt_of_le (Nat.mod_lt _ (by omega)) (natAbs_toInt_le b)
    unfold modInt
    rw [if_neg hb]
    simp only [Int32.lt_iff_toInt_lt, Int32.toInt_zero]
    split
    case isTrue h =>
      have hworth : (Double.zero true).worth? = some (.ofRat 0) := by
        rw [Double.worth?_of_finite (Double.datum_zero true), Double.signed_zero]
      refine ⟨fun h0 => absurd h0 hb', fun _ _ _ => rfl, fun _ hnot => ?_, fun _ =>
        ⟨Double.zero true, Value.isNumber_ofDouble _, ?_, ?_⟩⟩
      · rw [← Int.tmod_def] at hnot
        exact absurd h hnot
      · rw [← Int.tmod_def, h.1, Int.cast_zero, hworth]
      · rw [decide_eq_true h.2]
        rfl
    case isFalse h =>
      have hword : (Int32.ofInt (a.toInt.tmod b.toInt)).toInt = a.toInt.tmod b.toInt :=
        Int32.toInt_ofInt_of_le (by omega) (by omega)
      refine ⟨fun h0 => absurd h0 hb', fun _ h0 hneg => ?_, fun _ _ => ⟨_, ?_, rfl⟩, fun _ =>
        ⟨_, Value.isNumber_ofInt _, ?_, ?_⟩⟩
      · rw [← Int.tmod_def] at h0
        exact absurd ⟨h0, hneg⟩ h
      · rw [hword, Int.tmod_def]
      · rw [Double.ofInt32, hword, Double.worth?_ofInt (by omega), Int.tmod_def]
      · rw [Double.ofInt32, hword, Double.negative_ofInt (by omega), decide_eq_decide]
        exact tmod_neg_iff h

theorem UnaryOp.negation_ofInt : (UnaryOp.ofInt a .neg).Negation a := by
  have ha := natAbs_toInt_le a
  unfold UnaryOp.ofInt
  dsimp only
  refine ⟨fun h0 => if_pos h0, fun hleast => ?_, fun h0 hne => ?_⟩
  · subst hleast
    have hunchecked : checkedInt32 (-Int32.minValue.toInt) = none := by decide
    refine ⟨(Double.ofInt32 Int32.minValue).neg, ?_, by rw [if_neg (by decide), hunchecked]⟩
    have hneg : (Double.ofInt32 Int32.minValue).neg = Double.ofInt (2 ^ 31) := by
      rw [Double.ofInt32, Int32.toInt_minValue, Double.neg_ofInt (by decide)]
      rfl
    rw [hneg, Double.worth?_ofInt (by decide)]
    norm_num
  · have hneg := toInt_neg_of_ne_minValue hne
    rw [if_neg h0]
    cases hc : checkedInt32 (-a.toInt) with
    | some r =>
      have hr : -a = r := Int32.toInt_inj.mp (hneg.trans (toInt_of_checked hc).symm)
      exact ⟨congrArg Value.ofInt hr.symm, hneg⟩
    | none => exact absurd hneg (toInt_ne_of_unchecked hc _)

theorem UnaryOp.promoted_incInt : (UnaryOp.ofInt a .inc).Promoted (a.toInt + 1) := by
  have ha := natAbs_toInt_le a
  exact promoted_checked (by omega) (Double.add_ofInt (Double.natAbs_toInt_lt a) (by decide))

theorem UnaryOp.promoted_decInt : (UnaryOp.ofInt a .dec).Promoted (a.toInt - 1) := by
  have ha := natAbs_toInt_le a
  exact promoted_checked (by omega) (Double.sub_ofInt (Double.natAbs_toInt_lt a) (by decide))

end

/-! ## The calls -/

section

variable {R : Type} (I : Interpreter R) {m : Machine R} {x y v : Value} {a b : Int32}
  (hx : x.asInt? = some a)

include hx

theorem unary_answers {op : UnaryOp} (hop : op ≠ .plus) : I.unaryOp op x m = .ok (op.ofInt a) m := by
  rw [unaryOp_eq, UnaryOp.inline?, hx]
  dsimp only
  rw [if_neg hop]
  rfl

theorem binary_answers (hy : y.asInt? = some b) {op : BinaryOp} (h : op.ofInts? a b = some v) :
    I.binary op x y m = .ok v m := by
  have hboth : Value.bothInt? x y = some (a, b) := by rw [Value.bothInt?, hx, hy]; rfl
  rw [binary_eq, BinaryOp.inline?, hboth]
  dsimp only
  rw [h]
  rfl

end

/-- **Integer arithmetic is exact or promoted**, and never stops. -/
theorem integer_arithmetic {R : Type} (I : Interpreter R) (m : Machine R) {x y : Value} {a b : Int32}
    (hx : x.asInt? = some a) (hy : y.asInt? = some b) : IntArithmetic I m x y a b where
  steps := exactSteps a b
  add := ⟨_, binary_answers I hx hy rfl, BinaryOp.promoted_addInt a b⟩
  sub := ⟨_, binary_answers I hx hy rfl, ArithOp.promoted_subInt a b rfl⟩
  mul := ⟨_, binary_answers I hx hy rfl, ArithOp.product_mulInt a b⟩
  mod := ⟨_, binary_answers I hx hy rfl, ArithOp.remainder_modInt a b⟩
  neg := ⟨_, unary_answers I hx nofun, UnaryOp.negation_ofInt a⟩
  inc := ⟨_, unary_answers I hx nofun, UnaryOp.promoted_incInt a⟩
  dec := ⟨_, unary_answers I hx nofun, UnaryOp.promoted_decInt a⟩

/-- The least integer against minus one, where a sum, a product and a negation leave the 32 bits. -/
theorem integer_arithmetic_least :
    IntArithmetic Reference.interpreter { runtime := {} } (.ofInt Int32.minValue) (.ofInt (-1))
      Int32.minValue (-1) :=
  integer_arithmetic Reference.interpreter _ (Value.asInt?_of_kind (Value.kind_ofInt _))
    (Value.asInt?_of_kind (Value.kind_ofInt _))

end TieredVm
