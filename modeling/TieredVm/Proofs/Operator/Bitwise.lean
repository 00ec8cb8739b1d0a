import Mathlib.Data.Int.Bitwise
import TieredVm.Proofs.Operator.Integers

/-!
# Bitwise operators on integers

A word is an integer in two's complement: its bits below the width are the integer's, and above it the
sign is repeated (`testBit_toInt`). So combining words bit by bit combines the integers they stand for,
and shifting a word scales its integer, left modulo `2 ^ 32` and right rounded down. The machine counts
a shift by the low five bits of the count, which is the count modulo `32`, also for a negative one
(`ExactCount`).

* `Value.Unsigned`: the answer of the zero-filling shift, which can leave the 32 bits.
* `toInt_shiftLeft`, `toInt_shiftRight`, `toNat_unsignedShift`: the three shifts.
* `bitwise_operators`: all operators, for every interpreter and machine.
-/

namespace TieredVm

/-! ## What the answers are -/

/-- The count of a shift: the least natural number that the operand is congruent to modulo `32`. -/
def shiftCount (b : Int32) : Nat := (b.toInt % 32).toNat

/-- A natural number: stored as an integer up to the greatest one, and otherwise the double worth it. -/
structure Value.Unsigned (v : Value) (u : Int) : Prop where
  stored : u ≤ Int32.maxValue.toInt → ∃ n : Int32, n.toInt = u ∧ v = .ofInt n
  promoted : Int32.maxValue.toInt < u → ∃ d : Double, d.worth? = some (.ofRat u) ∧ v = .ofDouble d

/-- The counts that the machine's shifts are given. They are below the width of a word, so a shift that
checks its count accepts them, and shifts by all of it. -/
structure ExactCount (b : Int32) : Prop where
  lt : shiftCount b < 32
  signed : (b &&& 31).toInt = shiftCount b
  unsigned : (b.toUInt32 &&& 31).toNat = shiftCount b

/-- Bitwise operators on two patterns that hold integers: each call answers, leaves the machine as it
was, and the answer is what the integers give. -/
structure IntBitwise {R : Type} (I : Interpreter R) (m : Machine R) (x y : Value)
    (a b : Int32) : Prop where
  count : ExactCount b
  and : ∃ r : Int32, I.binary (.logic .and) x y m = .ok (.ofInt r) m ∧
    ∀ i, r.toInt.testBit i = (a.toInt.testBit i && b.toInt.testBit i)
  or : ∃ r : Int32, I.binary (.logic .or) x y m = .ok (.ofInt r) m ∧
    ∀ i, r.toInt.testBit i = (a.toInt.testBit i || b.toInt.testBit i)
  xor : ∃ r : Int32, I.binary (.logic .xor) x y m = .ok (.ofInt r) m ∧
    ∀ i, r.toInt.testBit i = Bool.xor (a.toInt.testBit i) (b.toInt.testBit i)
  shl : ∃ r : Int32, I.binary (.logic .shl) x y m = .ok (.ofInt r) m ∧
    r.toInt ≡ a.toInt * 2 ^ shiftCount b [ZMOD 2 ^ 32]
  sar : ∃ r : Int32, I.binary (.logic .sar) x y m = .ok (.ofInt r) m ∧
    r.toInt = ⌊(a.toInt : ℚ) / 2 ^ shiftCount b⌋
  shr : ∃ v, I.binary .shr x y m = .ok v m ∧
    v.Unsigned ⌊((a.toInt % 2 ^ 32 : ℤ) : ℚ) / 2 ^ shiftCount b⌋
  shr_double_iff : Int32.maxValue.toInt < ⌊((a.toInt % 2 ^ 32 : ℤ) : ℚ) / 2 ^ shiftCount b⌋ ↔
    shiftCount b = 0 ∧ a.toInt < 0
  bitNot : ∃ r : Int32, I.unaryOp .bitNot x m = .ok (.ofInt r) m ∧ r.toInt = -a.toInt - 1

/-! ## Words as integers -/

/-- The bits of a word's integer: the word's own, and its sign above them. -/
theorem testBit_toInt {w : Nat} (x : BitVec w) (i : Nat) :
    x.toInt.testBit i = if i < w then x.getLsbD i else x.msb := by
  cases hmsb : x.msb with
  | false =>
    have hint : x.toInt = (x.toNat : Int) := by
      rw [BitVec.toInt_eq_msb_cond, hmsb, if_neg Bool.false_ne_true]
    rw [hint]
    show x.toNat.testBit i = _
    rw [BitVec.testBit_toNat]
    split
    case isTrue => rfl
    case isFalse h => exact BitVec.getLsbD_of_ge x i (by omega)
  | true =>
    have hlt := x.isLt
    have hint : x.toInt = Int.negSucc (~~~x).toNat := by
      rw [BitVec.toInt_eq_msb_cond, hmsb, if_pos rfl, BitVec.toNat_not, Int.negSucc_eq]
      omega
    rw [hint]
    show (!(~~~x).toNat.testBit i) = _
    rw [BitVec.testBit_toNat, BitVec.getLsbD_not]
    split
    case isTrue h => rw [decide_eq_true h, Bool.true_and, Bool.not_not]
    case isFalse h => rw [decide_eq_false h, Bool.false_and, Bool.not_false]

/-- A combination of words bit by bit combines their integers bit by bit. -/
theorem testBit_toInt_combined {w : Nat} {f : Bool → Bool → Bool} {x y z : BitVec w} (hw : 0 < w)
    (h : ∀ i, i < w → z.getLsbD i = f (x.getLsbD i) (y.getLsbD i)) (i : Nat) :
    z.toInt.testBit i = f (x.toInt.testBit i) (y.toInt.testBit i) := by
  simp only [testBit_toInt]
  split
  case isTrue hi => exact h i hi
  case isFalse =>
    simp only [BitVec.msb_eq_getLsbD_last]
    exact h (w - 1) (by omega)

section

variable (a b : Int32)

/-- A word read as unsigned is its integer modulo `2 ^ 32`. -/
theorem toNat_toUInt32 : (a.toUInt32.toNat : Int) = a.toInt % 2 ^ 32 := by
  have hword : a.toUInt32.toNat = a.toBitVec.toNat := rfl
  have hint : a.toInt = a.toBitVec.toInt := rfl
  have hlt := a.toBitVec.isLt
  rw [hword, hint, BitVec.toInt_eq_toNat_cond]
  split <;> omega

theorem shiftCount_eq : shiftCount a = a.toUInt32.toNat % 32 := by
  have hword := toNat_toUInt32 a
  unfold shiftCount
  omega

theorem toNat_mask (n : Nat) : n &&& 31 = n % 32 := Nat.and_two_pow_sub_one_eq_mod n 5

/-- The masked count as a word. -/
theorem toNat_masked : (b &&& 31).toBitVec.toNat = shiftCount b := by
  rw [shiftCount_eq, Int32.toBitVec_and, BitVec.toNat_and]
  exact toNat_mask _

theorem exactCount : ExactCount b where
  lt := shiftCount_eq b ▸ Nat.mod_lt _ (by decide)
  signed := by
    have hint : (b &&& 31).toInt = (b &&& 31).toBitVec.toInt := rfl
    have hlt : shiftCount b < 32 := shiftCount_eq b ▸ Nat.mod_lt _ (by decide)
    rw [hint, BitVec.toInt_eq_toNat_cond, toNat_masked]
    exact if_pos (by omega)
  unsigned := by
    rw [UInt32.toNat_and, shiftCount_eq]
    exact toNat_mask _

/-- A masked count is below the width, so the shift by it is not reduced again. -/
theorem toNat_smod_masked : ((b &&& 31).toBitVec.smod 32).toNat = shiftCount b := by
  have hlt := (exactCount b).lt
  have hmsb : (b &&& 31).toBitVec.msb = false := by
    rw [BitVec.msb_eq_decide, toNat_masked, decide_eq_false_iff_not]
    omega
  rw [BitVec.smod_eq, hmsb, show (32 : BitVec 32).msb = false from rfl]
  dsimp only
  rw [BitVec.umod_eq, BitVec.toNat_umod, toNat_masked]
  exact Nat.mod_eq_of_lt hlt

theorem toInt_shiftLeft : (a <<< (b &&& 31)).toInt ≡ a.toInt * 2 ^ shiftCount b [ZMOD 2 ^ 32] := by
  have hint : (a <<< (b &&& 31)).toInt = (a <<< (b &&& 31)).toBitVec.toInt := rfl
  rw [hint, Int32.toBitVec_shiftLeft, BitVec.shiftLeft_eq', toNat_smod_masked,
    BitVec.toInt_shiftLeft, Nat.shiftLeft_eq]
  have hword : (a.toBitVec.toNat : Int) ≡ a.toInt [ZMOD 2 ^ 32] := by
    rw [show (a.toBitVec.toNat : Int) = a.toInt % 2 ^ 32 from toNat_toUInt32 a]
    exact Int.mod_modEq _ _
  calc ((a.toBitVec.toNat * 2 ^ shiftCount b : Nat) : Int).bmod (2 ^ 32)
      ≡ (a.toBitVec.toNat * 2 ^ shiftCount b : Nat) [ZMOD 2 ^ 32] := Double.bmod_modEq _
    _ = a.toBitVec.toNat * 2 ^ shiftCount b := by push_cast; rfl
    _ ≡ a.toInt * 2 ^ shiftCount b [ZMOD 2 ^ 32] := hword.mul_right _

theorem toInt_shiftRight : (a >>> (b &&& 31)).toInt = ⌊(a.toInt : ℚ) / 2 ^ shiftCount b⌋ := by
  have hint : (a >>> (b &&& 31)).toInt = (a >>> (b &&& 31)).toBitVec.toInt := rfl
  rw [hint, Int32.toBitVec_shiftRight, BitVec.toInt_sshiftRight', toNat_smod_masked,
    Int.shiftRight_eq_div_pow, ← Rat.floor_intCast_div_natCast, Nat.cast_pow, Nat.cast_two]
  rfl

theorem toNat_unsignedShift :
    ((unsignedShift a b).toNat : Int) = ⌊((a.toInt % 2 ^ 32 : ℤ) : ℚ) / 2 ^ shiftCount b⌋ := by
  have hcount := exactCount b
  rw [unsignedShift, UInt32.toNat_shiftRight, hcount.unsigned, Nat.mod_eq_of_lt hcount.lt,
    Nat.shiftRight_eq_div_pow, Int.natCast_div, toNat_toUInt32, ← Rat.floor_intCast_div_natCast,
    Nat.cast_pow, Nat.cast_two]

/-- Only an unshifted negative word leaves the signed range. -/
theorem lt_unsignedShift_iff :
    Int32.maxValue.toInt < (unsignedShift a b).toNat ↔ shiftCount b = 0 ∧ a.toInt < 0 := by
  have hcount := exactCount b
  have hword := toNat_toUInt32 a
  have hlow := a.le_toInt
  have hhigh := a.toInt_lt
  rw [unsignedShift, UInt32.toNat_shiftRight, hcount.unsigned, Nat.mod_eq_of_lt hcount.lt,
    Nat.shiftRight_eq_div_pow, Int32.toInt_maxValue]
  cases h : shiftCount b with
  | zero =>
    rw [Nat.pow_zero, Nat.div_one]
    omega
  | succ s =>
    have hhalf : a.toUInt32.toNat / 2 ^ (s + 1) ≤ a.toUInt32.toNat / 2 :=
      Nat.div_le_div_left (Nat.le_self_pow (Nat.succ_ne_zero s) 2) two_pos
    omega

end

/-! ## The answers -/

/-- What is promoted only outside the 32 bits is, for a natural number, promoted only above them. -/
theorem Value.Promoted.unsigned {v : Value} {u : Int} (h : v.Promoted u) (h0 : 0 ≤ u) :
    v.Unsigned u where
  stored hle := by
    rw [Int32.toInt_maxValue] at hle
    have hword : (Int32.ofInt u).toInt = u := Int32.toInt_ofInt_of_le (by omega) (by omega)
    exact ⟨_, hword, h.stored _ hword⟩
  promoted hlt := h.promoted fun n hn => by
    have hhigh := n.toInt_lt
    rw [Int32.toInt_maxValue] at hlt
    omega

section

variable (a b : Int32)

theorem BinaryOp.promoted_shrInt : (shrInt a b).Promoted (unsignedShift a b).toNat := by
  obtain ⟨z, hz, hshr⟩ := exists_shrInt a b
  have hlt := (unsignedShift a b).toNat_lt
  rw [hshr, ← hz]
  exact promoted_checked (by omega) rfl

theorem UnaryOp.toInt_complement : (~~~a).toInt = -a.toInt - 1 := by
  have hlow := a.le_toInt
  have hhigh := a.toInt_lt
  rw [Int32.toInt_not, Int.bmod_eq_of_le (by omega) (by omega)]

end

/-- **Bitwise operators meet their definition on integers**, and never stop. -/
theorem bitwise_operators {R : Type} (I : Interpreter R) (m : Machine R) {x y : Value} {a b : Int32}
    (hx : x.asInt? = some a) (hy : y.asInt? = some b) : IntBitwise I m x y a b where
  count := exactCount b
  and := ⟨_, binary_answers I hx hy rfl,
    testBit_toInt_combined (by decide) fun _ _ => BitVec.getLsbD_and⟩
  or := ⟨_, binary_answers I hx hy rfl,
    testBit_toInt_combined (by decide) fun _ _ => BitVec.getLsbD_or⟩
  xor := ⟨_, binary_answers I hx hy rfl,
    testBit_toInt_combined (by decide) fun _ _ => BitVec.getLsbD_xor⟩
  shl := ⟨_, binary_answers I hx hy rfl, toInt_shiftLeft a b⟩
  sar := ⟨_, binary_answers I hx hy rfl, toInt_shiftRight a b⟩
  shr := ⟨_, binary_answers I hx hy rfl, toNat_unsignedShift a b ▸
    (BinaryOp.promoted_shrInt a b).unsigned (Int.natCast_nonneg _)⟩
  shr_double_iff := toNat_unsignedShift a b ▸ lt_unsignedShift_iff a b
  bitNot := ⟨_, unary_answers I hx nofun, UnaryOp.toInt_complement a⟩

/-- A negative count, and a negative operand that the zero-filling shift leaves where it is. -/
theorem bitwise_operators_unshifted :
    IntBitwise Reference.interpreter { runtime := {} } (.ofInt (-1)) (.ofInt (-32)) (-1) (-32) :=
  bitwise_operators Reference.interpreter _ (Value.asInt?_of_kind (Value.kind_ofInt _))
    (Value.asInt?_of_kind (Value.kind_ofInt _))

end TieredVm
