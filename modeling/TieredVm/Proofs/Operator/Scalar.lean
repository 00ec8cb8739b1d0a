import TieredVm.Proofs.Operator.Numbers
import TieredVm.Proofs.Value.Codec

/-!
# The values that inline answers are

An inline answer is written as an integer, a boolean or a double (`Value.Scalar`), whatever bits its
operands have. Two answers are not: the remainder of two stored integers by zero is the error sentinel,
and the plus sign gives its operand back bit for bit.

* `Scalar.canonical`, `Scalar.tag`: such a value is canonical, under one of three tags.
* `BinaryOp.scalar_of_inline`, `UnaryOp.scalar_of_inline`: the answers.
-/

namespace TieredVm

namespace Value

/-- Written as an integer, a boolean or a double. -/
inductive Scalar : Value → Prop where
  | int (n : Int32) : Scalar (ofInt n)
  | bool (b : Bool) : Scalar (ofBool b)
  | double (d : Double) : Scalar (ofDouble d)

theorem Scalar.canonical {v : Value} (h : v.Scalar) : v.Canonical := by
  cases h with
  | int n => exact ⟨.int n, rfl⟩
  | bool b => exact ⟨.bool b, rfl⟩
  | double d => exact ⟨.float64 d, rfl⟩

theorem Scalar.tag {v : Value} (h : v.Scalar) : v.tag = .int ∨ v.tag = .bool ∨ v.tag = .float64 := by
  cases h with
  | int n => exact .inl (tag_ofInt n)
  | bool b => exact .inr (.inl (by cases b <;> rfl))
  | double d => exact .inr (.inr (tag_ofDouble d))

theorem scalar_number (d : Double) : (number d).Scalar := by
  unfold number
  split
  · exact .int _
  · exact .double d

/-- An integer that may have to be promoted. -/
theorem scalar_checked (n : Int) (d : Double) :
    (match checkedInt32 n with
      | some r => ofInt r
      | none => ofDouble d).Scalar := by
  cases checkedInt32 n with
  | some r => exact .int r
  | none => exact .double d

end Value

open Value

variable {v x y : Value}

/-! ## Binary operators -/

theorem ArithOp.scalar_ofInts? {op : ArithOp} {a b : Int32} (h : op.ofInts? a b = some v)
    (hzero : ¬ (op = .mod ∧ b = 0)) : v.Scalar := by
  cases op with
  | sub => cases h; exact scalar_checked _ _
  | mul =>
    cases h
    unfold mulInt
    dsimp only
    split
    · exact .double _
    · exact scalar_checked _ _
  | div => cases h; exact .double _
  | mod =>
    cases h
    have hb : b ≠ 0 := fun hb => hzero ⟨rfl, hb⟩
    unfold modInt
    rw [if_neg hb]
    dsimp only
    split
    · exact .double _
    · exact .int _
  | pow => exact absurd h nofun

theorem ArithOp.scalar_ofDoubles? {op : ArithOp} {a b : Double} (h : op.ofDoubles? a b = some v) :
    v.Scalar := by
  cases op with
  | pow => exact absurd h nofun
  | _ => cases h; exact .double _

theorem BinaryOp.scalar_shrInt (a b : Int32) : (shrInt a b).Scalar := by
  -- The shift is unfolded as a function: at given operands the kernel would compute it.
  obtain ⟨f, hf⟩ : ∃ f, f = shrInt := ⟨_, rfl⟩
  have hshift := hf
  conv at hshift =>
    rhs
    delta shrInt
  rw [← hf, hshift]
  dsimp only
  generalize ((unsignedShift a b).toNat : Int) = z
  exact scalar_checked z _

theorem BinaryOp.scalar_ofInts? {op : BinaryOp} {a b : Int32} (h : op.ofInts? a b = some v)
    (hzero : ¬ (op = .arith .mod ∧ b = 0)) : v.Scalar := by
  cases op with
  | add => cases h; exact scalar_checked _ _
  | arith op => exact ArithOp.scalar_ofInts? h fun ⟨hop, hb⟩ => hzero ⟨congrArg _ hop, hb⟩
  | logic op => cases h; exact .int _
  | shr => exact Option.some.inj h ▸ scalar_shrInt a b
  | relational op => cases h; exact .bool _
  | equal n => cases h; exact .bool _
  | strictEqual n => cases h; exact .bool _
  | instanceOf => exact absurd h nofun
  | contains => exact absurd h nofun

theorem BinaryOp.scalar_ofDoubles? {op : BinaryOp} {a b : Double} (h : op.ofDoubles? a b = some v) :
    v.Scalar := by
  cases op with
  | add => cases h; exact .double _
  | arith op => exact ArithOp.scalar_ofDoubles? h
  | _ => exact absurd h nofun

/-- What the two integers or doubles are that an inline answer is computed from. -/
theorem BinaryOp.inline?_cases {op : BinaryOp} (h : op.inline? x y = some v) :
    (∃ a b, x.asInt? = some a ∧ y.asInt? = some b ∧ op.ofInts? a b = some v) ∨
      ∃ a b, x.asDouble? = some a ∧ y.asDouble? = some b ∧ op.ofDoubles? a b = some v := by
  unfold inline? bothInt? bothDouble? at h
  cases hx : x.asInt? <;> cases hy : y.asInt? <;> cases hd : x.asDouble? <;>
    cases he : y.asDouble? <;> simp_all

/-- The remainder of two integers by zero is the error sentinel. -/
theorem BinaryOp.inline?_of_intRemainderByZero {op : BinaryOp} (h : op.IntRemainderByZero x y) :
    op.inline? x y = some .exception := by
  obtain ⟨rfl, hx, hy⟩ := h
  obtain ⟨a, ha⟩ := Option.isSome_iff_exists.mp hx
  have hboth : bothInt? x y = some (a, 0) := by rw [bothInt?, ha, hy]; rfl
  rw [inline?, hboth]
  rfl

/-- **Any other inline answer of a binary operator is a scalar.** -/
theorem BinaryOp.scalar_of_inline {op : BinaryOp} (h : op.inline? x y = some v)
    (hzero : ¬ op.IntRemainderByZero x y) : v.Scalar := by
  obtain ⟨a, b, ha, hb, hv⟩ | ⟨a, b, -, -, hv⟩ := inline?_cases h
  · refine scalar_ofInts? hv fun ⟨hop, h0⟩ => hzero ⟨hop, ?_, ?_⟩
    · rw [ha]; rfl
    · rw [hb, h0]
  · exact scalar_ofDoubles? hv

/-! ## Unary operators -/

theorem UnaryOp.scalar_ofInt (op : UnaryOp) (n : Int32) : (op.ofInt n).Scalar := by
  cases op with
  | neg =>
    unfold ofInt
    dsimp only
    split
    · exact .double _
    · exact scalar_checked _ _
  | plus => exact .int n
  | bitNot => exact .int _
  | inc => exact scalar_checked _ _
  | dec => exact scalar_checked _ _

theorem UnaryOp.scalar_ofDouble? {op : UnaryOp} {d : Double} (h : op.ofDouble? d = some v) :
    v.Scalar := by
  cases op with
  | bitNot => exact absurd h nofun
  | _ => cases h; exact .double _

/-- The plus sign gives a number back as it is. -/
theorem UnaryOp.inline?_plus (h : UnaryOp.plus.inline? x = some v) :
    v = x ∧ (x.tag = .int ∨ x.tag = .float64) := by
  have ht := UnaryOp.plus.inline?_isSome x
  rw [h] at ht
  unfold inline? asInt? asDouble? at h
  split at h
  · rename_i n hn
    rw [Option.ite_none_right_eq_some] at hn
    exact ⟨(Option.some.inj h).symm, .inl hn.1⟩
  · split at h
    · rename_i d hd
      rw [Option.ite_none_right_eq_some] at hd
      exact ⟨(Option.some.inj h).symm, .inr hd.1⟩
    · exact absurd h nofun

/-- **Any other inline answer of a unary operator is a scalar.** -/
theorem UnaryOp.scalar_of_inline {op : UnaryOp} (hop : op ≠ .plus) (h : op.inline? x = some v) :
    v.Scalar := by
  unfold inline? at h
  split at h
  · rw [if_neg hop] at h
    cases h
    exact op.scalar_ofInt _
  · split at h
    · rw [if_neg hop] at h
      exact scalar_ofDouble? h
    · exact absurd h nofun

end TieredVm
