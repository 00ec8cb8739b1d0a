import TieredVm.Operator.Inline
import TieredVm.Proofs.Double.Truncation
import TieredVm.Proofs.Value.Codec

/-!
# Numbers however they are stored

A value is a number when it is an integer or a double (`Value.IsNumber`). Writing a number, as a
double, as an integer, or as whichever of the two `Value.number` picks, keeps it but for folding the
NaNs. What compiled code computes from integers is the number that the arithmetic of doubles gives for
them: a result within 32 bits is stored as an integer, any other is rounded once.

* `isNumber_ofInt`, `isNumber_ofDouble`, `isNumber_number`: writing.
* `number_ofInt32`, `number_of_not_int32`: which of the two `number` picks.
* `isNumber_iff_tag`: the numbers are the values of two tags.
* `isNumber_addInt`, `isNumber_mulInt`, `isNumber_modInt`, `isNumber_shrInt`, `isNumber_negInt`, …:
  inline integer arithmetic.
-/

namespace TieredVm

theorem Double.folded_ofInt {z : Int} (h : z.natAbs < 2 ^ 53) : (ofInt z).folded = ofInt z :=
  folded_of_number (isNaN_ofInt h)

@[simp] theorem Double.folded_ofInt32 (n : Int32) : (ofInt32 n).folded = ofInt32 n :=
  folded_ofInt (natAbs_toInt_lt n)

namespace Value

/-- The value is this number. -/
def IsNumber (v : Value) (d : Double) : Prop := v.asNumber? = .ok (some d)

variable {v : Value} {d : Double}

theorem isNumber_of_kind {k : Kind} (hk : v.kind = .ok k) (h : k.number? = some d) : v.IsNumber d :=
  (asNumber?_of_kind hk).trans (congrArg Except.ok h)

theorem exists_kind_of_asNumber? {o : Option Double} (h : v.asNumber? = .ok o) :
    ∃ k, v.kind = .ok k := by
  unfold asNumber? at h
  cases hk : v.kind with
  | error e => rw [hk] at h; exact absurd h nofun
  | ok k => exact ⟨k, rfl⟩

/-- A number is stored in one of two ways. -/
theorem IsNumber.kind (h : v.IsNumber d) :
    (∃ n, v.kind = .ok (.int n) ∧ d = Double.ofInt32 n) ∨ v.kind = .ok (.float64 d) := by
  obtain ⟨k, hk⟩ := exists_kind_of_asNumber? h
  have hn : k.number? = some d := Except.ok.inj ((asNumber?_of_kind hk).symm.trans h)
  cases k with
  | int n => exact .inl ⟨n, hk, (Option.some.inj hn).symm⟩
  | float64 e => exact .inr (by rw [hk, Option.some.inj hn])
  | _ => exact absurd hn (by simp [Kind.number?])

theorem isNumber_iff_tag : (∃ d, v.IsNumber d) ↔ v.tag = .int ∨ v.tag = .float64 := by
  constructor
  · rintro ⟨d, h⟩
    obtain ⟨n, hk, -⟩ | hk := h.kind
    · exact .inl (tag_of_kind hk)
    · exact .inr (tag_of_kind hk)
  · intro h
    obtain ⟨k, hk⟩ : ∃ k, v.kind = .ok k := by
      refine exists_kind_of_not_heap fun t ht => ?_
      rw [ht] at h
      exact absurd h (by simp)
    rw [tag_of_kind hk] at h
    cases k with
    | int n => exact ⟨_, isNumber_of_kind hk rfl⟩
    | float64 d => exact ⟨_, isNumber_of_kind hk rfl⟩
    | _ => exact absurd h (by simp [Kind.tag])

theorem IsNumber.tag (h : v.IsNumber d) : v.tag = .int ∨ v.tag = .float64 :=
  isNumber_iff_tag.mp ⟨d, h⟩

/-- What the inline answers read of a number. -/
theorem IsNumber.stored (h : v.IsNumber d) :
    (∃ n, v.asInt? = some n ∧ v.asDouble? = none ∧ d = Double.ofInt32 n) ∨
      v.asInt? = none ∧ v.asDouble? = some d := by
  obtain ⟨n, hk, hd⟩ | hk := h.kind
  · exact .inl ⟨n, asInt?_of_kind hk, asDouble?_of_kind hk, hd⟩
  · exact .inr ⟨asInt?_of_kind hk, asDouble?_of_kind hk⟩

/-! ## Writing -/

theorem isNumber_ofInt (n : Int32) : (ofInt n).IsNumber (Double.ofInt32 n) :=
  isNumber_of_kind (kind_ofInt n) rfl

theorem isNumber_ofDouble (d : Double) : (ofDouble d).IsNumber d.folded :=
  isNumber_of_kind (kind_ofDouble d) rfl

theorem toInt_of_fits {z : Int} (h : fitsInt32 z = true) : (Int32.ofInt z).toInt = z := by
  unfold fitsInt32 at h
  simp only [Bool.and_eq_true, decide_eq_true_eq] at h
  exact Int32.toInt_ofInt_of_le (by omega) (by omega)

theorem natAbs_of_fits {z : Int} (h : fitsInt32 z = true) : z.natAbs < 2 ^ 53 := by
  rw [← toInt_of_fits h]
  exact Double.natAbs_toInt_lt _

/-- An integer in range that is written as one. -/
theorem isNumber_ofInt_of_fits {z : Int} (h : fitsInt32 z = true) :
    (ofInt (Int32.ofInt z)).IsNumber (Double.ofInt z).folded := by
  have hn := isNumber_ofInt (Int32.ofInt z)
  rwa [Double.ofInt32, toInt_of_fits h, ← Double.folded_ofInt (natAbs_of_fits h)] at hn

/-- A 32-bit integer is stored as one. -/
theorem number_ofInt32 (n : Int32) : number (Double.ofInt32 n) = ofInt n := by
  rw [number, if_pos ((Double.isInt32_iff _).mpr ⟨n, rfl⟩), Double.clamped_ofInt32,
    Int32.ofInt_toInt]

/-- Any other number is stored as a double. -/
theorem number_of_not_int32 (h : d.isInt32 = false) : number d = ofDouble d := by
  rw [number, h]
  rfl

/-- Storing an integral double as an integer loses nothing. -/
theorem isNumber_number (d : Double) : (number d).IsNumber d.folded := by
  cases hd : d.isInt32 with
  | true =>
    obtain ⟨n, rfl⟩ := (Double.isInt32_iff d).mp hd
    rw [number_ofInt32, Double.folded_ofInt32]
    exact isNumber_ofInt n
  | false =>
    rw [number_of_not_int32 hd]
    exact isNumber_ofDouble d

/-- A result in range is stored as an integer. -/
theorem isNumber_of_checked {z : Int} {r : Int32} (h : checkedInt32 z = some r) :
    (ofInt r).IsNumber (Double.ofInt z).folded := by
  unfold checkedInt32 at h
  rw [Option.ite_none_right_eq_some, Option.some.injEq] at h
  rw [← h.2]
  exact isNumber_ofInt_of_fits h.1

end Value

/-! ## Inline integer arithmetic -/

open Value Double

variable (a b : Int32)

theorem add_ofInt32 : (ofInt32 a).add (ofInt32 b) = Double.ofInt (a.toInt + b.toInt) :=
  Double.add_ofInt (natAbs_toInt_lt a) (natAbs_toInt_lt b)

theorem sub_ofInt32 : (ofInt32 a).sub (ofInt32 b) = Double.ofInt (a.toInt - b.toInt) :=
  Double.sub_ofInt (natAbs_toInt_lt a) (natAbs_toInt_lt b)

theorem BinaryOp.isNumber_addInt : (addInt a b).IsNumber ((ofInt32 a).add (ofInt32 b)).folded := by
  unfold addInt
  rw [add_ofInt32]
  split
  case h_1 r h => exact isNumber_of_checked h
  case h_2 => exact isNumber_ofDouble _

namespace ArithOp

theorem isNumber_subInt {v : Value} (h : ofInts? a b .sub = some v) :
    v.IsNumber ((ofInt32 a).sub (ofInt32 b)).folded := by
  rw [← Option.some.inj h, sub_ofInt32]
  split
  case h_1 r h => exact isNumber_of_checked h
  case h_2 => exact isNumber_ofDouble _

theorem isNumber_mulInt : (mulInt a b).IsNumber ((ofInt32 a).mul (ofInt32 b)).folded := by
  have hmul := Double.mul_ofInt (natAbs_toInt_lt a) (natAbs_toInt_lt b)
  unfold mulInt ofInt32
  simp only [Int32.lt_iff_toInt_lt, Int32.toInt_zero]
  split
  case isTrue h =>
    rw [hmul, if_pos h]
    exact isNumber_ofDouble _
  case isFalse h =>
    rw [hmul, if_neg h]
    split
    case h_1 r h => exact isNumber_of_checked h
    case h_2 => exact isNumber_ofDouble _

theorem isNumber_modInt (h : b ≠ 0) :
    (modInt a b).IsNumber ((ofInt32 a).rem (ofInt32 b)).folded := by
  have hb : ¬ b.toInt = 0 := fun h0 => h (Int32.toInt_inj.mp h0)
  have hrem := Double.rem_ofInt (natAbs_toInt_lt a) (natAbs_toInt_lt b)
  rw [if_neg hb] at hrem
  unfold modInt ofInt32
  rw [if_neg h]
  simp only [Int32.lt_iff_toInt_lt, Int32.toInt_zero]
  split
  case isTrue hz =>
    rw [hrem, if_pos hz]
    exact isNumber_ofDouble _
  case isFalse hz =>
    rw [hrem, if_neg hz]
    have hlt : (a.toInt.tmod b.toInt).natAbs < b.toInt.natAbs := by
      rw [Int.natAbs_tmod]
      exact Nat.mod_lt _ (by omega)
    have hlow := b.le_toInt
    have hhigh := b.toInt_lt
    refine isNumber_ofInt_of_fits ?_
    unfold fitsInt32
    rw [Bool.and_eq_true, decide_eq_true_eq, decide_eq_true_eq]
    omega

end ArithOp

/-- The unsigned shift over the integer it gives: at given operands the kernel would compute it. -/
theorem BinaryOp.exists_shrInt : ∃ z : Int, z = (unsignedShift a b).toNat ∧
    shrInt a b = match checkedInt32 z with
      | some r => .ofInt r
      | none => .ofDouble (Double.ofInt z) := by
  obtain ⟨f, hf⟩ : ∃ f, f = shrInt := ⟨_, rfl⟩
  have hunfolded := hf
  conv at hunfolded =>
    rhs
    delta shrInt
  rw [← hf, hunfolded]
  dsimp only
  generalize ((unsignedShift a b).toNat : Int) = z
  exact ⟨z, rfl, rfl⟩

theorem BinaryOp.isNumber_shrInt :
    (shrInt a b).IsNumber (Double.ofInt (unsignedShift a b).toNat).folded := by
  obtain ⟨z, hz, hshr⟩ := exists_shrInt a b
  rw [hshr, ← hz]
  split
  case h_1 r h => exact isNumber_of_checked h
  case h_2 => exact isNumber_ofDouble _

namespace UnaryOp

theorem isNumber_negInt (n : Int32) : (ofInt n .neg).IsNumber (ofInt32 n).neg.folded := by
  by_cases h : n = 0
  · have hneg : (ofInt32 n).neg = zero true := by
      rw [h, ofInt32, Int32.toInt_zero, Double.ofInt_zero, Double.neg_zero, Bool.not_false]
    have hzero : UnaryOp.ofInt n .neg = ofDouble (zero true) := if_pos h
    rw [hneg, hzero]
    exact isNumber_ofDouble _
  · have hneg : (ofInt32 n).neg = Double.ofInt (-n.toInt) :=
      Double.neg_ofInt fun h0 => h (Int32.toInt_inj.mp h0)
    unfold UnaryOp.ofInt
    dsimp only
    rw [if_neg h, hneg]
    split
    case h_1 r h => exact isNumber_of_checked h
    case h_2 => exact isNumber_ofDouble _

theorem isNumber_incInt (n : Int32) :
    (ofInt n .inc).IsNumber ((ofInt32 n).add (Double.ofInt 1)).folded := by
  have hadd : (ofInt32 n).add (Double.ofInt 1) = Double.ofInt (n.toInt + 1) :=
    Double.add_ofInt (natAbs_toInt_lt n) (by decide)
  unfold UnaryOp.ofInt
  dsimp only
  rw [hadd]
  split
  case h_1 r h => exact isNumber_of_checked h
  case h_2 => exact isNumber_ofDouble _

theorem isNumber_decInt (n : Int32) :
    (ofInt n .dec).IsNumber ((ofInt32 n).sub (Double.ofInt 1)).folded := by
  have hsub : (ofInt32 n).sub (Double.ofInt 1) = Double.ofInt (n.toInt - 1) :=
    Double.sub_ofInt (natAbs_toInt_lt n) (by decide)
  unfold UnaryOp.ofInt
  dsimp only
  rw [hsub]
  split
  case h_1 r h => exact isNumber_of_checked h
  case h_2 => exact isNumber_ofDouble _

end UnaryOp

end TieredVm
