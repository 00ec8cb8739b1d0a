import TieredVm.Proofs.Double.Exact

/-!
# Integer arithmetic in doubles

On doubles that are integers, arithmetic is integer arithmetic: sums, differences and products are the
exact ones rounded once, remainders are those of truncating division. What the integers cannot say is
the sign of a zero, and each law states it: a product or a remainder is the negative zero where its sign
rule asks for one, and so is the negation of zero.

* `add_ofInt`, `sub_ofInt`, `mul_ofInt`, `rem_ofInt`, `neg_ofInt`: the arithmetic laws.
* `compare?_ofInt`, `numEq_ofInt`: the order.
* `eq_ofInt_of_datum`: back to integers.
-/

namespace TieredVm.Double

variable {a b : Int}

theorem signed_natAbs (z : Int) : signed (decide (z < 0)) z.natAbs = (z : ℚ) := by
  unfold signed
  simp only [decide_eq_true_eq]
  split
  · rw [← Int.cast_natCast, Int.ofNat_natAbs_of_nonpos (by omega), Int.cast_neg, neg_neg]
  · rw [← Int.cast_natCast, Int.natAbs_of_nonneg (by omega)]

theorem signed_not (s : Bool) (q : Rat) : signed (!s) q = -signed s q := by
  cases s <;> simp [signed]

/-- Flipping the sign bit of an integer. -/
theorem neg_ofInt_eq (z : Int) :
    neg (ofInt z) = ofMagnitude (!decide (z < 0)) (nearestBits z.natAbs 1) := by
  rw [ofInt_eq, neg_ofMagnitude (nearestBits_lt _ _)]

theorem neg_zero (s : Bool) : neg (zero s) = zero (!s) := neg_ofMagnitude (by decide)

theorem ofInt_zero : ofInt 0 = zero false := ofInt_eq 0

theorem neg_ofInt (h : a ≠ 0) : neg (ofInt a) = ofInt (-a) := by
  rw [neg_ofInt_eq, ofInt_eq, Int.natAbs_neg, ← decide_not,
    show decide ¬ a < 0 = decide (-a < 0) from decide_eq_decide.mpr (by omega)]

/-! ## Sums -/

theorem add_of_finite {x y : Double} {s t : Bool} {p q : Rat} (hx : x.datum = .finite s p)
    (hy : y.datum = .finite t q) : add x y =
      if signed s p + signed t q = 0 then zero (s && t) else ofRat (signed s p + signed t q) := by
  unfold add
  rw [hx, hy]

theorem add_ofInt (ha : a.natAbs < 2 ^ 53) (hb : b.natAbs < 2 ^ 53) :
    add (ofInt a) (ofInt b) = ofInt (a + b) := by
  rw [add_of_finite (datum_ofInt ha) (datum_ofInt hb), signed_natAbs, signed_natAbs, ← Int.cast_add]
  split
  case isTrue h =>
    have hsum : a + b = 0 := Int.cast_eq_zero.mp h
    rw [hsum, ofInt_zero]
    congr 1
    rw [Bool.and_eq_false_iff, decide_eq_false_iff_not, decide_eq_false_iff_not]
    omega
  case isFalse h => rfl

theorem sub_ofInt (ha : a.natAbs < 2 ^ 53) (hb : b.natAbs < 2 ^ 53) :
    sub (ofInt a) (ofInt b) = ofInt (a - b) := by
  have hneg : (neg (ofInt b)).datum = .finite (!decide (b < 0)) b.natAbs := by
    rw [neg_ofInt_eq, datum_natural _ hb]
  rw [sub, add_of_finite (datum_ofInt ha) hneg, signed_not, signed_natAbs, signed_natAbs,
    ← sub_eq_add_neg, ← Int.cast_sub]
  split
  case isTrue h =>
    have hsum : a - b = 0 := Int.cast_eq_zero.mp h
    rw [hsum, ofInt_zero]
    obtain rfl : a = b := by omega
    rw [Bool.and_not_self]
  case isFalse h => rfl

/-! ## Products and remainders -/

/-- An integer magnitude under a sign that is the integer's own, unless the integer is zero. -/
theorem ofMagnitude_natAbs {s : Bool} {z : Int} (h : z ≠ 0 → s = decide (z < 0)) :
    ofMagnitude s (nearestBits z.natAbs 1) = if z = 0 ∧ s = true then zero true else ofInt z := by
  by_cases hz : z = 0
  · subst hz
    cases s <;> rfl
  · rw [if_neg (fun hc => hz hc.1), ofInt_eq, h hz]

/-- A product has the sign that its factors' signs give it, also when it is zero. -/
theorem mul_ofInt (ha : a.natAbs < 2 ^ 53) (hb : b.natAbs < 2 ^ 53) :
    mul (ofInt a) (ofInt b) =
      if a * b = 0 ∧ (a < 0 ∨ b < 0) then zero true else ofInt (a * b) := by
  have hmul : mul (ofInt a) (ofInt b) =
      ofMagnitude (decide (a < 0) != decide (b < 0)) (nearestBits (a * b).natAbs 1) := by
    unfold mul
    rw [datum_ofInt ha, datum_ofInt hb, Int.natAbs_mul, ← nearest_natural, Nat.cast_mul]
  have hsign : a * b ≠ 0 → (decide (a < 0) != decide (b < 0)) = decide (a * b < 0) := by
    intro hne
    obtain ⟨ha0, hb0⟩ := mul_ne_zero_iff.mp hne
    rw [Bool.eq_iff_iff, bne_iff_ne, ne_eq, decide_eq_decide, decide_eq_true_eq, mul_neg_iff]
    omega
  have hzero : a * b = 0 →
      ((decide (a < 0) != decide (b < 0)) = true ↔ a < 0 ∨ b < 0) := by
    intro h
    rw [bne_iff_ne, ne_eq, decide_eq_decide]
    rcases Int.mul_eq_zero.mp h with rfl | rfl <;> omega
  rw [hmul, ofMagnitude_natAbs hsign]
  exact if_congr (and_congr_right hzero) rfl rfl

/-- What truncating division leaves of a natural number. -/
theorem sub_mul_floor (m n : Nat) :
    (m : ℚ) - n * ((m / n : ℚ).floor : Int) = ((m % n : Nat) : ℚ) := by
  have hfloor : (m / n : ℚ).floor = (m / n : Nat) := Rat.floor_natCast_div_natCast _ _
  have hdiv : (n : ℚ) * (m / n : Nat) + (m % n : Nat) = m := by
    exact_mod_cast Nat.div_add_mod m n
  rw [hfloor, Int.cast_natCast]
  linarith

/-- A remainder has the sign of the dividend, also when it is zero. -/
theorem rem_ofInt (ha : a.natAbs < 2 ^ 53) (hb : b.natAbs < 2 ^ 53) :
    rem (ofInt a) (ofInt b) =
      if b = 0 then nan
      else if a.tmod b = 0 ∧ a < 0 then zero true else ofInt (a.tmod b) := by
  unfold rem
  rw [datum_ofInt ha, datum_ofInt hb]
  simp only [Nat.cast_eq_zero, Int.natAbs_eq_zero]
  split
  case isTrue => rfl
  case isFalse =>
    have hmod : (a.natAbs : ℚ) - b.natAbs * ((a.natAbs / b.natAbs : ℚ).floor : Int) =
        (a.tmod b).natAbs := by
      rw [sub_mul_floor, Int.natAbs_tmod]
    have hsign : a.tmod b ≠ 0 → decide (a < 0) = decide (a.tmod b < 0) := by
      intro hne
      refine decide_eq_decide.mpr ⟨fun h => ?_, fun h => ?_⟩
      · have hneg := Int.tmod_nonneg b (show 0 ≤ -a by omega)
        rw [Int.neg_tmod] at hneg
        omega
      · by_contra hge
        have hpos := Int.tmod_nonneg b (show 0 ≤ a by omega)
        omega
    rw [hmod, nearest_natural, ofMagnitude_natAbs hsign]
    simp only [decide_eq_true_eq]

/-! ## Order -/

theorem compare?_ofInt (ha : a.natAbs < 2 ^ 53) (hb : b.natAbs < 2 ^ 53) :
    (ofInt a).compare? (ofInt b) = some (compare a b) := by
  unfold compare?
  rw [datum_ofInt ha, datum_ofInt hb]
  simp only [signed_natAbs, orderOf, Int.cast_lt, Int.cast_inj]
  rfl

theorem numEq_ofInt (ha : a.natAbs < 2 ^ 53) (hb : b.natAbs < 2 ^ 53) :
    (ofInt a).numEq (ofInt b) = (a == b) := by
  rw [numEq, compare?_ofInt ha hb, Bool.eq_iff_iff, beq_iff_eq, beq_iff_eq, Option.some.injEq,
    Int.compare_eq_eq]

theorem isNaN_ofInt (ha : a.natAbs < 2 ^ 53) : (ofInt a).isNaN = false := by
  obtain ⟨he, -, -⟩ := datum_eq_finite (datum_ofInt ha)
  rw [isNaN, beq_eq_false_iff_ne.mpr he, Bool.false_and]

theorem natAbs_toInt_lt (n : Int32) : n.toInt.natAbs < 2 ^ 53 := by
  have hlow := n.le_toInt
  have hhigh := n.toInt_lt
  omega

/-- A double that is worth an integer below `2 ^ 53`, other than the negative zero, is the double of
that integer. -/
theorem eq_ofInt_of_datum {d : Double} {s : Bool} {q : ℚ} (h : d.datum = .finite s q)
    (hq : signed s q = a) (ha : a.natAbs < 2 ^ 53) (hz : d ≠ zero true) : d = ofInt a := by
  have hnonneg : 0 ≤ q := (datum_eq_finite h).2.2 ▸ d.magnitude_nonneg
  have hmag : q = (a.natAbs : ℚ) := by
    rw [Nat.cast_natAbs, Int.cast_abs, ← hq, ← abs_of_nonneg hnonneg]
    cases s <;> simp [signed]
  have hsign : s = decide (a < 0) := by
    cases s
    · have ha0 : 0 ≤ a := by
        rw [← Int.cast_nonneg_iff (R := ℚ), ← hq]
        exact hnonneg
      exact (decide_eq_false (not_lt.mpr ha0)).symm
    · have hpos : q ≠ 0 := fun h0 => hz (eq_of_datum h (h0 ▸ datum_zero true))
      have ha0 : a < 0 := by
        rw [← Int.cast_lt_zero (R := ℚ), ← hq]
        exact neg_lt_zero.mpr (hnonneg.lt_of_ne' hpos)
      exact (decide_eq_true ha0).symm
  refine eq_of_datum h ?_
  rw [datum_ofInt ha, ← hmag, ← hsign]

end TieredVm.Double
